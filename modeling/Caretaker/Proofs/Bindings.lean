import Caretaker.Variables
import Mathlib.Data.List.Induction
import Mathlib.Data.List.Nodup

/-!
# Theory of bindings

Binding a name again keeps its place and lets the new value count. So a list of bindings that is
built by `set` binds each name once, in the order in which the names came first, and holds the last
value of each.
-/

namespace Caretaker.Bindings

variable {b upper : Bindings} {name other value : Text}

/-- The names that are bound, in order. -/
def names (b : Bindings) : List Text := b.map (·.1)

@[simp] lemma names_append : names (b ++ upper) = b.names ++ upper.names := List.map_append

/-! ## Values and names -/

lemma isSome_value?_iff : (b.value? name).isSome ↔ name ∈ b.names := by
  simp [value?, names]

lemma value?_append : value? (b ++ upper) name =
    (b.value? name).orElse fun _ => upper.value? name := by
  unfold value?
  rw [List.find?_append]
  cases b.find? (·.1 == name) <;> rfl

/-- Where each name is bound once, the bindings are what the names are bound to. -/
lemma value?_eq_some_iff (h : b.names.Nodup) : b.value? name = some value ↔ (name, value) ∈ b := by
  induction b with
  | nil => simp
  | cons kv r ih =>
    obtain ⟨k, v⟩ := kv
    have hr : (names r).Nodup := h.of_cons
    have hk : k ∉ names r := h.notMem
    rw [value?_cons, List.mem_cons, Prod.mk.injEq]
    by_cases hname : k = name
    · -- the first binding is the only one of its name
      subst hname
      have hnot : (k, value) ∉ r := by
        intro hmem
        exact hk (List.mem_map.mpr ⟨_, hmem, rfl⟩)
      simp [hnot, eq_comm]
    · rw [if_neg hname, ih hr]
      simp [Ne.symm hname]

/-- The order of bindings does not matter where each name is bound once. -/
theorem value?_of_perm (h : b.names.Nodup) (hperm : upper.Perm b) :
    upper.value? name = b.value? name := by
  have hupper : upper.names.Nodup := ((hperm.map _).nodup_iff).mpr h
  apply Option.ext
  intro v
  rw [value?_eq_some_iff hupper, value?_eq_some_iff h, hperm.mem_iff]

/-- Where each name is bound once, the order of bindings does not matter. -/
lemma value?_reverse (h : b.names.Nodup) : value? b.reverse name = b.value? name :=
  value?_of_perm h b.reverse_perm

/-! ## Binding a name -/

/-- Setting a name keeps its place, or puts it behind the others. -/
lemma names_set (name value : Text) (b : Bindings) :
    (set name value b).names = if name ∈ b.names then b.names else b.names ++ [name] := by
  unfold names
  induction b with
  | nil => simp [set]
  | cons kv r ih =>
    obtain ⟨k, v⟩ := kv
    rw [set]
    by_cases hk : k = name
    · simp [hk]
    · have hname : name ≠ k := Ne.symm hk
      rw [if_neg hk, List.map_cons, ih]
      by_cases hr : name ∈ r.map (·.1) <;> simp [hr, hname]

/-- Setting a name binds no name twice. -/
lemma nodup_names_set (h : b.names.Nodup) : (set name value b).names.Nodup := by
  rw [names_set]
  split_ifs with hname
  · exact h
  · rw [List.nodup_append]
    refine ⟨h, List.nodup_singleton _, ?_⟩
    intro k hk k' hk' heq
    rw [List.mem_singleton.mp hk'] at heq
    exact hname (heq ▸ hk)

/-! ## Layering -/

lemma overlay_concat (b upper : Bindings) (name value : Text) :
    b.overlay (upper ++ [(name, value)]) = set name value (b.overlay upper) := by
  unfold overlay
  rw [List.foldl_append]
  rfl

/-- On top of other bindings the last binding of a name counts. -/
theorem value?_overlay (b upper : Bindings) (name : Text) : (b.overlay upper).value? name =
    (value? upper.reverse name).orElse fun _ => b.value? name := by
  induction upper using List.reverseRecOn with
  | nil => rfl
  | append_singleton upper kv ih =>
    obtain ⟨k, v⟩ := kv
    rw [overlay_concat, value?_set, ih, List.reverse_concat, value?_cons]
    by_cases hk : k = name <;> simp [hk]

/-- Layering bindings over others binds no name twice, either. -/
lemma nodup_names_overlay (h : b.names.Nodup) (upper : Bindings) :
    (b.overlay upper).names.Nodup := by
  induction upper using List.reverseRecOn with
  | nil => exact h
  | append_singleton upper kv ih =>
    rw [overlay_concat]
    exact nodup_names_set ih

lemma mem_names_overlay : name ∈ (b.overlay upper).names ↔ name ∈ b.names ∨ name ∈ upper.names := by
  have hreverse : name ∈ names upper.reverse ↔ name ∈ upper.names := by simp [names]
  rw [← isSome_value?_iff, value?_overlay, ← isSome_value?_iff, ← hreverse, ← isSome_value?_iff]
  cases value? upper.reverse name <;> simp

/-- Names that are bound one after the other stand in the order in which they came first, whatever
they are bound to. -/
lemma names_foldl_set {α : Type} (key : α → Text) (value : Bindings → α → Text) (l : List α) :
    (l.foldl (fun b x => set (key x) (value b x) b) []).names = (l.map key).eraseDups := by
  induction l using List.reverseRecOn with
  | nil => rfl
  | append_singleton l x ih =>
    rw [List.foldl_append, List.map_append, List.eraseDups_append]
    show (set (key x) _ (l.foldl _ [])).names = _ ++ ([key x].removeAll (l.map key)).eraseDups
    rw [names_set, ih]
    generalize l.map key = names
    by_cases hx : key x ∈ names
    · simp [hx, List.removeAll]
    · have hnew : [key x].removeAll names = [key x] := by simp [hx, List.removeAll]
      simp [hx, hnew, List.eraseDups_cons]

/-- On top of nothing the names stand in the order in which they came first. -/
lemma names_overlay_nil (upper : Bindings) :
    (overlay [] upper).names = upper.names.eraseDups :=
  @names_foldl_set (Text × Text) (·.1) (fun _ kv => kv.2) upper

end Caretaker.Bindings

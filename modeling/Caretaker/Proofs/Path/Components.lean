import Caretaker.Proofs.Path.Segments
import Mathlib

/-!
# Components and normal forms

Two paths from the root have the same components if they have the same segments, single dots left
out. The normal form of such a path is put together from these segments, and no path with the same
components is shorter.
-/

namespace Caretaker.Path

variable {p q : Path}

lemma isAbsolute_iff_head? : p.isAbsolute ↔ p.text.head? = some '/' := beq_iff_eq

lemma exists_text_of_isAbsolute (hp : p.isAbsolute) : ∃ r, p.text = '/' :: r :=
  List.head?_eq_some_iff.mp (isAbsolute_iff_head?.mp hp)

/-! ## Moving segments -/

/-- The segments that say something: all but single dots. -/
def moving (p : Path) : List Text := p.segments.filter (· ≠ ['.'])

/-- The component of a moving segment. -/
def Component.ofMoving (s : Text) : Component := if s = ['.', '.'] then .up else .name s

/-- A segment that is a single dot is no component, any other one moves. -/
lemma ofSegment?_eq (s : Text) :
    Component.ofSegment? s = if s = ['.'] then none else some (.ofMoving s) := by
  rw [Component.ofSegment?, Component.ofMoving]
  split_ifs <;> rfl

lemma ofMoving_injective : Function.Injective Component.ofMoving := by
  intro s t h
  rw [Component.ofMoving, Component.ofMoving] at h
  split_ifs at h with hs ht ht
  · rw [hs, ht]
  · exact Component.name.inj h

lemma filterMap_ofSegment? (segments : List Text) :
    segments.filterMap Component.ofSegment? =
      (segments.filter (· ≠ ['.'])).map Component.ofMoving := by
  induction segments with
  | nil => rfl
  | cons s rest ih =>
    rw [List.filterMap_cons, ofSegment?_eq]
    by_cases hs : s = ['.']
    · rw [if_pos hs, List.filter_cons_of_neg (by simpa using hs)]
      exact ih
    · rw [if_neg hs, List.filter_cons_of_pos (by simpa using hs), List.map_cons, ← ih]

/-- The components of a path from the root are the root and the moving segments. -/
lemma components_eq_of_isAbsolute (hp : p.isAbsolute) :
    p.components = .root :: p.moving.map Component.ofMoving := by
  rw [components, if_pos hp, filterMap_ofSegment?, moving]

/-- Those of another path are its moving segments, behind a dot if it starts with one, -/
lemma components_eq_of_not_isAbsolute (hp : ¬ p.isAbsolute) : p.components =
    (if p.segments.head? = some ['.'] then [.here] else []) ++
      p.moving.map Component.ofMoving := by
  rw [components, if_neg hp, filterMap_ofSegment?, moving]
  split_ifs <;> rfl

/-- so that the root is not among them. -/
lemma root_not_mem_of_not_isAbsolute (hp : ¬ p.isAbsolute) : .root ∉ p.components := by
  have hrest : .root ∉ p.segments.filterMap Component.ofSegment? := by
    intro hmem
    obtain ⟨s, -, hs⟩ := List.mem_filterMap.mp hmem
    rw [Component.ofSegment?] at hs
    split_ifs at hs <;> cases hs
  rw [components, if_neg hp]
  split_ifs
  · exact fun hmem => hrest ((List.mem_cons.mp hmem).resolve_left nofun)
  · exact hrest

/-- Paths have the components of a path from the root if they start there and move alike. -/
lemma same_iff_of_isAbsolute (hq : q.isAbsolute) :
    p.same q ↔ p.isAbsolute ∧ p.moving = q.moving := by
  rw [same, beq_iff_eq, components_eq_of_isAbsolute hq]
  constructor
  · intro h
    have hp : p.isAbsolute := by
      by_contra hrel
      exact root_not_mem_of_not_isAbsolute hrel (h ▸ List.mem_cons_self ..)
    rw [components_eq_of_isAbsolute hp, List.cons.injEq] at h
    exact ⟨hp, List.map_injective_iff.mpr ofMoving_injective h.2⟩
  · rintro ⟨hp, hmoving⟩
    rw [components_eq_of_isAbsolute hp, hmoving]

/-! ## Normal forms -/

/-- A segment that a normal form may have. -/
def IsMoving (s : Text) : Prop := IsSegment s ∧ s ≠ ['.']

lemma isMoving_of_mem_moving {s : Text} (h : s ∈ p.moving) : IsMoving s := by
  obtain ⟨hmem, hdot⟩ := List.mem_filter.mp h
  exact ⟨isSegment_of_mem_segments hmem, by simpa using hdot⟩

lemma moving_ofNames {names : List Text} (h : ∀ n ∈ names, IsMoving n) :
    (ofNames true names).moving = names := by
  rw [moving, segments_ofNames true fun n hn => (h n hn).1]
  exact List.filter_eq_self.mpr fun n hn => by simpa using (h n hn).2

/-- Collapsing keeps to the segments that there are, and to double dots. -/
lemma isMoving_of_mem_foldl {cs : List Component} {names : List Text}
    (hnames : ∀ n ∈ names, IsMoving n) (hcs : ∀ n, .name n ∈ cs → IsMoving n) :
    ∀ n ∈ cs.foldl collapse names, IsMoving n := by
  induction cs generalizing names with
  | nil => exact hnames
  | cons c cs ih =>
    refine ih ?_ fun n hn => hcs n (List.mem_cons_of_mem _ hn)
    cases c with
    | root => exact hnames
    | here => exact hnames
    | up =>
      cases names with
      | nil =>
        intro n hn
        rw [List.mem_singleton.mp hn]
        exact ⟨⟨by decide, by decide⟩, by decide⟩
      | cons m names => exact fun n hn => hnames n (List.mem_cons_of_mem _ hn)
    | name m =>
      intro n hn
      rcases List.mem_cons.mp hn with rfl | hn
      · exact hcs n (List.mem_cons_self ..)
      · exact hnames n hn

/-- The normal form of a path from the root is put together from moving segments, -/
lemma exists_normalize (hp : p.isAbsolute) :
    ∃ names, p.normalize = ofNames true names ∧ ∀ n ∈ names, IsMoving n := by
  refine ⟨(p.components.foldl collapse []).reverse, by rw [normalize, hp], fun n hn => ?_⟩
  refine isMoving_of_mem_foldl (fun m hm => absurd hm List.not_mem_nil) (fun m hm => ?_) n
    (List.mem_reverse.mp hn)
  rw [components_eq_of_isAbsolute hp] at hm
  obtain ⟨s, hs, hsm⟩ := List.mem_map.mp ((List.mem_cons.mp hm).resolve_left nofun)
  rw [Component.ofMoving] at hsm
  split_ifs at hsm
  rw [← Component.name.inj hsm]
  exact isMoving_of_mem_moving hs

/-- so it starts at the root as well. -/
lemma isAbsolute_normalize (hp : p.isAbsolute) : p.normalize.isAbsolute := by
  obtain ⟨names, hnames, -⟩ := exists_normalize hp
  rw [hnames]
  rfl

/-! ## Joins -/

lemma isAbsolute_join (hp : p.isAbsolute) (part : Text) : (p.join part).isAbsolute := by
  obtain ⟨r, hr⟩ := exists_text_of_isAbsolute hp
  rw [join]
  split_ifs with hpart
  · exact beq_iff_eq.mpr hpart
  · rw [isAbsolute, hr]
    rfl
  · rw [isAbsolute, hr]
    rfl

/-- A name that is joined to a path from the root comes behind a slash. -/
lemma exists_text_join (hp : p.isAbsolute) {name : Text} (hname : IsName name) :
    ∃ front, (p.join name).text = front ++ '/' :: name := by
  obtain ⟨r, hr⟩ := exists_text_of_isAbsolute hp
  have hhead : name.head? ≠ some '/' := fun hc => hname.slash_not_mem (List.mem_of_mem_head? hc)
  rw [join, if_neg hhead]
  split_ifs with hlast
  · obtain ⟨front, hfront⟩ := List.getLast?_eq_some_iff.mp (hlast.resolve_left (by simp [hr]))
    exact ⟨front, by simp [hfront]⟩
  · exact ⟨p.text, rfl⟩

/-- Joining appends a name, behind a slash if need be. -/
lemma exists_join_eq_append (p : Path) {name : Text} (hname : IsName name) : ∃ behind : Text,
    (p.join name).text = p.text ++ behind ∧ ∀ c ∈ behind, c = '/' ∨ c ∈ name := by
  have hhead : name.head? ≠ some '/' :=
    fun hc => hname.slash_not_mem (List.mem_of_mem_head? hc)
  rw [join, if_neg hhead]
  split_ifs
  · exact ⟨name, rfl, fun c hc => Or.inr hc⟩
  · exact ⟨'/' :: name, rfl, fun c hc => List.mem_cons.mp hc⟩

/-! ## Characters and lengths -/

lemma mem_of_mem_splitSlashes {s t : Text} (h : s ∈ splitSlashes t) {c : Char} (hc : c ∈ s) :
    c ∈ t := by
  fun_induction splitSlashes t generalizing s with
  | case1 =>
    rw [List.mem_singleton.mp h] at hc
    cases hc
  | case2 r ih =>
    rcases List.mem_cons.mp h with rfl | hr
    · cases hc
    · exact List.mem_cons_of_mem _ (ih hr hc)
  | case3 d r hd hs => exact absurd hs (splitSlashes_ne_nil r)
  | case4 d r hd s' ss hs ih =>
    rw [hs] at ih
    rcases List.mem_cons.mp h with rfl | hr
    · rcases List.mem_cons.mp hc with rfl | hc
      · exact List.mem_cons_self ..
      · exact List.mem_cons_of_mem _ (ih (List.mem_cons_self ..) hc)
    · exact List.mem_cons_of_mem _ (ih (List.mem_cons_of_mem _ hr) hc)

lemma mem_of_mem_intercalate {names : List Text} {c : Char}
    (h : c ∈ ['/'].intercalate names) : c = '/' ∨ ∃ n ∈ names, c ∈ n := by
  induction names with
  | nil => cases h
  | cons n rest ih =>
    cases rest with
    | nil =>
      rw [List.intercalate_singleton] at h
      exact Or.inr ⟨n, List.mem_singleton_self n, h⟩
    | cons m rest =>
      rw [List.intercalate_cons_cons, List.append_assoc, List.mem_append] at h
      rcases h with hn | h
      · exact Or.inr ⟨n, List.mem_cons_self .., hn⟩
      · rcases List.mem_cons.mp h with hc | h
        · exact Or.inl hc
        · exact (ih h).imp_right fun ⟨k, hk, hck⟩ => ⟨k, List.mem_cons_of_mem _ hk, hck⟩

/-- The path put together from the moving segments has no characters of its own. -/
lemma mem_text_of_mem_ofNames (hp : p.isAbsolute) {c : Char}
    (h : c ∈ (ofNames true p.moving).text) : c ∈ p.text := by
  obtain ⟨r, hr⟩ := exists_text_of_isAbsolute hp
  have hslash : '/' ∈ p.text := hr ▸ List.mem_cons_self ..
  rcases List.mem_cons.mp h with rfl | h
  · exact hslash
  · rcases mem_of_mem_intercalate h with rfl | ⟨n, hn, hc⟩
    · exact hslash
    · exact mem_of_mem_splitSlashes (List.mem_filter.mp (List.mem_filter.mp hn).1).1 hc

lemma byteLength_cons (c : Char) (t : Text) :
    Text.byteLength (c :: t) = c.utf8Size + Text.byteLength t := rfl

lemma byteLength_append (s t : Text) :
    Text.byteLength (s ++ t) = Text.byteLength s + Text.byteLength t := by
  induction s with
  | nil => exact (Nat.zero_add _).symm
  | cons c s ih =>
    rw [List.cons_append, byteLength_cons, byteLength_cons, ih, Nat.add_assoc]

lemma utf8Size_slash : '/'.utf8Size = 1 := rfl

/-- Every stretch but one comes with a slash. -/
lemma byteLength_splitSlashes (t : Text) : Text.byteLength t + 1 =
    ((splitSlashes t).map fun s => Text.byteLength s + 1).sum := by
  fun_induction splitSlashes t with
  | case1 => rfl
  | case2 r ih =>
    rw [byteLength_cons, utf8Size_slash, List.map_cons, List.sum_cons, ← ih]
    show _ = 0 + 1 + _
    omega
  | case3 c r hc hs => exact absurd hs (splitSlashes_ne_nil r)
  | case4 c r hc s ss hs ih =>
    rw [hs, List.map_cons, List.sum_cons] at ih
    rw [byteLength_cons, List.map_cons, List.sum_cons, byteLength_cons]
    omega

/-- A path put together from names is as long as they are, with one slash for each. -/
lemma byteLength_ofNames {names : List Text} (hne : names ≠ []) (h : ∀ n ∈ names, '/' ∉ n) :
    Text.byteLength (ofNames true names).text =
      (names.map fun n => Text.byteLength n + 1).sum := by
  have hcut := byteLength_splitSlashes (['/'].intercalate names)
  have htext : (ofNames true names).text = '/' :: ['/'].intercalate names := rfl
  rw [splitSlashes_intercalate hne h] at hcut
  rw [htext, byteLength_cons, utf8Size_slash, Nat.add_comm, hcut]

/-- No path with the same moving segments is shorter than the one put together from them. -/
lemma byteLength_ofNames_le (hp : p.isAbsolute) :
    Text.byteLength (ofNames true p.moving).text ≤ Text.byteLength p.text := by
  obtain ⟨r, hr⟩ := exists_text_of_isAbsolute hp
  have hsegments : p.segments = (splitSlashes r).filter (!·.isEmpty) := by
    rw [segments, hr]
    rfl
  have hlength := byteLength_splitSlashes r
  rw [hr, byteLength_cons, utf8Size_slash]
  by_cases hne : p.moving = []
  · rw [hne]
    exact Nat.le_add_right 1 _
  · have hcut := byteLength_ofNames hne fun n hn => (isMoving_of_mem_moving hn).1.slash_not_mem
    -- the moving segments are some of the stretches, and leaving stretches out saves bytes
    have hsublist : p.moving.Sublist (splitSlashes r) := by
      rw [moving, hsegments]
      exact List.filter_sublist.trans List.filter_sublist
    have hsum := (hsublist.map fun s => Text.byteLength s + 1).sum_le_sum fun n _ => Nat.zero_le n
    omega

end Caretaker.Path

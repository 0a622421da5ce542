import Caretaker.Child
import Caretaker.Proofs.Bindings
import Caretaker.Proofs.Environ.References
import Caretaker.Proofs.Environ.Segments
import Caretaker.Proofs.Text.Order

/-!
# What a child finds under a name

Which of several bindings of a name counts is decided twice. A reference takes the first one that it
comes upon: in the file, then among the base variables, then in the process. A child is handed the
last one of a list that is written in the other direction. The file and the base variables bind a
name once. So the two agree on a name unless only the process has it, and has it more than once.
-/

namespace Caretaker

/-! ## The octets of texts -/

namespace Octets

variable {s t : Text} {o : Octets}

lemma ofText_append (s t : Text) : ofText (s ++ t) = ofText s ++ ofText t := by
  unfold ofText ofBytes
  rw [Text.encode_append, List.map_append]

/-- Only a text that starts with another one has octets that start with those of the other. -/
lemma exists_of_ofText_append (h : ofText s ++ o = ofText t) : ∃ r, t = s ++ r ∧ o = ofText r := by
  -- octets stand for bytes one by one, and of bytes it is known that they are decoded from the front
  have hbytes : Text.encode s ++ toBytes o = Text.encode t := by
    have happly := congrArg toBytes h
    unfold toBytes at happly
    rw [List.map_append] at happly
    change toBytes (ofBytes _) ++ toBytes o = toBytes (ofBytes _) at happly
    rwa [toBytes_ofBytes, toBytes_ofBytes] at happly
  have harray : s.utf8Encode ++ ⟨(toBytes o).toArray⟩ = t.utf8Encode := by
    apply ByteArray.ext
    apply Array.toList_inj.mp
    rw [ByteArray.data_append, Array.toList_append]
    exact hbytes
  obtain ⟨r, rfl⟩ := List.isPrefix_of_utf8Encode_append_eq_utf8Encode _ harray
  refine ⟨r, rfl, ?_⟩
  rw [ofText_append] at h
  exact List.append_cancel_left h

/-- Different texts have different octets. -/
lemma ofText_injective : Function.Injective ofText := by
  intro s t h
  obtain ⟨r, hr, -⟩ := exists_of_ofText_append (o := []) ((List.append_nil _).trans h)
  obtain ⟨r', hr', -⟩ := exists_of_ofText_append (o := []) ((List.append_nil _).trans h.symm)
  have hprefix : s <+: t := ⟨r, hr.symm⟩
  have hprefix' : t <+: s := ⟨r', hr'.symm⟩
  exact hprefix.eq_of_length_le hprefix'.length_le

end Octets

/-! ## The variables of a process -/

namespace Bindings

/-- A name of a variable, as it is cut off the text that binds it: up to the first equals sign, which
may not be the first character. -/
def IsKey : Text → Prop
  | [] => False
  | _ :: r => '=' ∉ r

/-- Each name is bound once, and can be cut off the text that binds it. -/
structure IsEnvironment (b : Bindings) : Prop where
  nodup : b.names.Nodup
  keys : ∀ name ∈ b.names, IsKey name

/-- The first and the last binding of a name agree. -/
def Unambiguous (b : Bindings) (name : Text) : Prop := value? b.reverse name = b.value? name

variable {b upper : Bindings} {name value : Text}

/-- Binding one more name leaves each name bound once. -/
lemma IsEnvironment.set (h : b.IsEnvironment) (hname : IsKey name) :
    (set name value b).IsEnvironment where
  nodup := nodup_names_set h.nodup
  keys := by
    intro k hk
    rw [names_set] at hk
    split_ifs at hk with hbound
    · exact h.keys k hk
    · rcases List.mem_append.mp hk with hk | hk
      · exact h.keys k hk
      · rwa [List.mem_singleton.mp hk]

lemma isKey_of_isName (h : Environ.isName name) : IsKey name := by
  obtain ⟨c, r, rfl, -, -⟩ := Environ.exists_cons_of_isName h
  exact fun hr => Environ.equals_not_mem h (List.mem_cons_of_mem _ hr)

/-- The text of a binding is cut into its name and its value again. -/
lemma ofText?_text {k : Text} (hk : IsKey k) (v : Text) : ofText? (k ++ '=' :: v) = some (k, v) := by
  cases k with
  | nil => cases hk
  | cons c r =>
    have hr : ∀ d ∈ r, (d != '=') = true := fun d hd => bne_iff_ne.mpr (ne_of_mem_of_not_mem hd hk)
    have hname : (r ++ '=' :: v).takeWhile (· != '=') = r := by
      rw [List.takeWhile_append_of_pos hr]
      simp
    have hvalue : (r ++ '=' :: v).dropWhile (· != '=') = '=' :: v := by
      rw [List.dropWhile_append_of_pos hr]
      simp
    rw [List.cons_append, ofText?, hvalue, hname]

/-- The texts of two bindings are the same only if the bindings are. -/
lemma text_inj {k k' v v' : Text} (hk : IsKey k) (hk' : IsKey k')
    (h : k ++ '=' :: v = k' ++ '=' :: v') : k = k' ∧ v = v' := by
  have hcut := ofText?_text hk v
  rw [h, ofText?_text hk' v'] at hcut
  exact (Prod.mk.inj (Option.some.inj hcut)).imp Eq.symm Eq.symm

/-- What is cut out of a text is put together to this text, and no other binding is. -/
lemma ofText?_eq_some_iff {t k v : Text} :
    ofText? t = some (k, v) ↔ IsKey k ∧ t = k ++ '=' :: v := by
  constructor
  · intro h
    cases t with
    | nil => cases h
    | cons c r =>
      rw [ofText?] at h
      have hsplit : r.takeWhile (· != '=') ++ r.dropWhile (· != '=') = r :=
        List.takeWhile_append_dropWhile
      cases hrest : r.dropWhile (· != '=') with
      | nil =>
        rw [hrest] at h
        cases h
      | cons d value =>
        -- the name was cut where the first equals sign is
        have hsign : d = '=' := by
          have hhead := List.head?_dropWhile_not (· != '=') r
          rw [hrest] at hhead
          simpa using hhead
        subst hsign
        rw [hrest] at h hsplit
        obtain ⟨rfl, rfl⟩ := Prod.mk.inj (Option.some.inj h)
        refine ⟨fun hmem => ?_, by rw [List.cons_append, hsplit]⟩
        exact absurd (List.mem_takeWhile_imp hmem) (by simp)
  · rintro ⟨hk, rfl⟩
    exact ofText?_text hk v

/-- The names that a process takes out of its texts can be cut off them. -/
lemma isKey_of_mem_taken (h : name ∈ b.taken.names) : IsKey name := by
  obtain ⟨⟨k, v⟩, hmem, rfl⟩ := List.mem_map.mp h
  obtain ⟨⟨k', v'⟩, -, htext⟩ := List.mem_filterMap.mp hmem
  exact (ofText?_eq_some_iff.mp htext).1

/-- Whether a text starts with a name and an equals sign is told by what is cut out of it. -/
lemma isPrefixOf?_eq_bind (hname : IsKey name) (t : Text) : (name ++ ['=']).isPrefixOf? t =
    (ofText? t).bind fun kv => if kv.1 = name then some kv.2 else none := by
  apply Option.ext
  intro w
  rw [List.isPrefixOf?_eq_some_iff_append_eq, List.append_assoc, Option.bind_eq_some_iff]
  constructor
  · rintro rfl
    exact ⟨(name, w), ofText?_text hname w, if_pos rfl⟩
  · rintro ⟨⟨k, v⟩, hcut, hvalue⟩
    obtain ⟨-, rfl⟩ := ofText?_eq_some_iff.mp hcut
    split_ifs at hvalue with hk
    obtain rfl := Option.some.inj hvalue
    rw [← hk]
    rfl

/-- A process finds a name in its texts where it is bound first. -/
lemma processValue?_eq (hname : Environ.isName name) :
    b.processValue? name = b.taken.value? name := by
  have hne : name.isEmpty = false := by
    obtain ⟨c, r, rfl, -, -⟩ := Environ.exists_cons_of_isName hname
    rfl
  unfold processValue? taken
  rw [hne, if_neg Bool.false_ne_true]
  induction b with
  | nil => rfl
  | cons kv r ih =>
    rw [List.findSome?_cons, List.filterMap_cons]
    dsimp only
    rw [isPrefixOf?_eq_bind (isKey_of_isName hname), ih]
    cases ofText? (kv.1 ++ '=' :: kv.2) with
    | none => rfl
    | some cut =>
      rw [value?_cons, Option.bind_some]
      by_cases hcut : cut.1 = name <;> simp [hcut]

end Bindings

/-! ## What a child is handed -/

/-- Among the texts that a child is handed, one binds a name to a value. -/
def Octets.Binds (environment : List Octets) (name : Text) (value : Octets) : Prop :=
  ofText name ++ '=' :: value ∈ environment

instance (environment : List Octets) (name : Text) (value : Octets) :
    Decidable (Octets.Binds environment name value) :=
  inferInstanceAs (Decidable (_ ∈ environment))

section

open Bindings

variable {process added : Bindings} {name : Text} {value : Octets}

/-- The texts that a child is handed bind each name to its last value, first in the process and then
among the variables that are layered over it. -/
theorem binds_childEnvironment (hadded : ∀ name ∈ added.names, IsKey name) (hne : added ≠ [])
    (hname : IsKey name) :
    Octets.Binds (childEnvironment process added) name value ↔
      (value? (process.taken ++ added).reverse name).map Octets.ofText = some value := by
  have hnodup : (overlay [] (process.taken ++ added)).names.Nodup :=
    nodup_names_overlay (b := []) List.nodup_nil _
  have hkeys : ∀ k ∈ (overlay [] (process.taken ++ added)).names, IsKey k := by
    intro k hk
    rcases mem_names_overlay.mp hk with hk | hk
    · cases hk
    · rw [names_append] at hk
      rcases List.mem_append.mp hk with hk | hk
      · exact isKey_of_mem_taken hk
      · exact hadded k hk
  have hlast : (overlay [] (process.taken ++ added)).value? name =
      value? (process.taken ++ added).reverse name := by
    rw [value?_overlay]
    cases value? (process.taken ++ added).reverse name <;> rfl
  have hempty : added.isEmpty = false := by simpa using hne
  have hsign : Octets.ofText ['='] = ['='] := by decide
  unfold Octets.Binds childEnvironment
  rw [hempty, if_neg Bool.false_ne_true, List.mem_map, Option.map_eq_some_iff, ← hlast]
  constructor
  · -- the octets of a name and its equals sign are the front of the octets of the whole text
    rintro ⟨⟨k, v⟩, hmem, htext⟩
    have hkv : (k, v) ∈ overlay [] (process.taken ++ added) :=
      (List.mergeSort_perm _ _).mem_iff.mp hmem
    have hfront : Octets.ofText (name ++ ['=']) ++ value = Octets.ofText (k ++ '=' :: v) := by
      rw [Octets.ofText_append, hsign, List.append_assoc]
      exact htext.symm
    obtain ⟨r, hr, rfl⟩ := Octets.exists_of_ofText_append hfront
    rw [List.append_assoc] at hr
    obtain ⟨rfl, rfl⟩ := text_inj (hkeys k (List.mem_map.mpr ⟨_, hkv, rfl⟩)) hname hr
    exact ⟨v, (value?_eq_some_iff hnodup).mpr hkv, rfl⟩
  · rintro ⟨v, hv, rfl⟩
    refine ⟨(name, v), ?_, ?_⟩
    · exact (List.mergeSort_perm _ _).mem_iff.mpr ((value?_eq_some_iff hnodup).mp hv)
    · show Octets.ofText (name ++ (['='] ++ v)) = _
      rw [Octets.ofText_append, Octets.ofText_append, hsign]
      rfl

end

namespace Environ

open Bindings

variable {process base : Bindings} {content name other : Text}

/-! ## The variables of a file -/

lemma isEnvironment_foldl_carryOut {vars : Bindings} {assigned : List Assignment}
    (hvars : vars.IsEnvironment) (hnames : ∀ a ∈ assigned, isName a.name) :
    (assigned.foldl (carryOut process base) vars).IsEnvironment := by
  induction assigned generalizing vars with
  | nil => exact hvars
  | cons a assigned ih =>
    have hkey : IsKey a.name := isKey_of_isName (hnames a (List.mem_cons_self ..))
    have hcarried : (carryOut process base vars a).IsEnvironment := hvars.set hkey
    exact ih hcarried fun b hb => hnames b (List.mem_cons_of_mem _ hb)

/-- A file assigns names, and each of them once in the end. -/
theorem isEnvironment_parse (process base : Bindings) (content : Text) :
    (parse process base content).IsEnvironment := by
  have hnone : IsEnvironment [] := ⟨List.nodup_nil, fun name hname => absurd hname List.not_mem_nil⟩
  rw [parse_eq]
  exact isEnvironment_foldl_carryOut hnone fun a => isName_of_mem_assignments

/-- A lookup comes first upon what is layered over the process last, and then upon what the process
binds first. -/
lemma scope_eq_orElse {vars : Bindings} (hbase : base.IsEnvironment) (hvars : vars.IsEnvironment)
    (hname : isName name) : scope process base vars name =
      (value? (base ++ vars).reverse name).orElse fun _ => process.taken.value? name := by
  unfold scope
  rw [List.reverse_append, value?_append, value?_reverse hvars.nodup, value?_reverse hbase.nodup,
    processValue?_eq hname]

/-- The last binding of a name is the one that a lookup comes upon, if only the process does not have
different ones. -/
lemma value?_reverse_eq_scope_iff {vars : Bindings} (hbase : base.IsEnvironment)
    (hvars : vars.IsEnvironment) (hname : isName name) :
    value? (process.taken ++ (base ++ vars)).reverse name = scope process base vars name ↔
      name ∈ names (base ++ vars) ∨ process.taken.Unambiguous name := by
  have hmem : name ∈ names (base ++ vars) ↔ (value? (base ++ vars).reverse name).isSome := by
    rw [isSome_value?_iff, names, names, List.map_reverse, List.mem_reverse]
  rw [scope_eq_orElse hbase hvars hname, List.reverse_append, value?_append, hmem]
  -- only a name that is not layered over the process is looked up in the process at all
  cases value? (base ++ vars).reverse name with
  | none => simp [Unambiguous]
  | some v => simp

/-! ## References behind the last line -/

/-- How a reference to a name can be written. -/
inductive Refers (name : Text) : Text → Prop where
  | bare : Refers name ('$' :: name)
  | braced : Refers name ('$' :: '{' :: (name ++ ['}']))

variable {reference : Text}

/-- A reference consists of its name, a dollar sign and braces. -/
lemma Refers.mem (h : Refers name reference) (hname : isName name) :
    ∀ c ∈ reference, isNameChar c ∨ c = '$' ∨ c = '{' ∨ c = '}' := by
  have hall := isNameChar_of_mem hname
  intro c hc
  cases h with
  | bare =>
    rcases List.mem_cons.mp hc with rfl | hc
    · exact Or.inr (Or.inl rfl)
    · exact Or.inl (hall c hc)
  | braced =>
    simp only [List.mem_cons, List.mem_append, List.not_mem_nil, or_false] at hc
    rcases hc with rfl | rfl | hc | rfl
    · exact Or.inr (Or.inl rfl)
    · exact Or.inr (Or.inr (Or.inl rfl))
    · exact Or.inl (hall c hc)
    · exact Or.inr (Or.inr (Or.inr rfl))

/-- A reference gives the value of its name. -/
lemma Refers.expand_eq (h : Refers name reference) (hname : isName name) (find : Lookup) :
    expand find reference = (find name).getD [] := by
  cases h with
  | bare =>
    have hbare : expand find ('$' :: (name ++ [])) = (find name).getD [] ++ expand find [] :=
      expand_bare hname nofun
    rwa [expand_nil, List.append_nil, List.append_nil] at hbare
  | braced =>
    rw [expand_closed (brace_not_mem_of_isName hname), bracedValue_name hname, expand_nil,
      List.append_nil]
    -- an unset name and an empty value give the same
    cases find name with
    | none => rfl
    | some v => cases v <;> rfl

/-- A line behind the last one that refers to a name gives what is looked up behind the last line. -/
theorem parse_append_reference (h : Refers name reference) (hname : isName name)
    (hother : isName other) (process base : Bindings) (content : Text) :
    parse process base (content ++ '\n' :: (other ++ '=' :: reference)) =
      (parse process base content).set other
        ((scope process base (parse process base content) name).getD []) := by
  -- nothing in a reference is blank or quoted, so that its line has it as a bare segment
  have hplain : ∀ c ∈ reference, ¬ Text.isBlank c ∧ c ≠ '\'' ∧ c ≠ '"' := by
    intro c hc
    rcases h.mem hname c hc with hchar | rfl | rfl | rfl
    · refine ⟨not_isBlank_of_isNameChar hchar, ?_, ?_⟩
      · rintro rfl
        exact absurd hchar (by decide)
      · rintro rfl
        exact absurd hchar (by decide)
    all_goals exact ⟨by decide, by decide, by decide⟩
  have htight : Text.Tight reference := Text.tight_of_forall fun c hc => (hplain c hc).1
  have hfeed : '\n' ∉ reference := fun hmem => (hplain _ hmem).1 (by decide)
  have hvalue : ∀ find, evaluate find (Text.trim reference) = (find name).getD [] := by
    intro find
    rw [Text.trim_eq_self htight, ← h.expand_eq hname find]
    exact evaluate_write (s := .bare reference) hplain
  have hbefore : ∀ d ∈ (content ++ ['\n']).getLast?, d = '\n' := by simp
  have hparse := parse_append_assignment hbefore hother hfeed process base
  rwa [parse_concat_newline, hvalue, List.append_assoc] at hparse

/-! ## Agreement -/

/-- What a child finds under a name, and what a file would find behind its last line. -/
structure Agreement (process base : Bindings) (content : Text) (added : Bindings) : Prop where
  layers : added = base ++ parse process base content
  /-- The child is handed the value that a lookup finds, and none if it finds none, just for the names
  that are layered over the process or that the process does not bind to different values. -/
  child : ∀ name, isName name →
    ((∀ value, Octets.Binds (childEnvironment process added) name value ↔
        (scope process base (parse process base content) name).map Octets.ofText = some value) ↔
      name ∈ added.names ∨ process.taken.Unambiguous name)
  /-- A reference on one more line is replaced by the same value. -/
  reference : ∀ name other reference, isName name → isName other → Refers name reference →
    parse process base (content ++ '\n' :: (other ++ '=' :: reference)) =
      (parse process base content).set other
        ((scope process base (parse process base content) name).getD [])

/-- Behind a file, a lookup and the child agree as far as the process allows. -/
theorem agreement_parse (hbase : base.IsEnvironment) (hne : base ≠ []) (content : Text) :
    Agreement process base content (base ++ parse process base content) where
  layers := rfl
  child := by
    intro name hname
    have hvars := isEnvironment_parse process base content
    have hkeys : ∀ k ∈ (base ++ parse process base content).names, IsKey k := by
      intro k hk
      rw [names_append] at hk
      rcases List.mem_append.mp hk with hk | hk
      · exact hbase.keys k hk
      · exact hvars.keys k hk
    rw [← value?_reverse_eq_scope_iff hbase hvars hname,
      ← (Option.map_injective Octets.ofText_injective).eq_iff, Option.ext_iff]
    apply forall_congr'
    intro value
    rw [binds_childEnvironment hkeys (by simp [hne]) (isKey_of_isName hname)]
  reference := by
    intro name other reference hname hother hrefers
    exact parse_append_reference hrefers hname hother process base content

end Environ
end Caretaker

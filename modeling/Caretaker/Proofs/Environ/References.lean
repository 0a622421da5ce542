import Caretaker.Proofs.Environ.Skeleton

/-!
# References that are written

A reference that is written in a template gives what is looked up under its name, and a default of
it begins behind a colon and a dash. Where the braces of a reference end is a matter of the first
closing brace alone.
-/

namespace Caretaker.Environ

variable {find : Lookup} {name t u : Text}

/-! ## The first closing brace -/

lemma ne_brace_of_not_mem (h : '}' ∉ t) : ∀ c ∈ t, (c != '}') = true := by
  intro c hc
  rw [bne_iff_ne]
  rintro rfl
  exact h hc

lemma braceBody_append_of_not_mem (h : '}' ∉ t) (u : Text) :
    braceBody (t ++ u) = t ++ braceBody u :=
  List.takeWhile_append_of_pos (ne_brace_of_not_mem h)

lemma afterBrace_append_of_not_mem (h : '}' ∉ t) (u : Text) :
    afterBrace (t ++ u) = afterBrace u := by
  unfold afterBrace
  rw [List.dropWhile_append_of_pos (ne_brace_of_not_mem h)]

lemma brace_not_mem_braceBody (u : Text) : '}' ∉ braceBody u := by
  intro hmem
  have hne := List.mem_takeWhile_imp hmem
  exact absurd hne (by decide)

/-- A braced reference ends at its closing brace. -/
lemma expand_closed (h : '}' ∉ t) (u : Text) :
    expand find ('$' :: '{' :: (t ++ '}' :: u)) = bracedValue find t ++ expand find u := by
  have hnone : braceBody ('}' :: u) = [] := rfl
  have hrest : afterBrace ('}' :: u) = u := rfl
  rw [expand_braced, braceBody_append_of_not_mem h, afterBrace_append_of_not_mem h, hnone, hrest,
    List.append_nil]

/-- A braced reference that is not closed ends with the template. -/
lemma expand_unclosed (h : '}' ∉ t) : expand find ('$' :: '{' :: t) = bracedValue find t := by
  have hbody := braceBody_append_of_not_mem h []
  have hafter := afterBrace_append_of_not_mem h []
  have hnone : braceBody [] = [] := rfl
  have hrest : afterBrace [] = [] := rfl
  rw [List.append_nil, hnone, List.append_nil] at hbody
  rw [List.append_nil, hrest] at hafter
  rw [expand_braced, hbody, hafter, expand_nil, List.append_nil]

/-! ## Names and defaults -/

/-- Nor does a name, -/
lemma brace_not_mem_of_isName (h : isName name) : '}' ∉ name :=
  fun hmem => absurd (isNameChar_of_mem h _ hmem) (by decide)

/-- which holds no colon, either. -/
lemma colon_not_mem_of_isName (h : isName name) : ':' ∉ name :=
  fun hmem => absurd (isNameChar_of_mem h _ hmem) (by decide)

lemma brace_not_mem_opening (h : isName name) : '}' ∉ name ++ [':', '-'] := by
  simpa using brace_not_mem_of_isName h

lemma cutDefault_of_not_mem (h : ':' ∉ t) : cutDefault t = (t, none) := by
  fun_induction cutDefault t with
  | case1 => rfl
  | case2 r => exact absurd (List.mem_cons_self ..) h
  | case3 c r _ ih => rw [ih fun hr => h (List.mem_cons_of_mem _ hr)]

/-- A default begins behind the first colon and dash. -/
lemma cutDefault_append (h : ':' ∉ t) (u : Text) :
    cutDefault (t ++ [':', '-'] ++ u) = (t, some u) := by
  induction t with
  | nil => rfl
  | cons c t ih =>
    obtain ⟨hc, ht⟩ := not_or.mp (mt List.mem_cons.mpr h)
    rw [List.cons_append, List.cons_append, cutDefault, ih ht]
    exact fun _ hcolon => absurd hcolon.symm hc

/-- A name in braces has its value, or none, -/
lemma bracedValue_name (h : isName name) :
    bracedValue find name = Skeleton.valueOr (find name) [] := by
  rw [Skeleton.bracedValue_eq, cutDefault_of_not_mem (colon_not_mem_of_isName h)]
  rfl

/-- and one with a default has that one instead. -/
lemma bracedValue_default (h : isName name) (u : Text) :
    bracedValue find (name ++ [':', '-'] ++ u) =
      Skeleton.valueOr (find name) (expand find u) := by
  rw [Skeleton.bracedValue_eq, cutDefault_append (colon_not_mem_of_isName h)]
  rfl

/-- A bare reference ends where no character of a name follows. -/
lemma expand_bare (h : isName name) (hu : ∀ c ∈ u.head?, ¬ isNameChar c) :
    expand find ('$' :: (name ++ u)) = (find name).getD [] ++ expand find u := by
  obtain ⟨c, r, rfl, hc, hall⟩ := exists_cons_of_isName h
  have hr : ∀ d ∈ r, isNameChar d := fun d hd => hall d (List.mem_cons_of_mem _ hd)
  have htake : (r ++ u).takeWhile isNameChar = r := by
    rw [List.takeWhile_append_of_pos hr]
    cases u with
    | nil => simp
    | cons d u => rw [List.takeWhile_cons_of_neg (hu d rfl), List.append_nil]
  have hdrop : (r ++ u).dropWhile isNameChar = u := by
    rw [List.dropWhile_append_of_pos hr]
    cases u with
    | nil => rfl
    | cons d u => exact List.dropWhile_cons_of_neg (hu d rfl)
  show expand find ('$' :: c :: (r ++ u)) = _
  rw [expand_reference hc, htake, hdrop]

end Caretaker.Environ

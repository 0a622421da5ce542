import Caretaker.Environ.Template
import Mathlib.Data.List.TakeWhile

/-!
# Where references end

`expand` reads a template from left to right, so a template that is cut in two is expanded part by
part, unless the cut goes through a reference. A cut behind a bare reference does when the second
part starts with characters of a name.
-/

namespace Caretaker.Environ

variable {find : Lookup} {c : Char} {r t u : Text}

/-! ## One step of the expansion -/

/-- The value of a braced reference, from what stands between its braces. -/
def bracedValue (find : Lookup) (body : Text) : Text :=
  match (find (cutDefault body).1).filter (!·.isEmpty), (cutDefault body).2 with
  | some v, _ => v
  | none, some d => expand find d
  | none, none => []

/-- Whether a character stands for itself in front of some text: it starts no escape and no
reference. -/
def Literal (c : Char) (r : Text) : Prop :=
  (c = '\\' → r.head? ≠ some '$') ∧ (c = '$' → ∀ d ∈ r.head?, d ≠ '{' ∧ ¬ isNameStart d)

/-- A dollar sign stands for itself in front of what starts no reference. -/
lemma literal_dollar (hbrace : c ≠ '{') (hc : ¬ isNameStart c) : Literal '$' (c :: r) := by
  refine ⟨fun hdollar => absurd hdollar (by decide), fun _ d hd => ?_⟩
  obtain rfl : c = d := Option.some.inj hd
  exact ⟨hbrace, hc⟩

/-- A character is a literal if it starts neither an escape nor something with a dollar sign. -/
lemma literal_of_forall (hescape : ∀ r', c = '\\' → r = '$' :: r' → False)
    (hdollar : ∀ d r', c = '$' → r = d :: r' → False) : Literal c r := by
  refine ⟨fun hc hr => ?_, fun hc d hd => ?_⟩
  · obtain ⟨r', rfl⟩ := List.head?_eq_some_iff.mp hr
    exact hescape r' hc rfl
  · obtain ⟨r', rfl⟩ := List.head?_eq_some_iff.mp hd
    exact (hdollar d r' hc rfl).elim

lemma expand_escaped : expand find ('\\' :: '$' :: r) = '$' :: expand find r := by rw [expand]

/-- A braced reference gives the value of its body. -/
lemma expand_braced : expand find ('$' :: '{' :: r) =
    bracedValue find (braceBody r) ++ expand find (afterBrace r) := by
  rw [expand, bracedValue]
  congr 1
  split <;> simp only [*]

lemma isNameStart_brace : ¬ isNameStart '{' := by decide

/-- A bare reference reaches to the end of its name. -/
lemma expand_reference (hc : isNameStart c) : expand find ('$' :: c :: r) =
    (find (c :: r.takeWhile isNameChar)).getD [] ++ expand find (r.dropWhile isNameChar) := by
  rw [expand, if_pos hc]
  rintro rfl
  exact isNameStart_brace hc

lemma expand_literal (h : Literal c r) : expand find (c :: r) = c :: expand find r := by
  by_cases hc : c = '$'
  · subst hc
    cases r with
    | nil =>
      exact expand.eq_5 find '$' [] (fun _ _ hnil => by cases hnil) (fun _ _ hnil => by cases hnil)
        (fun _ _ _ hnil => by cases hnil)
    | cons d r =>
      obtain ⟨hd, hstart⟩ := h.2 rfl d rfl
      rw [expand, if_neg hstart]
      exact fun hbrace => hd hbrace
  · rw [expand]
    · rintro r' rfl rfl
      exact h.1 rfl rfl
    · exact fun r' hdollar _ => hc hdollar
    · exact fun d r' hdollar _ => hc hdollar

/-- A template is read as an escape, a reference or a literal, and then the rest of it. -/
@[elab_as_elim]
lemma template_induction {P : Text → Prop} (nil : P [])
    (escaped : ∀ r, P r → P ('\\' :: '$' :: r))
    (braced : ∀ r, P (afterBrace r) → P ('$' :: '{' :: r))
    (reference : ∀ c r, isNameStart c → P (r.dropWhile isNameChar) → P ('$' :: c :: r))
    (literal : ∀ c r, Literal c r → P r → P (c :: r)) (t : Text) : P t := by
  induction t using expand.induct (fun _ => none) with
  | case1 => exact nil
  | case2 r ih => exact escaped r ih
  | case3 r _ _ ih => exact braced r ih
  | case4 c r _ hc ih => exact reference c r hc ih
  | case5 c r hbrace hc ih => exact literal '$' (c :: r) (literal_dollar hbrace hc) ih
  | case6 c r hescape _ hdollar ih => exact literal c r (literal_of_forall hescape hdollar) ih

/-! ## Bare references at the end -/

/-- Whether a template ends in a bare reference, which goes on if characters of a name follow. -/
def endsInReference : Text → Bool
  | [] => false
  | '\\' :: '$' :: r => endsInReference r
  | '$' :: '{' :: r => endsInReference (afterBrace r)
  | '$' :: c :: r =>
    if isNameStart c then
      (r.dropWhile isNameChar).isEmpty || endsInReference (r.dropWhile isNameChar)
    else endsInReference (c :: r)
  | _ :: r => endsInReference r
termination_by t => t.length
decreasing_by
  all_goals simp only [List.length_cons]
  · omega
  · have := length_afterBrace_le r
    omega
  · have := (List.dropWhile_sublist (l := r) isNameChar).length_le
    omega
  · omega
  · omega

lemma endsInReference_reference (hc : isNameStart c) : endsInReference ('$' :: c :: r) =
    ((r.dropWhile isNameChar).isEmpty || endsInReference (r.dropWhile isNameChar)) := by
  rw [endsInReference, if_pos hc]
  rintro rfl
  exact isNameStart_brace hc

lemma endsInReference_literal (h : Literal c r) :
    endsInReference (c :: r) = endsInReference r := by
  by_cases hc : c = '$'
  · subst hc
    cases r with
    | nil =>
      exact endsInReference.eq_5 '$' [] (fun _ _ hnil => by cases hnil)
        (fun _ _ hnil => by cases hnil) (fun _ _ _ hnil => by cases hnil)
    | cons d r =>
      obtain ⟨hd, hstart⟩ := h.2 rfl d rfl
      rw [endsInReference, if_neg hstart]
      exact fun hbrace => hd hbrace
  · rw [endsInReference]
    · rintro r' rfl rfl
      exact h.1 rfl rfl
    · exact fun r' hdollar _ => hc hdollar
    · exact fun d r' hdollar _ => hc hdollar

/-- A template in which nothing but a bare reference can reach beyond the end: its last character
is neither a backslash nor a dollar sign, and every brace that a dollar sign opens is closed. -/
structure Whole (t : Text) : Prop where
  backslash : t.getLast? ≠ some '\\'
  dollar : t.getLast? ≠ some '$'
  brace : ∀ r, '$' :: '{' :: r <:+ t → '}' ∈ r

/-- A template is whole if it opens no brace and does not end in the beginning of something. -/
lemma whole_of_not_mem (hbackslash : t.getLast? ≠ some '\\') (hdollar : t.getLast? ≠ some '$')
    (hbrace : '{' ∉ t) : Whole t where
  backslash := hbackslash
  dollar := hdollar
  brace _ hr := absurd (hr.subset (List.mem_cons_of_mem _ (List.mem_cons_self ..))) hbrace

/-- The end of a whole template is whole. -/
lemma Whole.of_suffix (h : Whole t) (hu : u <:+ t) : Whole u := by
  obtain ⟨s, rfl⟩ := hu
  refine ⟨fun hlast => h.backslash ?_, fun hlast => h.dollar ?_, fun r hr => h.brace r ?_⟩
  · rw [List.getLast?_append, hlast]
    rfl
  · rw [List.getLast?_append, hlast]
    rfl
  · exact hr.trans (List.suffix_append s u)

lemma afterBrace_suffix (r : Text) : afterBrace r <:+ r :=
  (List.drop_suffix _ _).trans (List.dropWhile_suffix _)

lemma takeWhile_append_of_dropWhile {p : Char → Bool} (h : r.dropWhile p ≠ []) :
    (r ++ u).takeWhile p = r.takeWhile p := by
  rw [List.takeWhile_append, if_neg]
  intro hlength
  have hsum := congrArg List.length (List.takeWhile_append_dropWhile (p := p) (l := r))
  rw [List.length_append] at hsum
  exact h (List.eq_nil_of_length_eq_zero (by omega))

lemma dropWhile_append_of_dropWhile {p : Char → Bool} (h : r.dropWhile p ≠ []) :
    (r ++ u).dropWhile p = r.dropWhile p ++ u := by
  rw [List.dropWhile_append, if_neg (by simpa using h)]

lemma dropWhile_brace_ne_nil (h : '}' ∈ r) : r.dropWhile (· != '}') ≠ [] := by
  intro hnil
  have hall := List.dropWhile_eq_nil_iff.mp hnil _ h
  simp at hall

/-- A body that is closed does not depend on what follows, -/
lemma braceBody_append (h : '}' ∈ r) : braceBody (r ++ u) = braceBody r :=
  takeWhile_append_of_dropWhile (dropWhile_brace_ne_nil h)

/-- which comes behind what has followed its brace already. -/
lemma afterBrace_append (h : '}' ∈ r) : afterBrace (r ++ u) = afterBrace r ++ u := by
  have hne := dropWhile_brace_ne_nil h
  rw [afterBrace, afterBrace, dropWhile_append_of_dropWhile hne]
  cases hr : r.dropWhile (· != '}') with
  | nil => exact absurd hr hne
  | cons c s => rfl

/-- A literal of a whole template stays one in front of more text. -/
lemma Literal.append (h : Literal c r) (ht : Whole (c :: r)) : Literal c (r ++ u) := by
  cases r with
  -- the last character of a whole template is neither a backslash nor a dollar sign
  | nil => exact ⟨fun hc => absurd (congrArg some hc) ht.backslash,
      fun hc => absurd (congrArg some hc) ht.dollar⟩
  | cons d r => exact h

/-- A bare reference at the end reaches for the characters of a name that follow. -/
lemma exists_front (ht : Whole t) (h : endsInReference t) :
    ∃ (front : Lookup → Text) (name : Text), ∀ find u, expand find (t ++ u) =
      front find ++ (find (name ++ u.takeWhile isNameChar)).getD [] ++
        expand find (u.dropWhile isNameChar) := by
  induction t using template_induction with
  | nil =>
    rw [endsInReference] at h
    cases h
  | escaped r ih =>
    rw [endsInReference] at h
    obtain ⟨front, name, hfront⟩ := ih (ht.of_suffix ⟨['\\', '$'], rfl⟩) h
    refine ⟨fun find => '$' :: front find, name, fun find u => ?_⟩
    show expand find ('\\' :: '$' :: (r ++ u)) = _
    rw [expand_escaped, hfront]
    rfl
  | braced r ih =>
    rw [endsInReference] at h
    have hclosed := ht.brace r List.suffix_rfl
    obtain ⟨front, name, hfront⟩ :=
      ih (ht.of_suffix ((afterBrace_suffix r).trans ⟨['$', '{'], rfl⟩)) h
    refine ⟨fun find => bracedValue find (braceBody r) ++ front find, name, fun find u => ?_⟩
    show expand find ('$' :: '{' :: (r ++ u)) = _
    rw [expand_braced, braceBody_append hclosed, afterBrace_append hclosed, hfront]
    simp only [List.append_assoc]
  | reference c r hc ih =>
    rw [endsInReference_reference hc] at h
    by_cases hr : r.dropWhile isNameChar = []
    -- the name fills the rest of the template: this is the reference at the end
    · have hall : ∀ d ∈ r, isNameChar d := List.dropWhile_eq_nil_iff.mp hr
      refine ⟨fun _ => [], c :: r, fun find u => ?_⟩
      show expand find ('$' :: c :: (r ++ u)) = _
      rw [expand_reference hc, List.takeWhile_append_of_pos hall, List.dropWhile_append_of_pos hall]
      rfl
    · have hrest : endsInReference (r.dropWhile isNameChar) := by simpa [hr] using h
      obtain ⟨front, name, hfront⟩ :=
        ih (ht.of_suffix ((List.dropWhile_suffix _).trans ⟨['$', c], rfl⟩)) hrest
      refine ⟨fun find => (find (c :: r.takeWhile isNameChar)).getD [] ++ front find, name,
        fun find u => ?_⟩
      show expand find ('$' :: c :: (r ++ u)) = _
      rw [expand_reference hc, takeWhile_append_of_dropWhile hr, dropWhile_append_of_dropWhile hr,
        hfront]
      simp only [List.append_assoc]
  | literal c r hlit ih =>
    rw [endsInReference_literal hlit] at h
    obtain ⟨front, name, hfront⟩ := ih (ht.of_suffix (List.suffix_cons _ _)) h
    refine ⟨fun find => c :: front find, name, fun find u => ?_⟩
    show expand find (c :: (r ++ u)) = _
    rw [expand_literal (hlit.append ht), hfront]
    rfl

/-- Nothing else at the end of a whole template reaches for what follows. -/
lemma expand_append_of_not_reference (ht : Whole t) (h : ¬ endsInReference t) (find : Lookup)
    (u : Text) : expand find (t ++ u) = expand find t ++ expand find u := by
  induction t using template_induction with
  | nil => rw [expand_nil, List.nil_append, List.nil_append]
  | escaped r ih =>
    rw [endsInReference] at h
    have hr := ih (ht.of_suffix ⟨['\\', '$'], rfl⟩) h
    show expand find ('\\' :: '$' :: (r ++ u)) = _
    rw [expand_escaped, expand_escaped, hr]
    rfl
  | braced r ih =>
    rw [endsInReference] at h
    have hclosed := ht.brace r List.suffix_rfl
    have hr := ih (ht.of_suffix ((afterBrace_suffix r).trans ⟨['$', '{'], rfl⟩)) h
    show expand find ('$' :: '{' :: (r ++ u)) = _
    rw [expand_braced, expand_braced, braceBody_append hclosed, afterBrace_append hclosed, hr,
      List.append_assoc]
  | reference c r hc ih =>
    rw [endsInReference_reference hc, Bool.or_eq_true, not_or, List.isEmpty_iff] at h
    have hr := ih (ht.of_suffix ((List.dropWhile_suffix _).trans ⟨['$', c], rfl⟩)) h.2
    show expand find ('$' :: c :: (r ++ u)) = _
    rw [expand_reference hc, expand_reference hc, takeWhile_append_of_dropWhile h.1,
      dropWhile_append_of_dropWhile h.1, hr, List.append_assoc]
  | literal c r hlit ih =>
    rw [endsInReference_literal hlit] at h
    show expand find (c :: (r ++ u)) = _
    rw [expand_literal (hlit.append ht), expand_literal hlit,
      ih (ht.of_suffix (List.suffix_cons _ _)) h]
    rfl

/-- A whole template is expanded by itself, unless characters of a name follow a bare reference at
its end. -/
theorem expand_append (ht : Whole t) (h : endsInReference t → ∀ c ∈ u.head?, ¬ isNameChar c)
    (find : Lookup) : expand find (t ++ u) = expand find t ++ expand find u := by
  by_cases href : endsInReference t
  · obtain ⟨front, name, hfront⟩ := exists_front ht href
    have htake : u.takeWhile isNameChar = [] := by
      cases u with
      | nil => rfl
      | cons c u => exact List.takeWhile_cons_of_neg (h href c rfl)
    have hdrop : u.dropWhile isNameChar = u := by
      cases u with
      | nil => rfl
      | cons c u => exact List.dropWhile_cons_of_neg (h href c rfl)
    -- the front is the same in front of nothing and in front of `u`
    have hend := hfront find []
    simp only [List.append_nil, List.takeWhile_nil, List.dropWhile_nil, expand_nil] at hend
    rw [hfront, hend, htake, hdrop, List.append_nil]
  · exact expand_append_of_not_reference ht href find u

/-! ## Nothing to put in -/

lemma literal_of_isNameChar (hc : isNameChar c) : Literal c r := by
  constructor
  · rintro rfl
    exact absurd hc (by decide)
  · rintro rfl
    exact absurd hc (by decide)

/-- The characters of a name in front of a template are literals. -/
lemma expand_eq_takeWhile_append (find : Lookup) (u : Text) :
    expand find u = u.takeWhile isNameChar ++ expand find (u.dropWhile isNameChar) := by
  induction u with
  | nil => rfl
  | cons c u ih =>
    by_cases hc : isNameChar c
    · rw [List.takeWhile_cons_of_pos hc, List.dropWhile_cons_of_pos hc,
        expand_literal (literal_of_isNameChar hc), ih]
      rfl
    · rw [List.takeWhile_cons_of_neg hc, List.dropWhile_cons_of_neg hc, List.nil_append]

/-- Where no name has a value, a bare reference at the end takes away what it reaches. -/
theorem length_expand_append (ht : Whole t) (h : endsInReference t) (u : Text) :
    (expand (fun _ => none) (t ++ u)).length + (u.takeWhile isNameChar).length =
      (expand (fun _ => none) t).length + (expand (fun _ => none) u).length := by
  obtain ⟨front, name, hfront⟩ := exists_front ht h
  have hend := hfront (fun _ => none) []
  simp only [List.append_nil, List.dropWhile_nil, expand_nil] at hend
  rw [hfront, hend, expand_eq_takeWhile_append _ u]
  simp only [Option.getD_none, List.append_nil, List.length_append]
  omega

end Caretaker.Environ

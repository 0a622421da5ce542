import Caretaker.Proofs.Environ.Assignments
import Caretaker.Proofs.Environ.Expansion

/-!
# Comments behind values

Blanks and a comment behind a value end it wherever its quotes are closed, so they change nothing
about it. But the blanks around a value are trimmed before it is read: where nothing is written in
front of a comment, the blank that makes it a comment is gone, and its text becomes the value.
-/

namespace Caretaker.Environ

open Text (isBlank trim trimStart trimEnd)

variable {q : Quote} {held name u v w c : Text}

/-! ## Quotes that are closed -/

/-- The quotes that stand open behind a text, from those that stand open in front of it. -/
def Quote.behind : Quote → Text → Quote
  | q, [] => q
  | .bare, c :: r => behind (if c = '\'' then .single else if c = '"' then .double else .bare) r
  | .single, c :: r => behind (if c = '\'' then .bare else .single) r
  | .double, '\\' :: '"' :: r => behind .double r
  | .double, c :: r => behind (if c = '"' then .bare else .double) r

/-- Whether each quote of a text is closed in it. -/
def Balanced (v : Text) : Prop := Quote.bare.behind v = .bare

instance (v : Text) : Decidable (Balanced v) := inferInstanceAs (Decidable (_ = _))

lemma ne_of_isBlank {d e : Char} (hd : isBlank d) (he : ¬ isBlank e) : d ≠ e :=
  fun heq => he (heq ▸ hd)

/-- A blank opens no quotes and closes none. -/
lemma behind_blank {d : Char} (hd : isBlank d) (q : Quote) (r : Text) :
    q.behind (d :: r) = q.behind r := by
  have hsingle : d ≠ '\'' := ne_of_isBlank hd (by decide)
  have hdouble : d ≠ '"' := ne_of_isBlank hd (by decide)
  cases q with
  | bare => rw [Quote.behind, if_neg hsingle, if_neg hdouble]
  | single => rw [Quote.behind, if_neg hsingle]
  | double =>
    rw [Quote.behind, if_neg hdouble]
    exact fun _ hescape _ => ne_of_isBlank hd (by decide) hescape

lemma behind_blanks (hu : ∀ d ∈ u, isBlank d) : q.behind u = q := by
  induction u with
  | nil => rw [Quote.behind]
  | cons d u ih =>
    rw [behind_blank (hu d (List.mem_cons_self ..))]
    exact ih fun e he => hu e (List.mem_cons_of_mem d he)

lemma behind_trimStart (q : Quote) (v : Text) : q.behind (trimStart v) = q.behind v := by
  unfold Text.trimStart
  induction v with
  | nil => rfl
  | cons d v ih =>
    by_cases hd : isBlank d
    · rw [List.dropWhile_cons_of_pos hd, behind_blank hd, ih]
    · rw [List.dropWhile_cons_of_neg hd]

/-- A backslash at the end of a text escapes nothing in front of a blank. -/
lemma not_escape_append {d : Char} {r : Text} (hu : ∀ e ∈ u.head?, isBlank e)
    (h : ∀ r', d = '\\' → r = '"' :: r' → False) :
    ∀ r', d = '\\' → r ++ u = '"' :: r' → False := by
  intro r' hd hr
  cases r with
  | nil =>
    have hquote : isBlank '"' := hu '"' (by rw [← List.nil_append u, hr]; rfl)
    exact absurd hquote (by decide)
  | cons e r => exact h r hd (by rw [(List.cons.inj hr).1])

lemma behind_append_blanks (q : Quote) (v : Text) (hu : ∀ d ∈ u, isBlank d) :
    q.behind (v ++ u) = q.behind v := by
  have hhead : ∀ d ∈ u.head?, isBlank d := fun d hd => hu d (List.mem_of_mem_head? hd)
  fun_induction Quote.behind q v with
  | case1 q => exact behind_blanks hu
  | case2 c r ih => rw [List.cons_append, Quote.behind, ih]
  | case3 c r ih => rw [List.cons_append, Quote.behind, ih]
  | case4 r ih =>
    show Quote.double.behind ('\\' :: '"' :: (r ++ u)) = _
    rw [Quote.behind, ih]
  | case5 c r hescape ih =>
    rw [List.cons_append, Quote.behind, ih]
    exact not_escape_append hhead hescape

/-- Trimming leaves the quotes of a text as they are. -/
lemma Balanced.trim (hv : Balanced v) : Balanced (Text.trim v) := by
  obtain ⟨blanks, hblanks, hall⟩ := Text.exists_trimEnd_append (trimStart v)
  unfold Balanced Text.trim
  rw [← behind_append_blanks _ _ hall, ← hblanks, behind_trimStart, hv]

/-! ## Ends of values -/

/-- Whether a text ends a value that it follows unquoted: it is made of blanks, or of blanks and
then a comment. -/
structure Ends (u : Text) : Prop where
  ends : endsValue u
  blank : ∀ d ∈ u.head?, isBlank d

lemma endsValue_blank {d : Char} (hd : isBlank d) (r : Text) :
    endsValue (d :: r) = endsValue r := by
  unfold endsValue
  rw [List.dropWhile_cons_of_pos hd]

lemma Ends.unquote_eq (hu : Ends u) (held : Text) : unquote .bare held u = [.template held] := by
  cases u with
  | nil => exact unquote_bare_nil
  | cons d r =>
    have hd : isBlank d := hu.blank d rfl
    have hr : endsValue r := by rw [← endsValue_blank hd, hu.ends]
    have hsingle : d ≠ '\'' := ne_of_isBlank hd (by decide)
    have hdouble : d ≠ '"' := ne_of_isBlank hd (by decide)
    rw [unquote, if_neg hsingle, if_neg hdouble, if_pos (by simp [hd, hr])]

lemma Ends.endsValue_append (hu : Ends u) (r : Text) : endsValue (r ++ u) = endsValue r := by
  have hends := hu.ends
  unfold endsValue at hends ⊢
  rw [List.dropWhile_append]
  split_ifs with hall
  · have hnil : r.dropWhile isBlank = [] := by simpa using hall
    rw [hnil, hends]
  · cases hr : r.dropWhile isBlank with
    | nil => simp [hr] at hall
    | cons d r' => rfl

/-- Behind closed quotes a value ends, or it has ended before. -/
lemma Ends.unquote_append (hu : Ends u) (hq : q.behind v = .bare) :
    unquote q held (v ++ u) = unquote q held v := by
  -- the quotes that stand open go along, so that none do where the text runs out
  fun_induction unquote q held v with
  | case1 held => exact hu.unquote_eq held
  | case2 held r ih =>
    rw [Quote.behind, if_pos rfl] at hq
    rw [List.cons_append, unquote, if_pos rfl, ih hq]
  | case3 held r hsingle ih =>
    rw [Quote.behind, if_neg hsingle, if_pos rfl] at hq
    rw [List.cons_append, unquote, if_neg hsingle, if_pos rfl, ih hq]
  | case4 held c r hsingle hdouble hend =>
    rw [List.cons_append, unquote, if_neg hsingle, if_neg hdouble, hu.endsValue_append, if_pos hend]
  | case5 held c r hsingle hdouble hgo ih =>
    rw [Quote.behind, if_neg hsingle, if_neg hdouble] at hq
    rw [List.cons_append, unquote, if_neg hsingle, if_neg hdouble, hu.endsValue_append, if_neg hgo,
      ih hq]
  | case6 held => cases hq
  | case7 held r ih =>
    rw [Quote.behind, if_pos rfl] at hq
    rw [List.cons_append, unquote, if_pos rfl, ih hq]
  | case8 held c r hsingle ih =>
    rw [Quote.behind, if_neg hsingle] at hq
    rw [List.cons_append, unquote, if_neg hsingle, ih hq]
  | case9 held => cases hq
  | case10 held r ih =>
    rw [Quote.behind] at hq
    show unquote .double held ('\\' :: '"' :: (r ++ u)) = _
    rw [unquote, ih hq]
  | case11 held r hescape ih =>
    rw [Quote.behind, if_pos rfl] at hq
    · rw [List.cons_append, unquote, if_pos rfl, ih hq]
      exact not_escape_append hu.blank hescape
    · exact hescape
  | case12 held c r hescape hdouble ih =>
    rw [Quote.behind, if_neg hdouble] at hq
    · rw [List.cons_append, unquote, if_neg hdouble, ih hq]
      exact not_escape_append hu.blank hescape
    · exact hescape

/-- What ends a value does not change it. -/
theorem Ends.evaluate_append (hu : Ends u) (hv : Balanced v) (find : Lookup) :
    evaluate find (v ++ u) = evaluate find v := by
  unfold evaluate pieces
  rw [hu.unquote_append hv]

lemma ends_comment (hw : w ≠ []) (hblank : ∀ d ∈ w, isBlank d) (c : Text) :
    Ends (w ++ '#' :: c) where
  ends := by
    have hstop : ('#' :: c).dropWhile isBlank = '#' :: c := List.dropWhile_cons_of_neg (by decide)
    unfold endsValue
    rw [List.dropWhile_append_of_pos hblank, hstop]
    rfl
  blank := by
    cases w with
    | nil => exact absurd rfl hw
    | cons d w =>
      intro e he
      obtain rfl : d = e := Option.some.inj he
      exact hblank d (List.mem_cons_self ..)

/-! ## Comments -/

/-- A comment behind blanks is trimmed at its end only, as soon as there is something in front. -/
lemma exists_trim_comment (hv : ∃ d ∈ v, ¬ isBlank d) (w c : Text) : ∃ blanks,
    trim (v ++ (w ++ '#' :: c)) = trim v ++ (blanks ++ w ++ '#' :: trimEnd c) ∧
      ∀ d ∈ blanks, isBlank d := by
  have hne : v.dropWhile isBlank ≠ [] := by
    intro hnil
    obtain ⟨d, hd, hblank⟩ := hv
    exact hblank (List.dropWhile_eq_nil_iff.mp hnil d hd)
  obtain ⟨blanks, hblanks, hall⟩ := Text.exists_trimEnd_append (v.dropWhile isBlank)
  refine ⟨blanks, ?_, hall⟩
  unfold Text.trim Text.trimStart
  rw [dropWhile_append_of_dropWhile hne, ← List.append_assoc,
    Text.trimEnd_append_cons _ _ (by decide)]
  conv_lhs => rw [hblanks]
  simp only [List.append_assoc]

/-- Where there is nothing in front, the text of a comment is all that is left. -/
lemma trim_comment_of_blank (hv : ∀ d ∈ v, isBlank d) (hw : ∀ d ∈ w, isBlank d) (c : Text) :
    trim (v ++ (w ++ '#' :: c)) = '#' :: trimEnd c := by
  have hstop : ('#' :: c).dropWhile isBlank = '#' :: c := List.dropWhile_cons_of_neg (by decide)
  unfold Text.trim Text.trimStart
  rw [List.dropWhile_append_of_pos hv, List.dropWhile_append_of_pos hw, hstop,
    Text.trimEnd_cons c (by decide)]

/-- Outside single quotes, what a value goes on with is held before anything else. -/
lemma exists_unquote_eq (hq : q ≠ .single) (held v : Text) :
    ∃ t rest, unquote q held v = .template (held ++ t) :: rest := by
  fun_induction unquote q held v with
  -- the value ends here
  | case1 | case4 | case9 => exact ⟨[], [], by rw [List.append_nil]⟩
  | case2 held r ih => exact ⟨[], _, by rw [List.append_nil]⟩
  -- double quotes open or close, and what is held stays
  | case3 held r hsingle ih => exact ih nofun
  | case11 held r hescape ih => exact ih nofun
  -- one more character is held
  | case5 held c r hsingle hdouble hgo ih =>
    obtain ⟨t, rest, h⟩ := ih hq
    exact ⟨c :: t, rest, by rw [h, List.append_assoc]; rfl⟩
  | case10 held r ih =>
    obtain ⟨t, rest, h⟩ := ih hq
    exact ⟨'"' :: t, rest, by rw [h, List.append_assoc]; rfl⟩
  | case12 held c r hescape hdouble ih =>
    obtain ⟨t, rest, h⟩ := ih hq
    exact ⟨c :: t, rest, by rw [h, List.append_assoc]; rfl⟩
  | case6 | case7 | case8 => exact absurd rfl hq

/-- A value that starts like a comment is not empty. -/
lemma evaluate_hash_ne_nil (find : Lookup) (r : Text) : evaluate find ('#' :: r) ≠ [] := by
  obtain ⟨t, rest, hpieces⟩ := exists_unquote_eq (q := .bare) nofun ['#'] r
  have hhash : Literal '#' t := ⟨fun h => absurd h (by decide), fun h => absurd h (by decide)⟩
  have hfirst : unquote .bare [] ('#' :: r) = unquote .bare ['#'] r := by
    rw [unquote, if_neg (by decide), if_neg (by decide), if_neg (by simp [isBlank])]
    rfl
  unfold evaluate pieces
  rw [hfirst, hpieces, List.flatMap_cons]
  show expand find ('#' :: t) ++ _ ≠ []
  rw [expand_literal hhash]
  exact List.cons_ne_nil _ _

lemma evaluate_nil (find : Lookup) : evaluate find [] = [] := by
  simp [evaluate, pieces, unquote_bare_nil, Piece.value, expand_nil]

/-- A comment behind blanks leaves a value as it is exactly if there is something in front of it. -/
theorem evaluate_comment_iff (hv : Balanced v) (hw : w ≠ []) (hblank : ∀ d ∈ w, isBlank d)
    (c : Text) (find : Lookup) :
    evaluate find (trim (v ++ (w ++ '#' :: c))) = evaluate find (trim v) ↔
      ∃ d ∈ v, ¬ isBlank d := by
  constructor
  · intro heq
    by_contra hnone
    have hall : ∀ d ∈ v, isBlank d := fun d hd => by_contra fun hd' => hnone ⟨d, hd, hd'⟩
    have htrim : trim v = [] := by
      unfold Text.trim
      rw [Text.trimStart_eq_nil_iff.mpr hall]
      rfl
    -- with the blanks in front trimmed away, the mark is a character like any other
    rw [trim_comment_of_blank hall hblank, htrim, evaluate_nil] at heq
    exact evaluate_hash_ne_nil find _ heq
  · intro hsome
    obtain ⟨blanks, htrim, hblanks⟩ := exists_trim_comment hsome w c
    have hends : Ends (blanks ++ w ++ '#' :: trimEnd c) := by
      refine ends_comment (by simp [hw]) (fun d hd => ?_) _
      exact (List.mem_append.mp hd).elim (hblanks d) (hblank d)
    rw [htrim, hends.evaluate_append hv.trim]

/-! ## Lines with comments -/

/-- Behind a line `NAME=value` a comment leaves the value of the name as it is, wherever the line
stands and whatever the references in it find, exactly if the value is not blank. -/
theorem value?_comment_iff (before : Text) (hbefore : ∀ d ∈ before.getLast?, d = '\n')
    (hname : isName name) (hv : '\n' ∉ v) (hbalanced : Balanced v)
    (hw : w ≠ []) (hblank : ∀ d ∈ w, isBlank d) (hwline : '\n' ∉ w) (hc : '\n' ∉ c)
    (process base : Bindings) :
    (parse process base (before ++ (name ++ '=' :: (v ++ (w ++ '#' :: c))))).value? name =
      (parse process base (before ++ (name ++ '=' :: v))).value? name ↔
    ∃ d ∈ v, ¬ isBlank d := by
  have hline : '\n' ∉ v ++ (w ++ '#' :: c) := by
    simp only [List.mem_append, List.mem_cons, not_or]
    exact ⟨hv, hwline, by decide, hc⟩
  rw [parse_append_assignment hbefore hname hline, parse_append_assignment hbefore hname hv,
    Bindings.value?_set, Bindings.value?_set, if_pos rfl, if_pos rfl, Option.some.injEq]
  exact evaluate_comment_iff hbalanced hw hblank c _

/-- Behind `"x # y"` a comment is dropped; where there is nothing else, its text is the value. -/
theorem value?_comment_alone :
    Balanced "\"x # y\"".toList ∧
    (parse [] [] "A=\"x # y\" # it's".toList).value? "A".toList =
      (parse [] [] "A=\"x # y\"".toList).value? "A".toList ∧
    (parse [] [] "B=1\nA= # note".toList).value? "A".toList ≠
      (parse [] [] "B=1\nA=".toList).value? "A".toList := by
  have hname : isName "A".toList := by decide
  have hbalanced : Balanced "\"x # y\"".toList := by decide
  have hblank : ∀ d ∈ [' '], isBlank d := List.forall_mem_singleton.mpr (by decide)
  refine ⟨hbalanced, ?_, ?_⟩
  · exact (value?_comment_iff [] (w := [' ']) (c := " it's".toList) (by simp) hname (by decide)
      hbalanced (by decide) hblank (by decide) (by decide) [] []).mpr ⟨'x', by decide, by decide⟩
  · intro heq
    obtain ⟨d, hd, -⟩ := (value?_comment_iff "B=1\n".toList (v := []) (w := [' '])
      (c := " note".toList) (by simp) hname (by decide) (by decide) (by decide) hblank (by decide)
      (by decide) [] []).mp heq
    exact absurd hd List.not_mem_nil

end Caretaker.Environ

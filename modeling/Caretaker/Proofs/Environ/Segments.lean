import Caretaker.Environ.File
import Caretaker.Proofs.Environ.Expansion
import Mathlib

/-!
# Values written in segments

A value is written as a sequence of single-quoted, double-quoted and bare segments. Quotes end
nothing but the quoting: the templates of neighbouring segments are expanded as one, so a bare
reference at the end of a segment goes on into the next one. Where none does, a value is what its
segments give one after the other.
-/

namespace Caretaker.Environ

/-! ## Segments -/

/-- A stretch of a value, with its quotes and the text between them. -/
inductive Segment where
  | single (t : Text)
  | double (t : Text)
  | bare (t : Text)
deriving DecidableEq, Repr

/-- Put a backslash in front of each double quote. -/
def escapeQuotes (t : Text) : Text := t.flatMap fun c => if c = '"' then ['\\', '"'] else [c]

namespace Segment

/-- How a segment is written. -/
def write : Segment → Text
  | single t => '\'' :: (t ++ ['\''])
  | double t => '"' :: (escapeQuotes t ++ ['"'])
  | bare t => t

/-- What a segment says when its quotes have been removed. -/
def piece : Segment → Piece
  | single t => .verbatim t
  | double t => .template t
  | bare t => .template t

/-- Whether a segment can be written by itself: the text has only characters that the quotes admit,
and, where it is a template, it is a whole one. -/
def WellFormed : Segment → Prop
  | single t => '\'' ∉ t
  | double t => Whole t
  | bare t => Whole t ∧ ∀ c ∈ t, ¬ Text.isBlank c ∧ c ≠ '\'' ∧ c ≠ '"'

/-- Whether the quotes of a segment end where it ends. -/
def Admitted : Segment → Prop
  | single t => '\'' ∉ t
  | double t => t.getLast? ≠ some '\\'
  | bare t => ∀ c ∈ t, ¬ Text.isBlank c ∧ c ≠ '\'' ∧ c ≠ '"'

lemma WellFormed.admitted {s : Segment} (hs : s.WellFormed) : s.Admitted := by
  cases s with
  | single t => exact hs
  | double t => exact hs.backslash
  | bare t => exact hs.2

end Segment

/-- A value written in segments. -/
def writeAll (segments : List Segment) : Text := segments.flatMap Segment.write

/-- The template that a value starts with when its quotes have been removed. -/
def leading : List Segment → Text
  | [] => []
  | s :: r =>
    match s.piece with
    | .verbatim _ => []
    | .template t => t ++ leading r

/-- The pieces of a value behind the template that it starts with. -/
def behind : List Segment → List Piece
  | [] => []
  | s :: r =>
    match s.piece with
    | .verbatim t => .verbatim t :: .template (leading r) :: behind r
    | .template _ => behind r

/-! ## Removing the quotes -/

variable {held t u : Text} {s : Segment} {segments : List Segment}

/-- Between single quotes each character stands for itself. -/
lemma unquote_single (ht : '\'' ∉ t) : unquote .single held (t ++ '\'' :: u) =
    .verbatim (held ++ t) :: unquote .bare [] u := by
  induction t generalizing held with
  | nil => simp [unquote]
  | cons c t ih =>
    obtain ⟨hc, ht⟩ := not_or.mp (mt List.mem_cons.mpr ht)
    rw [List.cons_append, unquote, if_neg (Ne.symm hc), ih ht, List.append_assoc]
    rfl

lemma escapeQuotes_cons (c : Char) (t : Text) : escapeQuotes (c :: t) =
    (if c = '"' then ['\\', '"'] else [c]) ++ escapeQuotes t := List.flatMap_cons

/-- No escaped text starts with a double quote. -/
lemma head?_escapeQuotes_cons (c : Char) (t u : Text) :
    (escapeQuotes (c :: t) ++ u).head? ≠ some '"' := by
  rw [escapeQuotes_cons]
  split_ifs with hc
  · exact fun h => absurd (Option.some.inj h) (by decide)
  · exact fun h => hc (Option.some.inj h)

/-- Between double quotes a template goes on, and escaped quotes are taken into it. -/
lemma unquote_double (ht : t.getLast? ≠ some '\\') :
    unquote .double held (escapeQuotes t ++ '"' :: u) = unquote .bare (held ++ t) u := by
  induction t generalizing held with
  | nil =>
    rw [List.append_nil]
    rfl
  | cons c t ih =>
    have hlast : t.getLast? ≠ some '\\' := by
      cases t with
      | nil => exact nofun
      | cons d t => exact ht
    rw [escapeQuotes_cons]
    split_ifs with hc
    · rw [hc, List.append_assoc, List.cons_append, List.cons_append, List.nil_append, unquote,
        ih hlast, List.append_assoc]
      rfl
    · rw [List.append_assoc, List.cons_append, List.nil_append, unquote, if_neg hc, ih hlast,
        List.append_assoc]
      · rfl
      -- a backslash escapes only a double quote, and none can follow here
      · rintro r rfl hr
        cases t with
        | nil => exact ht rfl
        | cons d t => exact head?_escapeQuotes_cons d t ('"' :: u) (by rw [hr]; rfl)

/-- Outside quotes a template goes on up to a blank or a quote. -/
lemma unquote_bare (ht : ∀ c ∈ t, ¬ Text.isBlank c ∧ c ≠ '\'' ∧ c ≠ '"') :
    unquote .bare held (t ++ u) = unquote .bare (held ++ t) u := by
  induction t generalizing held with
  | nil => simp
  | cons c t ih =>
    obtain ⟨hblank, hsingle, hdouble⟩ := ht c (List.mem_cons_self ..)
    rw [List.cons_append, unquote, if_neg hsingle, if_neg hdouble,
      if_neg (by simp [hblank]), ih fun d hd => ht d (List.mem_cons_of_mem _ hd), List.append_assoc]
    rfl

/-- A verbatim segment ends the template that is held, -/
lemma unquote_write_of_verbatim (hs : s.Admitted) (hpiece : s.piece = .verbatim t) :
    unquote .bare held (s.write ++ u) =
      .template held :: .verbatim t :: unquote .bare [] u := by
  cases s with
  | single t' =>
    obtain rfl : t' = t := Piece.verbatim.inj hpiece
    rw [Segment.write, List.cons_append, List.append_assoc, unquote, if_pos rfl]
    exact congrArg _ (unquote_single hs)
  | double _ => cases hpiece
  | bare _ => cases hpiece

/-- and a segment that is a template goes on with it. -/
lemma unquote_write_of_template (hs : s.Admitted) (hpiece : s.piece = .template t) :
    unquote .bare held (s.write ++ u) = unquote .bare (held ++ t) u := by
  cases s with
  | single _ => cases hpiece
  | double t' =>
    obtain rfl : t' = t := Piece.template.inj hpiece
    rw [Segment.write, List.cons_append, List.append_assoc, unquote, if_neg (by decide), if_pos rfl]
    exact unquote_double hs
  | bare t' =>
    obtain rfl : t' = t := Piece.template.inj hpiece
    exact unquote_bare hs

/-- Segments are read as the templates that they make together, and the verbatim pieces between
them. -/
lemma unquote_writeAll (h : ∀ s ∈ segments, s.Admitted) :
    unquote .bare held (writeAll segments) =
      .template (held ++ leading segments) :: behind segments := by
  induction segments generalizing held with
  | nil => simp [writeAll, unquote_bare_nil, leading, behind]
  | cons s r ih =>
    have hs := h s (List.mem_cons_self ..)
    have hr : ∀ s ∈ r, s.Admitted := fun s hmem => h s (List.mem_cons_of_mem _ hmem)
    rw [writeAll, List.flatMap_cons, leading, behind]
    cases hpiece : s.piece with
    | verbatim t =>
      rw [unquote_write_of_verbatim hs hpiece]
      dsimp only
      rw [List.append_nil]
      exact congrArg (fun rest => _ :: _ :: rest) (ih hr)
    | template t =>
      rw [unquote_write_of_template hs hpiece]
      dsimp only
      rw [← List.append_assoc]
      exact ih hr

/-! ## References that end where their segment ends -/

namespace Segment

/-- Whether a segment ends in a bare reference. -/
def EndsInReference (s : Segment) : Prop :=
  match s.piece with
  | .verbatim _ => False
  | .template t => endsInReference t

end Segment

/-- No bare reference at the end of a segment is followed by a character of a name. What follows is
the template that the rest starts with: empty segments do not come between, single-quoted ones do.
-/
def KeptApart : List Segment → Prop
  | [] => True
  | s :: r => (s.EndsInReference → ∀ c ∈ (leading r).head?, ¬ isNameChar c) ∧ KeptApart r

variable {r : List Segment} {find : Lookup}

lemma Segment.WellFormed.whole (hs : s.WellFormed) (hpiece : s.piece = .template t) :
    Whole t := by
  cases s with
  | single _ => cases hpiece
  | double t' => exact Piece.template.inj hpiece ▸ hs
  | bare t' => exact Piece.template.inj hpiece ▸ hs.1

/-- The value of the template and the pieces that a sequence of segments stands for. -/
theorem evaluate_writeAll (h : ∀ s ∈ segments, s.Admitted) : evaluate find (writeAll segments) =
    expand find (leading segments) ++ (behind segments).flatMap (Piece.value find) := by
  rw [evaluate, pieces, unquote_writeAll h, List.flatMap_cons, List.nil_append]
  rfl

lemma evaluate_write (hs : s.Admitted) : evaluate find s.write = s.piece.value find := by
  have h : evaluate find (writeAll [s]) =
      expand find (leading [s]) ++ (behind [s]).flatMap (Piece.value find) :=
    evaluate_writeAll (by simpa using hs)
  rw [writeAll, List.flatMap_singleton] at h
  rw [h, leading, behind]
  cases s.piece with
  | verbatim t => simp [leading, behind, expand_nil, Piece.value]
  | template t => simp [leading, behind, Piece.value]

/-- What follows a verbatim segment has the value that it has on its own. -/
lemma evaluate_cons_of_verbatim (h : ∀ s' ∈ s :: r, s'.Admitted)
    (hpiece : s.piece = .verbatim t) :
    evaluate find (writeAll (s :: r)) = t ++ evaluate find (writeAll r) := by
  have hr : ∀ s' ∈ r, s'.Admitted := fun s' hmem => h s' (List.mem_cons_of_mem _ hmem)
  rw [evaluate_writeAll h, evaluate_writeAll hr, leading, behind, hpiece]
  simp [expand_nil, Piece.value]

/-- What follows a template is expanded together with it, up to the next verbatim segment. -/
lemma evaluate_cons_of_template (h : ∀ s' ∈ s :: r, s'.Admitted)
    (hpiece : s.piece = .template t) : evaluate find (writeAll (s :: r)) =
      expand find (t ++ leading r) ++ (behind r).flatMap (Piece.value find) := by
  rw [evaluate_writeAll h, leading, behind, hpiece]

/-- Where no reference runs on, a value is what its segments give one after the other. -/
lemma evaluate_writeAll_of_keptApart (h : ∀ s ∈ segments, s.WellFormed)
    (hapart : KeptApart segments) (find : Lookup) :
    evaluate find (writeAll segments) = segments.flatMap fun s => evaluate find s.write := by
  induction segments with
  | nil => simp [writeAll, evaluate, pieces, unquote_bare_nil, Piece.value, expand_nil]
  | cons s r ih =>
    have hr : ∀ s' ∈ r, s'.WellFormed := fun s' hmem => h s' (List.mem_cons_of_mem _ hmem)
    have hs := h s (List.mem_cons_self ..)
    have hadmitted : ∀ s' ∈ s :: r, s'.Admitted := fun s' hmem => (h s' hmem).admitted
    have hradmitted : ∀ s' ∈ r, s'.Admitted := fun s' hmem => (hr s' hmem).admitted
    rw [List.flatMap_cons, ← ih hr hapart.2, evaluate_write hs.admitted]
    cases hpiece : s.piece with
    | verbatim t => exact evaluate_cons_of_verbatim hadmitted hpiece
    | template t =>
      have hend : endsInReference t → ∀ c ∈ (leading r).head?, ¬ isNameChar c := fun href =>
        hapart.1 (by rw [Segment.EndsInReference, hpiece]; exact href)
      rw [evaluate_cons_of_template hadmitted hpiece, expand_append (hs.whole hpiece) hend,
        evaluate_writeAll hradmitted, List.append_assoc]
      rfl

/-- Where no name has a value, what a reference takes away from the next segment is missing. -/
lemma length_evaluate_cons (h : ∀ s' ∈ s :: r, s'.WellFormed) :
    ∃ missing, (evaluate (fun _ => none) (writeAll (s :: r))).length + missing =
        (evaluate (fun _ => none) s.write).length +
          (evaluate (fun _ => none) (writeAll r)).length ∧
      (missing = 0 → s.EndsInReference → ∀ c ∈ (leading r).head?, ¬ isNameChar c) := by
  have hr : ∀ s' ∈ r, s'.WellFormed := fun s' hmem => h s' (List.mem_cons_of_mem _ hmem)
  have hs := h s (List.mem_cons_self ..)
  have hadmitted : ∀ s' ∈ s :: r, s'.Admitted := fun s' hmem => (h s' hmem).admitted
  have hradmitted : ∀ s' ∈ r, s'.Admitted := fun s' hmem => (hr s' hmem).admitted
  rw [evaluate_write hs.admitted, Segment.EndsInReference]
  cases hpiece : s.piece with
  | verbatim t =>
    refine ⟨0, ?_, fun _ href => href.elim⟩
    rw [evaluate_cons_of_verbatim hadmitted hpiece, List.length_append]
    rfl
  | template t =>
    have hwhole := hs.whole hpiece
    rw [evaluate_cons_of_template hadmitted hpiece, evaluate_writeAll hradmitted, Piece.value]
    simp only [List.length_append]
    by_cases href : endsInReference t
    -- what is missing are the characters of a name that the reference reached
    · have hlength := length_expand_append hwhole href (leading r)
      refine ⟨((leading r).takeWhile isNameChar).length, by omega, fun hzero _ c hc => ?_⟩
      obtain ⟨u, hu⟩ := List.head?_eq_some_iff.mp hc
      rw [hu, List.length_eq_zero_iff] at hzero
      intro hname
      rw [List.takeWhile_cons_of_pos hname] at hzero
      cases hzero
    · refine ⟨0, ?_, fun _ hend => absurd hend href⟩
      rw [expand_append_of_not_reference hwhole href, List.length_append]
      omega

/-- Where no name has a value, nothing is added by putting segments together, -/
lemma length_evaluate_le (h : ∀ s ∈ segments, s.WellFormed) :
    (evaluate (fun _ => none) (writeAll segments)).length ≤
      (segments.flatMap fun s => evaluate (fun _ => none) s.write).length := by
  induction segments with
  | nil => simp [writeAll, evaluate, pieces, unquote_bare_nil, Piece.value, expand_nil]
  | cons s r ih =>
    have hle := ih fun s' hmem => h s' (List.mem_cons_of_mem _ hmem)
    obtain ⟨missing, hlength, -⟩ := length_evaluate_cons h
    rw [List.flatMap_cons, List.length_append]
    omega

/-- and if nothing is lost, then no reference runs on. -/
lemma keptApart_of_length (h : ∀ s ∈ segments, s.WellFormed)
    (heq : (evaluate (fun _ => none) (writeAll segments)).length =
      (segments.flatMap fun s => evaluate (fun _ => none) s.write).length) :
    KeptApart segments := by
  induction segments with
  | nil => trivial
  | cons s r ih =>
    have hr : ∀ s' ∈ r, s'.WellFormed := fun s' hmem => h s' (List.mem_cons_of_mem _ hmem)
    have hle := length_evaluate_le hr
    obtain ⟨missing, hlength, hend⟩ := length_evaluate_cons h
    rw [List.flatMap_cons, List.length_append] at heq
    exact ⟨hend (by omega), ih hr (by omega)⟩

lemma scope_nil : scope [] [] [] = fun _ => none := by
  funext name
  simp [scope, Bindings.processValue?]

/-- A value is what its segments give one after the other, in every scope, exactly if no bare
reference runs on into the next segment. -/
theorem evaluate_segments_iff (h : ∀ s ∈ segments, s.WellFormed) :
    (∀ process base vars, evaluate (scope process base vars) (writeAll segments) =
      segments.flatMap fun s => evaluate (scope process base vars) s.write) ↔
    KeptApart segments := by
  constructor
  · intro heq
    -- where no name has a value, whatever a reference reaches is missing, so lengths tell
    have hblank := heq [] [] []
    rw [scope_nil] at hblank
    exact keptApart_of_length h (congrArg List.length hblank)
  · intro hapart process base vars
    exact evaluate_writeAll_of_keptApart h hapart _

/-- `"$A"'b'` is the value of `A` and a letter, while `"$A"b` is read as `$Ab`. -/
theorem evaluate_reference_then_letter :
    (∀ process base vars, evaluate (scope process base vars)
        (writeAll [.double "$A".toList, .single "b".toList]) =
      [.double "$A".toList, .single "b".toList].flatMap fun s : Segment =>
        evaluate (scope process base vars) s.write) ∧
    ¬ ∀ process base vars, evaluate (scope process base vars)
        (writeAll [.double "$A".toList, .bare "b".toList]) =
      [.double "$A".toList, .bare "b".toList].flatMap fun s : Segment =>
        evaluate (scope process base vars) s.write := by
  have hA : Whole "$A".toList := whole_of_not_mem (by decide) (by decide) (by decide)
  have hb : Whole "b".toList := whole_of_not_mem (by decide) (by decide) (by decide)
  have hquoted : ∀ s ∈ [Segment.double "$A".toList, .single "b".toList], s.WellFormed := by
    simp only [List.forall_mem_cons]
    exact ⟨hA, show '\'' ∉ "b".toList by decide, List.forall_mem_nil _⟩
  have hbare : ∀ s ∈ [Segment.double "$A".toList, .bare "b".toList], s.WellFormed := by
    simp only [List.forall_mem_cons]
    refine ⟨hA, ⟨hb, ?_⟩, List.forall_mem_nil _⟩
    exact List.forall_mem_singleton.mpr ⟨by decide, by decide, by decide⟩
  refine ⟨(evaluate_segments_iff hquoted).mpr ?_, fun heq => ?_⟩
  · exact ⟨fun _ => nofun, fun hend => hend.elim, trivial⟩
  · exact ((evaluate_segments_iff hbare).mp heq).1 (by cbv) 'b' rfl (by decide)

end Caretaker.Environ

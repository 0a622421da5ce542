import Caretaker.Proofs.Environ.Assignments

/-!
# The arrangement of a file

What a file assigns does not depend on how its lines are set out: on blanks around them, on carriage
returns at their ends, on blank lines, comments and lines that assign nothing. No such change reaches
into another line, whatever quotes and dollar signs the lines hold.
-/

namespace Caretaker.Environ

open Text (isBlank trim)

variable {process base : Bindings} {s r line blanks content content' : Text}

/-! ## Blanks around lines -/

/-- Blanks at the end of a line are left out, -/
lemma assignmentOf?_append_blanks (hblanks : ∀ c ∈ blanks, isBlank c) :
    assignmentOf? (line ++ blanks) = assignmentOf? line := by
  unfold assignmentOf?
  rw [Text.trim_append_blanks line hblanks]

/-- and so are those in front. -/
lemma assignmentOf?_blanks_append (hblanks : ∀ c ∈ blanks, isBlank c) :
    assignmentOf? (blanks ++ line) = assignmentOf? line := by
  unfold assignmentOf?
  rw [Text.trim_blanks_append hblanks]

/-- Blanks behind the last line of a file assign nothing. -/
lemma assignments_append_blanks (hblanks : ∀ c ∈ blanks, isBlank c) (hfeed : '\n' ∉ blanks)
    (s : Text) : assignments (s ++ blanks) = assignments s := by
  by_cases hmem : '\n' ∈ s
  · obtain ⟨l, s', hs, -⟩ := List.eq_append_cons_of_mem hmem
    have hshorter : s'.length < s.length := by
      rw [hs, List.length_append, List.length_cons]
      omega
    have ih := assignments_append_blanks hblanks hfeed s'
    rw [hs, List.append_assoc, List.cons_append, assignments_append_newline,
      assignments_append_newline, ih]
  · have hline : '\n' ∉ s ++ blanks := by simp [hmem, hfeed]
    rw [assignments_of_not_mem hline, assignments_of_not_mem hmem,
      assignmentOf?_append_blanks hblanks]
termination_by s.length

/-- Nor do blanks in front of the first line. -/
lemma assignments_blanks_append (hblanks : ∀ c ∈ blanks, isBlank c) (hfeed : '\n' ∉ blanks)
    (r : Text) : assignments (blanks ++ r) = assignments r := by
  by_cases hmem : '\n' ∈ r
  · obtain ⟨l, r', rfl, hl⟩ := List.eq_append_cons_of_mem hmem
    have hline : '\n' ∉ blanks ++ l := by simp [hl, hfeed]
    rw [← List.append_assoc, assignments_append_newline, assignments_append_newline,
      assignments_of_not_mem hline, assignments_of_not_mem hl, assignmentOf?_blanks_append hblanks]
  · have hline : '\n' ∉ blanks ++ r := by simp [hmem, hfeed]
    rw [assignments_of_not_mem hline, assignments_of_not_mem hmem,
      assignmentOf?_blanks_append hblanks]

/-! ## Changes -/

/-- A line begins behind this text. -/
def BeginsLine (s : Text) : Prop := ∀ c ∈ s.getLast?, c = '\n'

/-- A line ends in front of this text. -/
inductive EndsLine : Text → Prop where
  | atEnd : EndsLine []
  | feed (r : Text) : EndsLine ('\n' :: r)
  | returned (r : Text) : EndsLine ('\r' :: '\n' :: r)

/-- A line that assigns nothing: it is blank, or a comment, or has another form. -/
def PassedOver (line : Text) : Prop :=
  trim line = [] ∨ (trim line).head? = some '#' ∨ Assignment.ofLine? (trim line) = none

/-- Blanks that stand in a line. -/
structure IsGap (blanks : Text) : Prop where
  blank : ∀ c ∈ blanks, isBlank c
  feed : '\n' ∉ blanks

lemma isGap_singleton {c : Char} (hblank : isBlank c) (hfeed : '\n' ≠ c) : IsGap [c] where
  blank d hd := by rwa [List.mem_singleton.mp hd]
  feed := by rwa [List.mem_singleton]

/-- One change to the arrangement of a file. -/
inductive Rearranges : Text → Text → Prop where
  /-- A carriage return in front of a line feed. -/
  | lineEnd (s r : Text) : Rearranges (s ++ '\n' :: r) (s ++ '\r' :: '\n' :: r)
  /-- Blanks in front of a line. -/
  | before (s r blanks : Text) (hs : BeginsLine s) (hblanks : IsGap blanks) :
      Rearranges (s ++ r) (s ++ blanks ++ r)
  /-- Blanks behind a line. -/
  | behind (s r blanks : Text) (hr : EndsLine r) (hblanks : IsGap blanks) :
      Rearranges (s ++ r) (s ++ blanks ++ r)
  /-- One more line that assigns nothing. -/
  | line (s r line : Text) (hs : BeginsLine s) (hline : PassedOver line) (hfeed : '\n' ∉ line) :
      Rearranges (s ++ r) (s ++ line ++ '\n' :: r)
  /-- One more at the end of the file. -/
  | lastLine (s line : Text) (hline : PassedOver line) (hfeed : '\n' ∉ line) :
      Rearranges s (s ++ '\n' :: line)

lemma assignments_of_passedOver (hline : PassedOver line) (hfeed : '\n' ∉ line) :
    assignments line = [] := by
  have hnone : assignmentOf? line = none := by
    unfold assignmentOf?
    rcases hline with hblank | hcomment | hform
    · rw [hblank]
      rfl
    · -- no name starts with the mark of a comment
      cases htrim : trim line with
      | nil => rfl
      | cons c l =>
        rw [htrim] at hcomment
        obtain rfl : c = '#' := Option.some.inj hcomment
        rfl
    · exact hform
  rw [assignments_of_not_mem hfeed, hnone]
  rfl

/-- A change to the arrangement leaves the assignments as they are. -/
theorem Rearranges.assignments_eq (h : Rearranges content content') :
    assignments content' = assignments content := by
  -- a carriage return in front of a line feed is a blank at the end of its line
  have hreturn : IsGap ['\r'] := isGap_singleton rfl (by decide)
  cases h with
  | lineEnd s r =>
    have hsplit : s ++ '\r' :: '\n' :: r = (s ++ ['\r']) ++ '\n' :: r := by simp
    rw [hsplit, assignments_append_newline, assignments_append_newline,
      assignments_append_blanks hreturn.blank hreturn.feed]
  | before s r blanks hs hblanks =>
    rw [List.append_assoc, assignments_append_lines hs, assignments_append_lines hs,
      assignments_blanks_append hblanks.blank hblanks.feed]
  | behind s r blanks hr hblanks =>
    cases hr with
    | atEnd =>
      rw [List.append_nil, List.append_nil, assignments_append_blanks hblanks.blank hblanks.feed]
    | feed r =>
      rw [assignments_append_newline, assignments_append_newline,
        assignments_append_blanks hblanks.blank hblanks.feed]
    | returned r =>
      have hsplit : ∀ t : Text, t ++ '\r' :: '\n' :: r = (t ++ ['\r']) ++ '\n' :: r := by simp
      rw [hsplit, hsplit, assignments_append_newline, assignments_append_newline,
        assignments_append_blanks hreturn.blank hreturn.feed,
        assignments_append_blanks hreturn.blank hreturn.feed,
        assignments_append_blanks hblanks.blank hblanks.feed]
  | line s r line hs hline hfeed =>
    rw [List.append_assoc, assignments_append_lines hs, assignments_append_newline,
      assignments_of_passedOver hline hfeed, List.nil_append, assignments_append_lines hs]
  | lastLine s line hline hfeed =>
    rw [assignments_append_newline, assignments_of_passedOver hline hfeed, List.append_nil]

/-- However often the arrangement of a file is changed, the file is read as before. -/
theorem parse_of_rearranges (h : Relation.ReflTransGen Rearranges content content')
    (process base : Bindings) : parse process base content' = parse process base content := by
  have hassignments : assignments content' = assignments content := by
    induction h with
    | refl => rfl
    | tail _ hstep ih => rw [hstep.assignments_eq, ih]
  rw [parse_eq, parse_eq, hassignments]

/-- A carriage return, a comment that opens quotes and blanks on both sides of a line. -/
theorem parse_of_rearranges_commented :
    Relation.ReflTransGen Rearranges "A=1\nB=$A".toList
      "A=1\r\n# don't \"$\n B=$A\t".toList ∧
    parse [] [] "A=1\r\n# don't \"$\n B=$A\t".toList = parse [] [] "A=1\nB=$A".toList ∧
    parse [] [] "A=1\nB=$A".toList = [(['A'], ['1']), (['B'], ['1'])] := by
  have hreturned : Rearranges "A=1\nB=$A".toList "A=1\r\nB=$A".toList :=
    .lineEnd "A=1".toList "B=$A".toList
  have hcommented : Rearranges "A=1\r\nB=$A".toList "A=1\r\n# don't \"$\nB=$A".toList :=
    .line "A=1\r\n".toList "B=$A".toList "# don't \"$".toList
      (by simp [BeginsLine]) (.inr (.inl rfl)) (by decide)
  have hbefore : Rearranges "A=1\r\n# don't \"$\nB=$A".toList
      "A=1\r\n# don't \"$\n B=$A".toList :=
    .before "A=1\r\n# don't \"$\n".toList "B=$A".toList [' ']
      (by simp [BeginsLine]) (isGap_singleton rfl (by decide))
  have hbehind : Rearranges "A=1\r\n# don't \"$\n B=$A".toList
      "A=1\r\n# don't \"$\n B=$A\t".toList :=
    .behind "A=1\r\n# don't \"$\n B=$A".toList [] ['\t']
      .atEnd (isGap_singleton rfl (by decide))
  have hchanges := (((Relation.ReflTransGen.single hreturned).tail hcommented).tail hbefore).tail
    hbehind
  exact ⟨hchanges, parse_of_rearranges hchanges [] [], by cbv⟩

end Caretaker.Environ

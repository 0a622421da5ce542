import Caretaker.Environ.File
import Caretaker.Proofs.Text.Trim

/-!
# Files as their assignments

Reading an environ file is carrying out its assignments, line by line. What else stands in the file
is passed over, and what follows a line feed is read as if it stood in a file of its own.
-/

namespace Caretaker

namespace Text

variable {l r s : Text} {c : Char}

/-! ## Lines -/

/-- A line feed ends a line, -/
lemma lines_newline (r : Text) : lines ('\n' :: r) = [] :: lines r := by rw [lines]

/-- and so does a carriage return in front of one. -/
lemma lines_return (r : Text) : lines ('\r' :: '\n' :: r) = [] :: lines r := by rw [lines]

/-- Put a character in front of the first line. -/
def pushFront (c : Char) : List Text → List Text
  | [] => [[c]]
  | l :: ls => (c :: l) :: ls

/-- Any other character belongs to its line. -/
lemma lines_cons (hc : c ≠ '\n') (hr : c = '\r' → r.head? ≠ some '\n') :
    lines (c :: r) = pushFront c (lines r) := by
  rw [lines]
  · cases lines r <;> rfl
  · exact fun h => hc h
  · intro r' hreturn hfeed
    exact hr hreturn (by rw [hfeed]; rfl)

lemma head?_ne_newline (h : '\n' ∉ l) : l.head? ≠ some '\n' :=
  fun hhead => h (List.mem_of_head? hhead)

/-- A text without line feeds is one line. -/
lemma lines_of_not_mem (h : '\n' ∉ l) (hne : l ≠ []) : lines l = [l] := by
  induction l with
  | nil => exact absurd rfl hne
  | cons c l ih =>
    obtain ⟨hc, hl⟩ := not_or.mp (mt List.mem_cons.mpr h)
    rw [lines_cons (Ne.symm hc) fun _ => head?_ne_newline hl]
    cases l with
    | nil => rfl
    | cons d l =>
      rw [ih hl (by simp)]
      rfl

/-- A line ends at the first line feed, and leaves out a carriage return right before it. -/
lemma exists_first_line (h : '\n' ∉ l) : ∃ first,
    (l = first ∨ l = first ++ ['\r']) ∧ ∀ r, lines (l ++ '\n' :: r) = first :: lines r := by
  induction l with
  | nil => exact ⟨[], Or.inl rfl, lines_newline⟩
  | cons c l ih =>
    obtain ⟨hc, hl⟩ := not_or.mp (mt List.mem_cons.mpr h)
    by_cases hreturn : c = '\r' ∧ l = []
    · obtain ⟨rfl, rfl⟩ := hreturn
      exact ⟨[], Or.inr rfl, lines_return⟩
    · obtain ⟨first, hfirst, hlines⟩ := ih hl
      refine ⟨c :: first, by simpa using hfirst, ?_⟩
      intro r
      have hnot : c = '\r' → (l ++ '\n' :: r).head? ≠ some '\n' := by
        intro hcr
        cases l with
        | nil => exact absurd ⟨hcr, rfl⟩ hreturn
        | cons d l => exact fun hd => head?_ne_newline hl hd
      rw [List.cons_append, lines_cons (Ne.symm hc) hnot, hlines]
      rfl

end Text

namespace Environ

open Text (isBlank trim)

variable {name raw line : Text} {c : Char}

/-! ## Characters of names -/

lemma not_isBlank_of_isNameChar (hc : isNameChar c) : ¬ isBlank c := by
  have hranges : c.toNat = 95 ∨ 65 ≤ c.toNat ∧ c.toNat ≤ 90 ∨ 97 ≤ c.toNat ∧ c.toNat ≤ 122 ∨
      48 ≤ c.toNat ∧ c.toNat ≤ 57 := by
    simp only [isNameChar, Char.isAlphanum, Char.isAlpha, Char.isUpper, Char.isLower, Char.isDigit,
      Bool.or_eq_true, Bool.and_eq_true, decide_eq_true_eq, beq_iff_eq, ge_iff_le,
      UInt32.le_iff_toNat_le] at hc
    rcases hc with ((hupper | hlower) | hdigit) | rfl
    · exact Or.inr (Or.inl hupper)
    · exact Or.inr (Or.inr (Or.inl hlower))
    · exact Or.inr (Or.inr (Or.inr hdigit))
    · exact Or.inl rfl
  simp only [isBlank, Bool.or_eq_true, Bool.and_eq_true, decide_eq_true_eq, beq_iff_eq]
  omega

lemma not_isNameChar_equals : ¬ isNameChar '=' := by decide

lemma isNameChar_of_isNameStart (hc : isNameStart c) : isNameChar c := by
  simp only [isNameStart, isNameChar, Char.isAlphanum, Bool.or_eq_true] at hc ⊢
  tauto

/-- A name is a letter or an underscore, and then characters of names. -/
lemma exists_cons_of_isName (h : isName name) :
    ∃ c r, name = c :: r ∧ isNameStart c ∧ ∀ d ∈ name, isNameChar d := by
  cases name with
  | nil => cases h
  | cons c r =>
    simp only [isName, Bool.and_eq_true, List.all_eq_true] at h
    refine ⟨c, r, rfl, h.1, ?_⟩
    intro d hd
    rcases List.mem_cons.mp hd with rfl | hd
    · exact isNameChar_of_isNameStart h.1
    · exact h.2 d hd

/-- A name consists of characters of names, -/
lemma isNameChar_of_mem (h : isName name) : ∀ c ∈ name, isNameChar c := by
  obtain ⟨-, -, -, -, hall⟩ := exists_cons_of_isName h
  exact hall

/-- so that it holds no equals sign, -/
lemma equals_not_mem (h : isName name) : '=' ∉ name :=
  fun hmem => not_isNameChar_equals (isNameChar_of_mem h _ hmem)

/-- and has no blanks around it. -/
lemma tight_of_isName (h : isName name) : Text.Tight name :=
  Text.tight_of_forall fun c hc => not_isBlank_of_isNameChar (isNameChar_of_mem h c hc)

namespace Assignment

/-! ## Recognising an assignment -/

lemma takeWhile_name (h : isName name) (raw : Text) :
    (name ++ '=' :: raw).takeWhile isNameChar = name := by
  rw [List.takeWhile_append_of_pos (isNameChar_of_mem h),
    List.takeWhile_cons_of_neg not_isNameChar_equals, List.append_nil]

lemma dropWhile_name (h : isName name) (raw : Text) :
    (name ++ '=' :: raw).dropWhile isNameChar = '=' :: raw := by
  rw [List.dropWhile_append_of_pos (isNameChar_of_mem h),
    List.dropWhile_cons_of_neg not_isNameChar_equals]

/-- A plain assignment is read as its name and what stands behind the equals sign. -/
lemma ofPlain?_append (h : isName name) (raw : Text) :
    ofPlain? (name ++ '=' :: raw) = some ⟨name, raw⟩ := by
  unfold ofPlain?
  rw [dropWhile_name h]
  simp [takeWhile_name h, h]

/-- No plain assignment starts with `export` and a blank, not even one to that name. -/
lemma afterExport?_append (h : isName name) (raw : Text) :
    afterExport? (name ++ '=' :: raw) = none := by
  unfold afterExport?
  cases hrest : "export".toList.isPrefixOf? (name ++ '=' :: raw) with
  | none => rfl
  | some rest =>
    have hline : "export".toList ++ rest = name ++ '=' :: raw :=
      List.isPrefixOf?_eq_some_iff_append_eq.mp hrest
    cases rest with
    | nil => rfl
    | cons c r =>
      by_cases hblank : isBlank c
      -- a blank ends the name, so what follows the name would be the blank
      · have hname : ∀ d ∈ "export".toList, isNameChar d := isNameChar_of_mem (by decide)
        have hc : ¬ isNameChar c := fun hc => not_isBlank_of_isNameChar hc hblank
        have hdrop := dropWhile_name h raw
        rw [← hline, List.dropWhile_append_of_pos hname, List.dropWhile_cons_of_neg hc] at hdrop
        rw [(List.cons.inj hdrop).1] at hblank
        exact absurd hblank (by decide)
      · simp [hblank]

/-- So is a line without `export`, -/
lemma ofLine?_append (h : isName name) (raw : Text) :
    ofLine? (name ++ '=' :: raw) = some ⟨name, raw⟩ := by
  unfold ofLine?
  rw [afterExport?_append h, ofPlain?_append h]
  rfl

/-- Blanks do not go on into a name. -/
lemma trimStart_blanks_name {blanks : Text} (hblanks : ∀ c ∈ blanks, isBlank c) (h : isName name)
    (raw : Text) : Text.trimStart (blanks ++ (name ++ '=' :: raw)) = name ++ '=' :: raw := by
  obtain ⟨c, r, rfl, hc, -⟩ := exists_cons_of_isName h
  have hblank : ¬ isBlank c := not_isBlank_of_isNameChar (isNameChar_of_isNameStart hc)
  unfold Text.trimStart
  rw [List.dropWhile_append_of_pos hblanks, List.cons_append, List.dropWhile_cons_of_neg hblank]

/-- and so is one with `export` and blanks in front. -/
lemma ofLine?_export (blanks : Text) (hne : blanks ≠ []) (hblanks : ∀ c ∈ blanks, isBlank c)
    (h : isName name) (raw : Text) :
    ofLine? ("export".toList ++ (blanks ++ (name ++ '=' :: raw))) = some ⟨name, raw⟩ := by
  have hafter : afterExport? ("export".toList ++ (blanks ++ (name ++ '=' :: raw))) =
      some (name ++ '=' :: raw) := by
    unfold afterExport?
    rw [List.isPrefixOf?_eq_some_iff_append_eq.mpr rfl]
    cases blanks with
    | nil => exact absurd rfl hne
    | cons c blanks =>
      obtain ⟨hc, hblanks⟩ := List.forall_mem_cons.mp hblanks
      show (if isBlank c then some (Text.trimStart (blanks ++ (name ++ '=' :: raw))) else none) = _
      rw [if_pos hc, trimStart_blanks_name hblanks h]
  unfold ofLine?
  rw [hafter, Option.bind_some, ofPlain?_append h]
  rfl

/-- What is assigned is a name. -/
lemma isName_of_ofPlain? {a : Assignment} (h : ofPlain? line = some a) : isName a.name := by
  unfold ofPlain? at h
  dsimp only at h
  split at h
  · split at h
    · rename_i hname
      rw [← Option.some.inj h]
      exact hname
    · cases h
  · cases h

lemma isName_of_ofLine? {a : Assignment} (h : ofLine? line = some a) : isName a.name := by
  unfold ofLine? at h
  cases hexport : (afterExport? line).bind ofPlain? with
  | none =>
    rw [hexport] at h
    exact isName_of_ofPlain? h
  | some b =>
    rw [hexport] at h
    obtain ⟨rest, -, hrest⟩ := Option.bind_eq_some_iff.mp hexport
    rw [← Option.some.inj h]
    exact isName_of_ofPlain? hrest

end Assignment

/-! ## The assignments of a file -/

/-- The assignment of a line, if it has one. -/
def assignmentOf? (line : Text) : Option Assignment := Assignment.ofLine? (trim line)

/-- The assignments of a file, in order. -/
def assignments (content : Text) : List Assignment := (Text.lines content).filterMap assignmentOf?

/-- The variables after an assignment. -/
def carryOut (process base vars : Bindings) (a : Assignment) : Bindings :=
  vars.set a.name (evaluate (scope process base vars) (trim a.raw))

variable {process base vars : Bindings} {s r : Text}

lemma assignLine_eq : assignLine process base vars line =
    match assignmentOf? line with
    | none => vars
    | some a => carryOut process base vars a := by
  unfold assignLine assignmentOf?
  cases hline : trim line with
  | nil => rfl
  | cons c l =>
    by_cases hc : c = '#'
    -- a comment assigns nothing, since no name starts with its mark
    · subst hc
      rfl
    · simp only [List.isEmpty_cons, List.head?_cons, Option.some_beq_some, Bool.false_or,
        beq_iff_eq, hc, if_false]
      rfl

/-- A file is read by carrying out its assignments. -/
theorem parse_eq (process base : Bindings) (content : Text) :
    parse process base content = (assignments content).foldl (carryOut process base) [] := by
  have hlines : ∀ (lines : List Text) (vars : Bindings),
      lines.foldl (assignLine process base) vars =
        (lines.filterMap assignmentOf?).foldl (carryOut process base) vars := by
    intro lines
    induction lines with
    | nil => exact fun _ => rfl
    | cons line lines ih =>
      intro vars
      rw [List.foldl_cons, assignLine_eq, ih]
      cases hline : assignmentOf? line with
      | none => rw [List.filterMap_cons_none hline]
      | some a => rw [List.filterMap_cons_some hline, List.foldl_cons]
  exact hlines (Text.lines content) []

lemma isName_of_mem_assignments {content : Text} {a : Assignment} (h : a ∈ assignments content) :
    isName a.name := by
  obtain ⟨line, -, hline⟩ := List.mem_filterMap.mp h
  exact Assignment.isName_of_ofLine? hline

/-- Whether a carriage return stands at the end of a line makes no difference. -/
lemma assignmentOf?_return (line : Text) : assignmentOf? (line ++ ['\r']) = assignmentOf? line := by
  unfold assignmentOf?
  rw [Text.trim_append_blank (by decide)]

/-- A single line is one assignment at most. -/
lemma assignments_of_not_mem (h : '\n' ∉ s) :
    assignments s = (assignmentOf? s).toList := by
  unfold assignments
  by_cases hnil : s = []
  · rw [hnil]
    rfl
  · rw [Text.lines_of_not_mem h hnil]
    cases hs : assignmentOf? s <;> simp [hs]

/-- Behind a line feed a file goes on as another file. -/
lemma assignments_append_newline (s r : Text) :
    assignments (s ++ '\n' :: r) = assignments s ++ assignments r := by
  by_cases hmem : '\n' ∈ s
  · obtain ⟨l, s', hs, hl⟩ := List.eq_append_cons_of_mem hmem
    obtain ⟨first, -, hlines⟩ := Text.exists_first_line hl
    have hshorter : s'.length < s.length := by
      rw [hs, List.length_append, List.length_cons]
      omega
    have ih := assignments_append_newline s' r
    unfold assignments at ih ⊢
    rw [hs, List.append_assoc, List.cons_append, hlines, hlines]
    cases hfirst : assignmentOf? first <;> simp [hfirst, ih]
  · obtain ⟨first, hfirst, hlines⟩ := Text.exists_first_line hmem
    have hsame : assignmentOf? first = assignmentOf? s := by
      rcases hfirst with rfl | rfl
      · rfl
      · exact (assignmentOf?_return first).symm
    rw [assignments_of_not_mem hmem]
    unfold assignments
    rw [hlines]
    cases hs : assignmentOf? s <;> simp [hsame, hs]
termination_by s.length

/-- Behind a line feed, assignments are carried out on top of those before it. -/
lemma parse_append_newline (process base : Bindings) (s r : Text) :
    parse process base (s ++ '\n' :: r) =
      (assignments r).foldl (carryOut process base) (parse process base s) := by
  rw [parse_eq, parse_eq, assignments_append_newline, List.foldl_append]

/-- A line feed at the end changes nothing. -/
lemma parse_concat_newline (process base : Bindings) (s : Text) :
    parse process base (s ++ ['\n']) = parse process base s :=
  parse_append_newline process base s []

/-- So it does behind a complete last line. -/
lemma assignments_append_lines {before : Text} (hbefore : ∀ d ∈ before.getLast?, d = '\n')
    (r : Text) : assignments (before ++ r) = assignments before ++ assignments r := by
  rcases List.eq_nil_or_concat before with rfl | ⟨lines, d, rfl⟩
  · rfl
  · rw [List.concat_eq_append] at hbefore ⊢
    obtain rfl : d = '\n' := hbefore d List.getLast?_concat
    have hlines : assignments (lines ++ ['\n']) = assignments lines := by
      rw [assignments_append_newline]
      exact List.append_nil _
    rw [hlines, List.append_assoc]
    exact assignments_append_newline lines r

/-- A file whose last line is complete goes on with the assignments of what is appended to it. -/
theorem parse_append_lines {before : Text} (hbefore : ∀ d ∈ before.getLast?, d = '\n')
    (process base : Bindings) (r : Text) :
    parse process base (before ++ r) =
      (assignments r).foldl (carryOut process base) (parse process base before) := by
  rw [parse_eq, parse_eq, assignments_append_lines hbefore, List.foldl_append]

/-- A line that assigns, at the end of a file. -/
lemma parse_append_assignment {before : Text} (hbefore : ∀ d ∈ before.getLast?, d = '\n')
    (hname : isName name) (hraw : '\n' ∉ raw) (process base : Bindings) :
    parse process base (before ++ (name ++ '=' :: raw)) =
      (parse process base before).set name
        (evaluate (scope process base (parse process base before)) (trim raw)) := by
  have hnewline : '\n' ∉ name ++ '=' :: raw := by
    intro hmem
    rcases List.mem_append.mp hmem with hmem | hmem
    · exact absurd (isNameChar_of_mem hname _ hmem) (by decide)
    · exact hraw ((List.mem_cons.mp hmem).resolve_left (by decide))
  -- only the value has blanks around it that may go, and what is left of them goes later
  have htrim : trim (name ++ '=' :: raw) = name ++ '=' :: Text.trimEnd raw := by
    have hstart : Text.trimStart (name ++ '=' :: raw) = name ++ '=' :: raw :=
      Assignment.trimStart_blanks_name (List.forall_mem_nil _) hname raw
    unfold Text.trim
    rw [hstart, Text.trimEnd_append_cons _ _ (by decide)]
  have hassignment : assignmentOf? (name ++ '=' :: raw) = some ⟨name, Text.trimEnd raw⟩ := by
    unfold assignmentOf?
    rw [htrim, Assignment.ofLine?_append hname]
  rw [parse_append_lines hbefore, assignments_of_not_mem hnewline, hassignment]
  show carryOut process base _ ⟨name, Text.trimEnd raw⟩ = _
  unfold carryOut
  rw [Text.trim_trimEnd]

end Environ
end Caretaker

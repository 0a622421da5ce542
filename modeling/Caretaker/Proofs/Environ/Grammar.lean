import Caretaker.Proofs.Environ.Assignments

/-!
# The grammar of assignments

An assignment is written as a name, an equals sign and a value, on its own or behind `export` and
blanks. No text is written in two of these ways, although `export` is a name itself and a value may
hold any character. A line on its own assigns exactly if it is such a text between blanks, and then
it binds the one name that is written in it.
-/

namespace Caretaker.Environ

open Text (isBlank trim)

variable {name rest line : Text} {c : Char} {a : Assignment}

/-! ## Identifiers -/

/-- A letter of the ASCII alphabet or an underscore. -/
def IsLetter (c : Char) : Prop := ('A' ≤ c ∧ c ≤ 'Z') ∨ ('a' ≤ c ∧ c ≤ 'z') ∨ c = '_'

/-- A digit of the ASCII alphabet. -/
def IsDigit (c : Char) : Prop := '0' ≤ c ∧ c ≤ '9'

/-- A letter, or an identifier and one more letter or digit. -/
inductive Identifier : Text → Prop where
  | letter {c : Char} (hc : IsLetter c) : Identifier [c]
  | longer {name : Text} {c : Char} (hname : Identifier name) (hc : IsLetter c ∨ IsDigit c) :
      Identifier (name ++ [c])

/-- A name starts with a letter or an underscore, -/
lemma isNameStart_iff : isNameStart c ↔ IsLetter c := by
  simp only [isNameStart, IsLetter, Char.isAlpha, Char.isUpper, Char.isLower, Bool.or_eq_true,
    Bool.and_eq_true, decide_eq_true_eq, beq_iff_eq, or_assoc]
  exact Iff.rfl

/-- and goes on with these and digits. -/
lemma isNameChar_iff : isNameChar c ↔ IsLetter c ∨ IsDigit c := by
  have hdigit : c.isDigit ↔ IsDigit c := by
    simp only [Char.isDigit, IsDigit, Bool.and_eq_true, decide_eq_true_eq]
    exact Iff.rfl
  rw [← isNameStart_iff, ← hdigit]
  simp only [isNameChar, isNameStart, Char.isAlphanum, Bool.or_eq_true]
  exact or_right_comm

/-- Behind a name, what makes a longer one is a character of names. -/
lemma isName_concat (hne : name ≠ []) (c : Char) :
    isName (name ++ [c]) ↔ isName name ∧ isNameChar c := by
  cases name with
  | nil => exact absurd rfl hne
  | cons d r => simp [isName, and_assoc]

/-- The names of variables are the identifiers. -/
theorem identifier_iff : Identifier name ↔ isName name := by
  constructor
  · intro h
    induction h with
    | letter hc => simpa [isName] using isNameStart_iff.mpr hc
    | @longer name c _ hc ih =>
      have hne : name ≠ [] := by
        rintro rfl
        cases ih
      exact (isName_concat hne c).mpr ⟨ih, isNameChar_iff.mpr hc⟩
  · intro h
    induction name using List.reverseRecOn with
    | nil => cases h
    | append_singleton name c ih =>
      by_cases hne : name = []
      · subst hne
        exact .letter (isNameStart_iff.mp (by simpa [isName] using h))
      · obtain ⟨hname, hc⟩ := (isName_concat hne c).mp h
        exact .longer (ih hname) (isNameChar_iff.mp hc)

/-! ## Ways to write an assignment -/

/-- What stands in front of the name: nothing, or `export` and blanks. -/
inductive Lead : Text → Prop where
  | plain : Lead []
  | exported (blanks : Text) (hne : blanks ≠ []) (hblanks : ∀ c ∈ blanks, isBlank c) :
      Lead ("export".toList ++ blanks)

/-- An assignment in its parts; any text is a value. -/
structure Spelling where
  lead : Text
  name : Text
  raw : Text
  properLead : Lead lead
  properName : Identifier name

namespace Spelling

/-- The text that is written. -/
def text (w : Spelling) : Text := w.lead ++ (w.name ++ '=' :: w.raw)

/-- What is written is read. -/
theorem ofLine?_text (w : Spelling) : Assignment.ofLine? w.text = some ⟨w.name, w.raw⟩ := by
  obtain ⟨lead, name, raw, hlead, hname⟩ := w
  have hname : isName name := identifier_iff.mp hname
  cases hlead with
  | plain => exact Assignment.ofLine?_append hname raw
  | exported blanks hne hblanks =>
    show Assignment.ofLine? (("export".toList ++ blanks) ++ (name ++ '=' :: raw)) = _
    rw [List.append_assoc, Assignment.ofLine?_export blanks hne hblanks hname]

/-- No text is written in two ways: its reader finds the name and the value, and what is in front of
them is left over. -/
theorem text_injective : Function.Injective text := by
  intro v w htext
  have hparts : (⟨v.name, v.raw⟩ : Assignment) = ⟨w.name, w.raw⟩ := by
    have hread := v.ofLine?_text
    rw [htext, w.ofLine?_text] at hread
    exact (Option.some.inj hread).symm
  obtain ⟨lead, name, raw, hlead, hname⟩ := v
  obtain ⟨rfl, rfl⟩ := Assignment.mk.inj hparts
  obtain rfl : lead = w.lead := List.append_cancel_right htext
  rfl

end Spelling

/-! ## Reading a line -/

namespace Assignment

lemma eq_of_ofPlain? (h : ofPlain? line = some a) : line = a.name ++ '=' :: a.raw := by
  have hline := List.takeWhile_append_dropWhile (p := isNameChar) (l := line)
  unfold ofPlain? at h
  dsimp only at h
  split at h
  · rename_i raw hdrop
    split at h
    · rw [hdrop] at hline
      rw [← Option.some.inj h, hline]
    · cases h
  · cases h

/-- Behind `export` all blanks are left out, of which there is one at least. -/
lemma exists_blanks_of_afterExport? (h : afterExport? line = some rest) : ∃ blanks,
    blanks ≠ [] ∧ (∀ c ∈ blanks, isBlank c) ∧ line = ("export".toList ++ blanks) ++ rest := by
  unfold afterExport? at h
  split at h
  · rename_i c r hexport
    split at h
    · rename_i hc
      have hline : "export".toList ++ c :: r = line :=
        List.isPrefixOf?_eq_some_iff_append_eq.mp hexport
      refine ⟨c :: r.takeWhile isBlank, List.cons_ne_nil _ _, ?_, ?_⟩
      · exact List.forall_mem_cons.mpr ⟨hc, fun d hd => List.mem_takeWhile_imp hd⟩
      · rw [← Option.some.inj h, ← hline, List.append_assoc, List.cons_append, Text.trimStart,
          List.takeWhile_append_dropWhile]
    · cases h
  · cases h

/-- What is read is written. -/
theorem exists_spelling_of_ofLine? (h : ofLine? line = some a) : ∃ w : Spelling, w.text = line := by
  unfold ofLine? at h
  cases hexport : (afterExport? line).bind ofPlain? with
  | none =>
    rw [hexport] at h
    have hname : Identifier a.name := identifier_iff.mpr (isName_of_ofPlain? h)
    exact ⟨⟨[], a.name, a.raw, .plain, hname⟩, (eq_of_ofPlain? h).symm⟩
  | some b =>
    obtain ⟨rest, hrest, hplain⟩ := Option.bind_eq_some_iff.mp hexport
    obtain ⟨blanks, hne, hblanks, hline⟩ := exists_blanks_of_afterExport? hrest
    have hname : Identifier b.name := identifier_iff.mpr (isName_of_ofPlain? hplain)
    refine ⟨⟨"export".toList ++ blanks, b.name, b.raw, .exported blanks hne hblanks, hname⟩, ?_⟩
    rw [hline, eq_of_ofPlain? hplain]
    rfl

end Assignment

/-! ## A line on its own -/

/-- What comes of a line that is read on its own. -/
structure Recognises (process base : Bindings) (line : Text) : Prop where
  /-- It assigns exactly if it is written as an assignment between blanks. -/
  assigns_iff : parse process base line ≠ [] ↔ ∃ w : Spelling, w.text = trim line
  /-- It is written as an assignment in one way at most. -/
  unique : ∀ v w : Spelling, v.text = trim line → w.text = trim line → v = w
  /-- It binds the name that is written, to the value of what is written behind it. -/
  binds : ∀ w : Spelling, w.text = trim line →
    parse process base line = [(w.name, evaluate (scope process base []) (trim w.raw))]
  /-- Any other line assigns nothing. -/
  otherwise : (∀ w : Spelling, w.text ≠ trim line) → parse process base line = []

lemma parse_of_not_mem (h : '\n' ∉ line) (process base : Bindings) :
    parse process base line = (assignmentOf? line).toList.map fun a =>
      (a.name, evaluate (scope process base []) (trim a.raw)) := by
  rw [parse_eq, assignments_of_not_mem h]
  cases assignmentOf? line <;> rfl

/-- Each line is recognised by the grammar. -/
theorem recognises_line (h : '\n' ∉ line) (process base : Bindings) :
    Recognises process base line := by
  have hbinds : ∀ w : Spelling, w.text = trim line →
      parse process base line = [(w.name, evaluate (scope process base []) (trim w.raw))] := by
    intro w hw
    have hread : assignmentOf? line = some ⟨w.name, w.raw⟩ := by
      unfold assignmentOf?
      rw [← hw, w.ofLine?_text]
    rw [parse_of_not_mem h, hread]
    rfl
  have hotherwise : (∀ w : Spelling, w.text ≠ trim line) → parse process base line = [] := by
    intro hnone
    rw [parse_of_not_mem h]
    cases hread : assignmentOf? line with
    | none => rfl
    | some a =>
      obtain ⟨w, hw⟩ := Assignment.exists_spelling_of_ofLine? hread
      exact absurd hw (hnone w)
  refine ⟨⟨?written, ?assigns⟩, ?unique, hbinds, hotherwise⟩
  case written =>
    intro hne
    by_contra hnone
    exact hne (hotherwise fun w hw => hnone ⟨w, hw⟩)
  case assigns =>
    rintro ⟨w, hw⟩
    rw [hbinds w hw]
    exact List.cons_ne_nil _ _
  case unique =>
    intro v w hv hw
    exact Spelling.text_injective (hv.trans hw.symm)

/-- A variable named `export`, whose value starts with an equals sign and refers to a base variable;
and the same line with a blank in front of the equals sign. -/
theorem recognises_line_export :
    '\n' ∉ " export\texport==\"$A\"=' b' # c".toList ∧
    parse [] [("A".toList, "1".toList)] " export\texport==\"$A\"=' b' # c".toList =
      [("export".toList, "=1= b".toList)] ∧
    parse [] [("A".toList, "1".toList)] " export\texport ==\"$A\"=' b' # c".toList = [] := by
  have hline : '\n' ∉ " export\texport==\"$A\"=' b' # c".toList := by decide
  let w : Spelling := ⟨"export\t".toList, "export".toList, "=\"$A\"=' b' # c".toList,
    .exported ['\t'] (by simp) (by simp [isBlank]), identifier_iff.mpr (by decide)⟩
  refine ⟨hline, ?_, by cbv⟩
  rw [(recognises_line hline _ _).binds w (by cbv)]
  cbv

end Caretaker.Environ

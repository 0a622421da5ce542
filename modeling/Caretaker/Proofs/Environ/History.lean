import Caretaker.Proofs.Environ.Handed

/-!
# What comes of the lines of a file

Each variable of a file is as the last line that assigns it has left it: the lines behind that one do
not change it, and its value is made of what the lines above have assigned. So it is the value that
is found if the file ends there.
-/

namespace Caretaker

namespace Text

/-- The first `k` lines of a text, with their ends. -/
def firstLines : ℕ → Text → Text
  | 0, _ => []
  | k + 1, s =>
    match s.dropWhile (· != '\n') with
    | [] => s
    | feed :: r => s.takeWhile (· != '\n') ++ feed :: firstLines k r

lemma firstLines_of_not_mem {l : Text} (h : '\n' ∉ l) (k : ℕ) : firstLines (k + 1) l = l := by
  have hdrop : l.dropWhile (· != '\n') = [] := by
    rw [List.dropWhile_eq_nil_iff]
    exact fun c hc => bne_iff_ne.mpr (ne_of_mem_of_not_mem hc h)
  rw [firstLines, hdrop]

lemma firstLines_append_newline {l : Text} (h : '\n' ∉ l) (k : ℕ) (r : Text) :
    firstLines (k + 1) (l ++ '\n' :: r) = l ++ '\n' :: firstLines k r := by
  have hpos : ∀ c ∈ l, c != '\n' := fun c hc => bne_iff_ne.mpr (ne_of_mem_of_not_mem hc h)
  have hdrop : (l ++ '\n' :: r).dropWhile (· != '\n') = '\n' :: r := by
    rw [List.dropWhile_append_of_pos hpos]
    rfl
  have htake : (l ++ '\n' :: r).takeWhile (· != '\n') = l := by
    rw [List.takeWhile_append_of_pos hpos]
    simp
  rw [firstLines, hdrop, htake]

/-- The first lines of a text are its lines up to there. -/
lemma lines_firstLines (k : ℕ) (s : Text) : lines (firstLines k s) = (lines s).take k := by
  induction k generalizing s with
  | zero => rfl
  | succ k ih =>
    by_cases hmem : '\n' ∈ s
    · obtain ⟨l, r, rfl, hl⟩ := List.eq_append_cons_of_mem hmem
      obtain ⟨first, -, hlines⟩ := exists_first_line hl
      rw [firstLines_append_newline hl, hlines, hlines, ih, List.take_succ_cons]
    · rw [firstLines_of_not_mem hmem]
      by_cases hnil : s = []
      · rw [hnil]
        rfl
      · rw [lines_of_not_mem hmem hnil]
        simp

end Text

namespace Environ

open Text (firstLines trim)

variable {process base vars : Bindings} {content name line : Text} {k : ℕ} {a : Assignment}

/-! ## One line -/

/-- A line binds no name but the one that it assigns. -/
lemma value?_assignLine_of_ne (h : ∀ a, assignmentOf? line = some a → a.name ≠ name) :
    (assignLine process base vars line).value? name = vars.value? name := by
  rw [assignLine_eq]
  cases hline : assignmentOf? line with
  | none => rfl
  | some a =>
    show (vars.set a.name _).value? name = _
    rw [Bindings.value?_set, if_neg (h a hline)]

lemma assignLine_of_assignment (h : assignmentOf? line = some a) :
    assignLine process base vars line = carryOut process base vars a := by
  rw [assignLine_eq, h]

/-! ## Lines behind others -/

lemma value?_foldl_assignLine_of_ne {lines : List Text}
    (h : ∀ line ∈ lines, ∀ a, assignmentOf? line = some a → a.name ≠ name) :
    (lines.foldl (assignLine process base) vars).value? name = vars.value? name := by
  induction lines generalizing vars with
  | nil => rfl
  | cons line lines ih =>
    rw [List.foldl_cons, ih fun l hl => h l (List.mem_cons_of_mem _ hl),
      value?_assignLine_of_ne (h line (List.mem_cons_self ..))]

/-- A file goes on behind its first lines. -/
lemma parse_eq_foldl_drop (process base : Bindings) (content : Text) (k : ℕ) :
    parse process base content =
      ((Text.lines content).drop k).foldl (assignLine process base)
        (parse process base (firstLines k content)) := by
  unfold parse
  rw [Text.lines_firstLines, ← List.foldl_append, List.take_append_drop]

/-- Lines that do not assign a name leave it as the lines above have bound it. -/
theorem value?_parse_firstLines
    (h : ∀ line ∈ (Text.lines content).drop k, ∀ a, assignmentOf? line = some a → a.name ≠ name) :
    (parse process base content).value? name =
      (parse process base (firstLines k content)).value? name := by
  rw [parse_eq_foldl_drop process base content k, value?_foldl_assignLine_of_ne h]

/-- One more line is carried out where the lines above have led. -/
theorem parse_firstLines_succ (h : (Text.lines content)[k]? = some line) :
    parse process base (firstLines (k + 1) content) =
      assignLine process base (parse process base (firstLines k content)) line := by
  unfold parse
  rw [Text.lines_firstLines, Text.lines_firstLines, List.take_add_one, h, List.foldl_append]
  rfl

/-! ## Names -/

/-- The names are bound in the order in which they are first assigned. -/
theorem names_parse (process base : Bindings) (content : Text) :
    (parse process base content).names = ((assignments content).map Assignment.name).eraseDups := by
  rw [parse_eq]
  exact Bindings.names_foldl_set ..

/-! ## The last line that assigns a name -/

/-- Line `k` is the last one of a file that assigns a name, and `a` is its assignment. -/
structure LastAssigns (content name : Text) (k : ℕ) (a : Assignment) : Prop where
  assigns : ∃ line, (Text.lines content)[k]? = some line ∧ assignmentOf? line = some a
  name_eq : a.name = name
  behind : ∀ line ∈ (Text.lines content).drop (k + 1), ∀ b, assignmentOf? line = some b →
    b.name ≠ name

/-- Of lines of which some assign a name, one is the last. -/
lemma exists_last_line {lines : List Text}
    (h : ∃ a ∈ lines.filterMap assignmentOf?, a.name = name) :
    ∃ before line behind a, lines = before ++ line :: behind ∧ assignmentOf? line = some a ∧
      a.name = name ∧ ∀ l ∈ behind, ∀ b, assignmentOf? l = some b → b.name ≠ name := by
  -- Found from the back: the last such line is one of those behind, or else it is the first line.
  induction lines with
  | nil =>
    obtain ⟨a, ha, -⟩ := h
    cases ha
  | cons line lines ih =>
    by_cases hbehind : ∃ a ∈ lines.filterMap assignmentOf?, a.name = name
    · obtain ⟨before, line', behind, a, rfl, hline⟩ := ih hbehind
      exact ⟨line :: before, line', behind, a, rfl, hline⟩
    · have hnone : ∀ l ∈ lines, ∀ b, assignmentOf? l = some b → b.name ≠ name :=
        fun l hl b hb hname => hbehind ⟨b, List.mem_filterMap.mpr ⟨l, hl, hb⟩, hname⟩
      obtain ⟨a, ha, hname⟩ := h
      obtain ⟨l, hl, hla⟩ := List.mem_filterMap.mp ha
      rcases List.mem_cons.mp hl with rfl | hl
      · exact ⟨[], l, lines, a, rfl, hla, hname, hnone⟩
      · exact absurd hname (hnone l hl a hla)

/-- A name that is bound has a line that assigns it last, -/
theorem exists_lastAssigns (h : name ∈ (parse process base content).names) :
    ∃ k a, LastAssigns content name k a := by
  rw [names_parse, List.mem_eraseDups, assignments, List.mem_map] at h
  obtain ⟨before, line, behind, a, hlines, hline, hname, hlast⟩ := exists_last_line h
  refine ⟨before.length, a, ⟨line, by simp [hlines], hline⟩, hname, ?_⟩
  simpa [hlines] using hlast

/-- and the value that this line gives it. -/
theorem LastAssigns.value?_eq (h : LastAssigns content name k a) (process base : Bindings) :
    (parse process base (firstLines (k + 1) content)).value? name =
      some (evaluate (scope process base (parse process base (firstLines k content)))
        (trim a.raw)) := by
  obtain ⟨line, hline, hassignment⟩ := h.assigns
  rw [parse_firstLines_succ hline, assignLine_of_assignment hassignment]
  unfold carryOut
  rw [Bindings.value?_set, if_pos h.name_eq]

/-- The variables of a file, each as its last line has left it. -/
structure Settled (process base : Bindings) (content : Text) (vars : Bindings) : Prop where
  nodup : vars.names.Nodup
  isName : ∀ name ∈ vars.names, isName name
  /-- The names stand in the order of the lines that first assign them. -/
  order : vars.names = ((assignments content).map Assignment.name).eraseDups
  last : ∀ name ∈ vars.names, ∃ k a, LastAssigns content name k a
  /-- The value is the one that the file up to the last line gives; it is made of what the lines above
  that one have assigned. -/
  value : ∀ name k a, LastAssigns content name k a →
    vars.value? name = (parse process base (firstLines (k + 1) content)).value? name ∧
      vars.value? name = some (evaluate
        (scope process base (parse process base (firstLines k content))) (trim a.raw))
  /-- Lines that do not assign a name do not change its value. -/
  stable : ∀ name k, (∀ line ∈ (Text.lines content).drop k, ∀ a, assignmentOf? line = some a →
    a.name ≠ name) → vars.value? name = (parse process base (firstLines k content)).value? name

/-- Each variable of a file is as its last line has left it. -/
theorem settled_parse (process base : Bindings) (content : Text) :
    Settled process base content (parse process base content) where
  nodup := (isEnvironment_parse process base content).nodup
  isName := by
    intro name hname
    rw [names_parse, List.mem_eraseDups] at hname
    obtain ⟨a, ha, rfl⟩ := List.mem_map.mp hname
    exact isName_of_mem_assignments ha
  order := names_parse process base content
  last _ := exists_lastAssigns
  value name k a h := by
    rw [← h.value?_eq]
    exact ⟨value?_parse_firstLines h.behind, value?_parse_firstLines h.behind⟩
  stable _ _ := value?_parse_firstLines

/-- A variable that is assigned again keeps its place, and what was made of its old value stays. -/
example : parse [] [] "A=1\nB=$A\nA=${A}2\nC=$A".toList =
    [(['A'], ['1', '2']), (['B'], ['1']), (['C'], ['1', '2'])] := by
  cbv

end Environ
end Caretaker

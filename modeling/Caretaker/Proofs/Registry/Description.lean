import Caretaker.Proofs.Text.Trim
import Caretaker.Registry

/-!
# Descriptions of tasks

A script is to be described by its first comment below the line that names its interpreter: by what
stands behind the marks and blanks of the comment. It is described by its first line that is not
blank, so that code above the first comment hides it; and a mark that follows on marks and blanks is
taken for text. Where several lines on top name an interpreter, all of them are passed over.
-/

namespace Caretaker.Task

open Text (isBlank trim trimStart trimEnd)

variable {content line description : Text} {lines : List Text}

/-! ## The first comment -/

/-- Whether a line without blanks around it is a comment. -/
def isComment (line : Text) : Bool := line.head? == some '#'

/-- What stands behind all marks and blanks of a comment, without the blanks at its end. -/
def commentText (line : Text) : Text := trimEnd (line.dropWhile fun c => c == '#' || isBlank c)

/-- A description that is empty is none. -/
def unlessEmpty (t : Text) : Option Text := if t.isEmpty then none else some t

/-- The description that lines are to give: the text of the first comment among them. -/
def wanted? (lines : List Text) : Option Text :=
  ((lines.map trim).find? isComment).bind fun line => unlessEmpty (commentText line)

lemma unlessEmpty_eq_some_iff {t : Text} :
    unlessEmpty t = some description ↔ t = description ∧ description ≠ [] := by
  cases t with
  | nil => simp [unlessEmpty, eq_comm]
  | cons c t =>
    simp only [unlessEmpty, List.isEmpty_cons, Bool.false_eq_true, if_false, Option.some.injEq]
    constructor
    · rintro rfl
      exact ⟨rfl, List.cons_ne_nil c t⟩
    · exact And.left

lemma unlessEmpty_injective : Function.Injective unlessEmpty := by
  intro s t h
  cases s <;> cases t <;> simp_all [unlessEmpty]

/-! ## The first line that is not blank -/

/-- The first line that is not blank, without the blanks around it. -/
def firstLine? (lines : List Text) : Option Text := (lines.map trim).find? (!·.isEmpty)

/-- What stands behind the first marks of a comment, without the blanks around it. -/
def markedText (line : Text) : Text := trim (line.dropWhile (· == '#'))

/-- The description that lines give: the text of the first one that is not blank, if that is a
comment. -/
def given? (lines : List Text) : Option Text :=
  (firstLine? lines).bind fun line =>
    if isComment line then unlessEmpty (markedText line) else none

/-- A description is the text of the first line that is not blank, if that is a comment. -/
lemma given?_eq_some_iff : given? lines = some description ↔
    ∃ line, firstLine? lines = some line ∧ isComment line ∧ markedText line = description ∧
      description ≠ [] := by
  simp only [given?, Option.bind_eq_some_iff, Option.ite_none_right_eq_some,
    unlessEmpty_eq_some_iff]

lemma find?_isComment_of_none (h : firstLine? lines = none) :
    (lines.map trim).find? isComment = none := by
  rw [List.find?_eq_none]
  intro line hline
  have hempty := List.find?_eq_none.mp h line hline
  cases line with
  | nil => exact Bool.false_ne_true
  | cons c l => exact absurd rfl hempty

/-- If the first line that is not blank is a comment, then it is the first comment. -/
lemma find?_isComment_of_first (h : firstLine? lines = some line) (hcomment : isComment line) :
    (lines.map trim).find? isComment = some line := by
  obtain ⟨-, before, behind, hlines, hblank⟩ := List.find?_eq_some_iff_append.mp h
  refine List.find?_eq_some_iff_append.mpr ⟨hcomment, before, behind, hlines, ?_⟩
  intro l hl
  obtain rfl : l = [] := by simpa using hblank l hl
  rfl

/-! ## Marks -/

/-- A comment whose first marks are followed by blanks and one more mark. -/
def MarkedAgain (line : Text) : Prop := ∃ marks blanks rest,
  line = marks ++ (blanks ++ '#' :: rest) ∧ (marks ≠ [] ∧ ∀ c ∈ marks, c = '#') ∧
    (blanks ≠ [] ∧ ∀ c ∈ blanks, isBlank c)

lemma not_isBlank_mark : ¬ isBlank '#' := by decide

/-- A mark that is left in front has blanks in front of it, since it would be one of the first marks
otherwise. -/
lemma markedAgain_of_head? (hcomment : isComment line)
    (h : (trimStart (line.dropWhile (· == '#'))).head? = some '#') : MarkedAgain line := by
  obtain ⟨rest, hrest⟩ := List.head?_eq_some_iff.mp h
  have hsplit : (line.dropWhile (· == '#')).takeWhile isBlank ++ '#' :: rest =
      line.dropWhile (· == '#') := by
    rw [← hrest, trimStart, List.takeWhile_append_dropWhile]
  refine ⟨line.takeWhile (· == '#'), (line.dropWhile (· == '#')).takeWhile isBlank, rest, ?split,
    ⟨?marks, ?mark⟩, ?blanks, ?blank⟩
  case split => rw [hsplit, List.takeWhile_append_dropWhile]
  case marks =>
    obtain ⟨l, rfl⟩ := List.head?_eq_some_iff.mp (eq_of_beq hcomment)
    exact List.cons_ne_nil _ _
  case mark => exact fun c hc => eq_of_beq (List.mem_takeWhile_imp (p := (· == '#')) hc)
  case blanks =>
    intro hnone
    have hhead := List.head?_dropWhile_not (· == '#') line
    rw [← hsplit, hnone] at hhead
    cases hhead
  case blank => exact fun c hc => List.mem_takeWhile_imp hc

lemma MarkedAgain.head?_eq (h : MarkedAgain line) :
    (trimStart (line.dropWhile (· == '#'))).head? = some '#' := by
  obtain ⟨marks, blanks, rest, rfl, ⟨-, hmarks⟩, hne, hblanks⟩ := h
  have hfirst : (blanks ++ '#' :: rest).dropWhile (· == '#') = blanks ++ '#' :: rest := by
    cases blanks with
    | nil => exact absurd rfl hne
    | cons b blanks =>
      refine List.dropWhile_cons_of_neg fun hb => not_isBlank_mark ?_
      rw [← eq_of_beq hb]
      exact hblanks b (List.mem_cons_self ..)
  rw [List.dropWhile_append_of_pos fun c hc => beq_iff_eq.mpr (hmarks c hc), hfirst, trimStart,
    List.dropWhile_append_of_pos hblanks, List.dropWhile_cons_of_neg not_isBlank_mark]
  rfl

/-- The text of a comment starts with a mark exactly if the comment is marked again. -/
lemma head?_markedText_iff (hcomment : isComment line) :
    (markedText line).head? = some '#' ↔ MarkedAgain line := by
  unfold markedText trim
  rw [Text.head?_trimEnd_iff not_isBlank_mark]
  exact ⟨markedAgain_of_head? hcomment, MarkedAgain.head?_eq⟩

/-- What the first test takes away, the second one would. -/
lemma dropWhile_dropWhile_of_imp {p q : Char → Bool} (h : ∀ c, q c → p c) (s : Text) :
    (s.dropWhile q).dropWhile p = s.dropWhile p := by
  induction s with
  | nil => rfl
  | cons c s ih =>
    by_cases hc : q c
    · rw [List.dropWhile_cons_of_pos hc, List.dropWhile_cons_of_pos (h c hc), ih]
    · rw [List.dropWhile_cons_of_neg hc]

/-- Taking all marks and blanks away takes the first marks away and the blanks behind them. -/
lemma commentText_eq (line : Text) : commentText line =
    trimEnd ((trimStart (line.dropWhile (· == '#'))).dropWhile fun c => c == '#' || isBlank c) := by
  unfold commentText trimStart
  rw [dropWhile_dropWhile_of_imp fun c hc => by simp [hc],
    dropWhile_dropWhile_of_imp fun c hc => by simp [hc]]

lemma head?_commentText_ne (line : Text) : (commentText line).head? ≠ some '#' := by
  intro h
  have hhead := List.head?_dropWhile_not (fun c => c == '#' || isBlank c) line
  rw [(Text.head?_trimEnd_iff not_isBlank_mark).mp h] at hhead
  cases hhead

/-- A comment has the text that it is to have, unless it is marked again. -/
theorem commentText_eq_markedText_iff (hcomment : isComment line) :
    commentText line = markedText line ↔ ¬ MarkedAgain line := by
  rw [← head?_markedText_iff hcomment]
  constructor
  · intro heq
    rw [← heq]
    exact head?_commentText_ne line
  · intro hmark
    rw [commentText_eq]
    unfold markedText trim at hmark ⊢
    rw [Text.head?_trimEnd_iff not_isBlank_mark] at hmark
    cases htext : trimStart (line.dropWhile (· == '#')) with
    | nil => rfl
    | cons c t =>
      rw [htext] at hmark
      have hblank : ¬ isBlank c := Text.not_isBlank_of_head?_trimStart (by rw [htext]; rfl)
      have hc : c ≠ '#' := fun heq => hmark (congrArg some heq)
      rw [List.dropWhile_cons_of_neg (by simp [hc, hblank])]

/-! ## Lines that give another description -/

/-- The ways in which lines give another description than they are to give. -/
inductive Misleads (lines : List Text) : Prop where
  /-- Code stands above the first comment, and the comment has a text. -/
  | code (line : Text) (hfirst : firstLine? lines = some line) (hcode : ¬ isComment line)
      (htext : wanted? lines ≠ none)
  /-- The first comment is marked again, and the text starts with a mark. -/
  | marks (line : Text) (hfirst : firstLine? lines = some line) (hcomment : isComment line)
      (hagain : MarkedAgain line)

/-- A comment that comes first is to describe the lines, -/
lemma wanted?_of_isComment (hfirst : firstLine? lines = some line) (hcomment : isComment line) :
    wanted? lines = unlessEmpty (commentText line) := by
  rw [wanted?, find?_isComment_of_first hfirst hcomment, Option.bind_some]

/-- and it describes them. -/
lemma given?_of_isComment (hfirst : firstLine? lines = some line) (hcomment : isComment line) :
    given? lines = unlessEmpty (markedText line) := by
  rw [given?, hfirst, Option.bind_some, if_pos hcomment]

/-- Code that comes first describes nothing. -/
lemma given?_of_not_isComment (hfirst : firstLine? lines = some line)
    (hcode : ¬ isComment line) : given? lines = none := by
  rw [given?, hfirst, Option.bind_some, if_neg hcode]

/-- Lines that mislead give another description than they are to give, -/
theorem Misleads.given?_ne (h : Misleads lines) : given? lines ≠ wanted? lines := by
  cases h with
  | code line hfirst hcode htext =>
    rw [given?_of_not_isComment hfirst hcode]
    exact htext.symm
  | marks line hfirst hcomment hagain =>
    rw [given?_of_isComment hfirst hcomment, wanted?_of_isComment hfirst hcomment]
    intro heq
    have htext := unlessEmpty_injective heq
    exact (commentText_eq_markedText_iff hcomment).mp htext.symm hagain

/-- and only such lines do. -/
theorem misleads_of_given?_ne (h : given? lines ≠ wanted? lines) : Misleads lines := by
  cases hfirst : firstLine? lines with
  | none =>
    refine absurd ?_ h
    rw [given?, hfirst, wanted?, find?_isComment_of_none hfirst]
    rfl
  | some line =>
    by_cases hcomment : isComment line
    · refine .marks line hfirst hcomment ?_
      by_contra honce
      refine h ?_
      rw [given?_of_isComment hfirst hcomment, wanted?_of_isComment hfirst hcomment,
        (commentText_eq_markedText_iff hcomment).mpr honce]
    · refine .code line hfirst hcomment ?_
      rw [given?_of_not_isComment hfirst hcomment] at h
      exact h.symm

/-! ## Lines that name interpreters -/

/-- Whether a line names the interpreter of a script, if it stands on top. -/
def namesInterpreter (line : Text) : Bool := "#!".toList.isPrefixOf line

/-- The lines of a script, but for the first one if that names its interpreter. -/
def body (content : Text) : List Text :=
  match Text.lines content with
  | [] => []
  | line :: lines => if namesInterpreter line then lines else line :: lines

/-- The lines of a script below all on top that name an interpreter. -/
def below (content : Text) : List Text := (Text.lines content).dropWhile namesInterpreter

/-- A script is described by the lines below all that name an interpreter. -/
theorem describe_eq (content : Text) : describe content = given? (below content) := by
  unfold describe given? firstLine? below namesInterpreter
  dsimp only
  split
  · rename_i l hfirst
    have hcomment : isComment ('#' :: l) := rfl
    rw [hfirst, Option.bind_some, if_pos hcomment]
    rfl
  · rename_i hnot
    symm
    rw [Option.bind_eq_none_iff]
    intro line hfirst
    refine if_neg fun hcomment => ?_
    obtain ⟨l, rfl⟩ := List.head?_eq_some_iff.mp (eq_of_beq hcomment)
    exact hnot l hfirst

/-- A comment that has a text and is not marked again. -/
structure PlainComment (line : Text) : Prop where
  comment : isComment line
  once : ¬ MarkedAgain line
  text : commentText line ≠ []

/-- Where it is a comment, a line that names an interpreter is a plain one. -/
lemma plainComment_of_namesInterpreter (h : namesInterpreter line) :
    PlainComment (trim line) := by
  obtain ⟨r, rfl⟩ := List.isPrefixOf_iff_prefix.mp h
  have hmark : ¬ isBlank '!' := by decide
  have htrim : trim ("#!".toList ++ r) = '#' :: '!' :: trimEnd r :=
    Text.trimEnd_append_cons ['#'] r hmark
  have hcomment : isComment ('#' :: '!' :: trimEnd r) := rfl
  rw [htrim]
  refine ⟨hcomment, ?once, ?text⟩
  case once =>
    rw [← head?_markedText_iff hcomment]
    show (trimEnd ('!' :: trimEnd r)).head? ≠ some '#'
    rw [Text.trimEnd_cons _ hmark]
    exact nofun
  case text =>
    show trimEnd ('!' :: trimEnd r) ≠ []
    rw [Text.trimEnd_cons _ hmark]
    exact List.cons_ne_nil _ _

/-- The two first lines name interpreters, or one at most is passed over. -/
lemma below_cases (content : Text) :
    (∃ first second rest, Text.lines content = first :: second :: rest ∧
      namesInterpreter first ∧ namesInterpreter second) ∨ below content = body content := by
  unfold below body
  cases hlines : Text.lines content with
  | nil => exact .inr rfl
  | cons first lines =>
    by_cases hfirst : namesInterpreter first
    · cases lines with
      | nil => exact .inr (by simp [hfirst])
      | cons second rest =>
        by_cases hsecond : namesInterpreter second
        · exact .inl ⟨first, second, rest, rfl, hfirst, hsecond⟩
        · exact .inr (by simp [hfirst, hsecond])
    · exact .inr (by simp [hfirst])

/-- A second line that names an interpreter is the first comment. -/
lemma firstLine?_of_interpreters {first second : Text}
    (hlines : Text.lines content = first :: second :: lines) (hfirst : namesInterpreter first)
    (hsecond : namesInterpreter second) :
    firstLine? (body content) = some (trim second) ∧ PlainComment (trim second) := by
  have hplain := plainComment_of_namesInterpreter hsecond
  have hbody : body content = second :: lines := by
    unfold body
    rw [hlines]
    exact if_pos hfirst
  have hne : (trim second).isEmpty = false := by
    obtain ⟨l, hl⟩ := List.head?_eq_some_iff.mp (eq_of_beq hplain.comment)
    rw [hl]
    rfl
  refine ⟨?_, hplain⟩
  rw [hbody, firstLine?, List.map_cons, List.find?_cons_of_pos (by simp [hne])]

lemma PlainComment.wanted?_eq (h : PlainComment line) (hfirst : firstLine? lines = some line) :
    wanted? lines = some (commentText line) := by
  rw [wanted?_of_isComment hfirst h.comment, unlessEmpty_eq_some_iff]
  exact ⟨rfl, h.text⟩

lemma PlainComment.not_misleads (h : PlainComment line) (hfirst : firstLine? lines = some line) :
    ¬ Misleads lines := by
  intro hmisleads
  cases hmisleads with
  | code line' hfirst' hcode =>
    obtain rfl := Option.some.inj (hfirst.symm.trans hfirst')
    exact hcode h.comment
  | marks line' hfirst' _ hagain =>
    obtain rfl := Option.some.inj (hfirst.symm.trans hfirst')
    exact h.once hagain

/-! ## Scripts with another description -/

/-- The description that a script is to have: that of the lines below the one that names its
interpreter. -/
def documented (content : Text) : Option Text := wanted? (body content)

/-- The ways in which a script has another description than it is to have. -/
inductive Departs (content : Text) : Prop where
  /-- Its lines mislead. -/
  | lines (hlines : Misleads (body content))
  /-- A second line names an interpreter, which makes it a comment. It is passed over as well, and
  the lines below it do not happen to give the same text. -/
  | interpreters (first second : Text) (rest : List Text)
      (hlines : Text.lines content = first :: second :: rest) (hfirst : namesInterpreter first)
      (hsecond : namesInterpreter second)
      (htext : given? (below content) ≠ some (commentText (trim second)))

/-- A script that departs has another description than it is to have, -/
theorem Departs.describe_ne (h : Departs content) : describe content ≠ documented content := by
  cases h with
  | lines hmisleads =>
    have hbelow : below content = body content := by
      refine (below_cases content).resolve_left ?_
      rintro ⟨first, second, rest, hlines, hfirst, hsecond⟩
      -- then the body starts with a comment that has its text
      obtain ⟨hline, hplain⟩ := firstLine?_of_interpreters hlines hfirst hsecond
      exact hplain.not_misleads hline hmisleads
    rw [describe_eq, hbelow]
    exact hmisleads.given?_ne
  | interpreters first second rest hlines hfirst hsecond htext =>
    obtain ⟨hline, hplain⟩ := firstLine?_of_interpreters hlines hfirst hsecond
    rwa [describe_eq, documented, hplain.wanted?_eq hline]

/-- and only such a script has. -/
theorem departs_of_describe_ne (h : describe content ≠ documented content) : Departs content := by
  rcases below_cases content with ⟨first, second, rest, hlines, hfirst, hsecond⟩ | hbelow
  · obtain ⟨hline, hplain⟩ := firstLine?_of_interpreters hlines hfirst hsecond
    rw [describe_eq, documented, hplain.wanted?_eq hline] at h
    exact .interpreters first second rest hlines hfirst hsecond h
  · rw [describe_eq, hbelow] at h
    exact .lines (misleads_of_given?_ne h)

/-- What the description of a script has to do with the one that it is to have. -/
structure Described (content : Text) (found : Option Text) : Prop where
  /-- It is another one exactly in these cases. -/
  differs_iff : found ≠ documented content ↔ Departs content
  /-- Of the lines below all on top that name interpreters, it is exactly if they mislead. -/
  misleads_iff : found ≠ wanted? (below content) ↔ Misleads (below content)
  /-- There is none exactly if the first of these lines that is not blank is no comment, or an empty
  one. -/
  none_iff : found = none ↔
    ∀ line, firstLine? (below content) = some line → isComment line → markedText line = []
  /-- It is not empty, no blanks stand around it, -/
  proper : ∀ d, found = some d → d ≠ [] ∧ Text.Tight d
  /-- and it starts with a mark exactly if the comment is marked again. -/
  mark_iff : ∀ d, found = some d → ∃ line, firstLine? (below content) = some line ∧
    isComment line ∧ (d.head? = some '#' ↔ MarkedAgain line)

/-- Every script is described by its first comment, unless it departs in one of these ways. -/
theorem described_describe (content : Text) : Described content (describe content) where
  differs_iff := ⟨departs_of_describe_ne, Departs.describe_ne⟩
  misleads_iff := by
    rw [describe_eq]
    exact ⟨misleads_of_given?_ne, Misleads.given?_ne⟩
  none_iff := by
    rw [describe_eq, Option.eq_none_iff_forall_ne_some]
    constructor
    · intro hnone line hfirst hcomment
      by_contra hne
      exact hnone _ (given?_eq_some_iff.mpr ⟨line, hfirst, hcomment, rfl, hne⟩)
    · intro hempty d hd
      obtain ⟨line, hfirst, hcomment, rfl, hne⟩ := given?_eq_some_iff.mp hd
      exact hne (hempty line hfirst hcomment)
  proper := by
    intro d hd
    rw [describe_eq] at hd
    obtain ⟨line, -, -, rfl, hne⟩ := given?_eq_some_iff.mp hd
    exact ⟨hne, Text.tight_trim _⟩
  mark_iff := by
    intro d hd
    rw [describe_eq] at hd
    obtain ⟨line, hfirst, hcomment, rfl, -⟩ := given?_eq_some_iff.mp hd
    exact ⟨line, hfirst, hcomment, head?_markedText_iff hcomment⟩

/-- Code above the first comment, and marks that follow on a mark. -/
theorem described_describe_departing :
    Departs "#!/bin/sh\nset -e\n# Desc\n".toList ∧
    describe "#!/bin/sh\nset -e\n# Desc\n".toList = none ∧
    documented "#!/bin/sh\nset -e\n# Desc\n".toList = some "Desc".toList ∧
    Departs "#!/bin/sh\n\n## # Desc\n".toList ∧
    describe "#!/bin/sh\n\n## # Desc\n".toList = some "# Desc".toList ∧
    documented "#!/bin/sh\n\n## # Desc\n".toList = some "Desc".toList := by
  have hcode : describe "#!/bin/sh\nset -e\n# Desc\n".toList = none := by cbv
  have hcode' : documented "#!/bin/sh\nset -e\n# Desc\n".toList = some "Desc".toList := by cbv
  have hmarks : describe "#!/bin/sh\n\n## # Desc\n".toList = some "# Desc".toList := by cbv
  have hmarks' : documented "#!/bin/sh\n\n## # Desc\n".toList = some "Desc".toList := by cbv
  refine ⟨(described_describe _).differs_iff.mp ?_, hcode, hcode',
    (described_describe _).differs_iff.mp ?_, hmarks, hmarks'⟩
  · rw [hcode, hcode']
    exact nofun
  · rw [hmarks, hmarks']
    decide

/-- Of two lines that name an interpreter the second one is passed over as well. -/
example : describe "#!/bin/sh\n#! -e\n# Desc\n".toList = some "Desc".toList ∧
    documented "#!/bin/sh\n#! -e\n# Desc\n".toList = some "! -e".toList := by
  constructor <;> cbv

end Caretaker.Task

import Caretaker.Proofs.Bindings
import Caretaker.Proofs.Environ.Assignments
import Caretaker.Proofs.Environ.Segments
import Mathlib

/-!
# Texts that are read as they were written

Any text of one line can be written as a value that is read as just this text: cut into stretches,
each of them in quotes that can hold it. A file of such bindings gives each name its last text,
whatever the variables of the process are.

Quotes are taken away and dollar signs are put in by two scans, one after the other. What ties them
together is that a stretch leaves a template in which every dollar sign has its backslash, and that
no stretch ends in a backslash which could take the dollar sign of the next.
-/

namespace Caretaker.Environ

open Text (Tight)

variable {find : Lookup} {c : Char} {t u : Text}

/-! ## Dollar signs -/

/-- Put a backslash in front of each dollar sign. -/
def escapeDollars (t : Text) : Text := t.flatMap fun c => if c = '$' then ['\\', '$'] else [c]

lemma escapeDollars_cons (c : Char) (t : Text) : escapeDollars (c :: t) =
    (if c = '$' then ['\\', '$'] else [c]) ++ escapeDollars t := List.flatMap_cons

lemma escapeDollars_of_not_mem (h : '$' ∉ t) : escapeDollars t = t := by
  induction t with
  | nil => rfl
  | cons c t ih =>
    obtain ⟨hc, ht⟩ := not_or.mp (mt List.mem_cons.mpr h)
    rw [escapeDollars_cons, if_neg (Ne.symm hc), ih ht]
    rfl

/-- Escaping ends no text in a backslash that did not end in one. -/
lemma getLast?_escapeDollars (h : t.getLast? ≠ some '\\') :
    (escapeDollars t).getLast? ≠ some '\\' := by
  obtain rfl | ⟨t, c, rfl⟩ := t.eq_nil_or_concat'
  · exact nofun
  · have hc : c ≠ '\\' := by simpa using h
    unfold escapeDollars
    rw [List.flatMap_append, List.flatMap_singleton]
    split_ifs with hdollar <;> simp [hc]

/-- An escaped text stands for itself, whatever follows it. -/
lemma expand_escapeDollars (h : t.getLast? ≠ some '\\') (u : Text) :
    expand find (escapeDollars t ++ u) = t ++ expand find u := by
  induction t with
  | nil => rfl
  | cons c t ih =>
    have hlast : t.getLast? ≠ some '\\' := by
      cases t with
      | nil => exact nofun
      | cons d t => exact h
    rw [escapeDollars_cons]
    split_ifs with hdollar
    · rw [hdollar]
      show expand find ('\\' :: '$' :: (escapeDollars t ++ u)) = _
      rw [expand_escaped, ih hlast]
      rfl
    · have hliteral : Literal c (escapeDollars t ++ u) := by
        refine ⟨?_, fun hc => absurd hc hdollar⟩
        -- behind a backslash more text follows, and an escaped text starts with no dollar sign
        rintro rfl hhead
        cases t with
        | nil => exact h rfl
        | cons d t =>
          rw [escapeDollars_cons] at hhead
          split_ifs at hhead with hd
          · exact absurd (Option.some.inj hhead) (by decide)
          · exact hd (Option.some.inj hhead)
      show expand find (c :: (escapeDollars t ++ u)) = _
      rw [expand_literal hliteral, ih hlast]
      rfl

/-! ## Stretches -/

/-- Whether a text can stand between quotes of a kind, as far as escapes do not help. -/
def Quote.Admits : Quote → Text → Prop
  | .single, t => '\'' ∉ t
  | .double, t => t.getLast? ≠ some '\\'
  | .bare, t => ∀ c ∈ t, ¬ Text.isBlank c ∧ c ≠ '\'' ∧ c ≠ '"' ∧ c ≠ '$' ∧ c ≠ '\\'

instance (q : Quote) (t : Text) : Decidable (q.Admits t) :=
  match q with
  | .single => inferInstanceAs (Decidable ('\'' ∉ t))
  | .double => inferInstanceAs (Decidable (t.getLast? ≠ some '\\'))
  | .bare => List.decidableBAll _ t

/-- A stretch of a text, and the quotes in which it is written. -/
structure Stretch where
  quote : Quote
  text : Text
  oneLine : '\n' ∉ text
  admitted : quote.Admits text

namespace Stretch

/-- The segment that stands for a stretch. Between double quotes dollar signs are escaped, and the
double quotes themselves are when the segment is written. -/
def segment (s : Stretch) : Segment :=
  match s.quote with
  | .single => .single s.text
  | .double => .double (escapeDollars s.text)
  | .bare => .bare s.text

lemma admitted_segment (s : Stretch) : s.segment.Admitted := by
  obtain ⟨quote, text, -, hadmits⟩ := s
  cases quote with
  | single => exact hadmits
  | double => exact getLast?_escapeDollars hadmits
  | bare =>
    intro c hc
    obtain ⟨hblank, hsingle, hdouble, -, -⟩ := hadmits c hc
    exact ⟨hblank, hsingle, hdouble⟩

/-- A stretch is either verbatim, or a template in which each dollar sign is escaped. -/
lemma piece_segment (s : Stretch) : s.segment.piece = .verbatim s.text ∨
    s.segment.piece = .template (escapeDollars s.text) ∧ s.text.getLast? ≠ some '\\' := by
  obtain ⟨quote, text, -, hadmits⟩ := s
  cases quote with
  | single => exact Or.inl rfl
  | double => exact Or.inr ⟨rfl, hadmits⟩
  | bare =>
    have hdollar : '$' ∉ text := fun h => (hadmits _ h).2.2.2.1 rfl
    have hbackslash : text.getLast? ≠ some '\\' :=
      fun h => (hadmits _ (List.mem_of_getLast? h)).2.2.2.2 rfl
    refine Or.inr ⟨?_, hbackslash⟩
    show Piece.template text = .template (escapeDollars text)
    rw [escapeDollars_of_not_mem hdollar]

/-! ## What is written -/

/-- What is written for a stretch has no blanks around it, -/
lemma tight_write (s : Stretch) : Tight s.segment.write := by
  have hquoted : ∀ (q : Char) (t : Text), ¬ Text.isBlank q → Tight (q :: (t ++ [q])) := by
    intro q t hq
    have hmark : Tight [q] := Text.tight_of_forall (by simpa using hq)
    exact hmark.between (by simp) hmark (by simp) t
  obtain ⟨quote, text, -, hadmits⟩ := s
  cases quote with
  | single => exact hquoted '\'' text (by decide)
  | double => exact hquoted '"' _ (by decide)
  | bare => exact Text.tight_of_forall fun c hc => (hadmits c hc).1

/-- and no line feed in it. -/
lemma newline_not_mem_write (s : Stretch) : '\n' ∉ s.segment.write := by
  have hescape : ∀ (d : Char) (t : Text), '\n' ≠ d → '\n' ∉ t →
      '\n' ∉ t.flatMap fun c => if c = d then ['\\', d] else [c] := by
    intro d t hd ht hmem
    obtain ⟨c, hc, hin⟩ := List.mem_flatMap.mp hmem
    split_ifs at hin with h
    · simp [hd] at hin
    · rw [List.mem_singleton] at hin
      exact ht (hin ▸ hc)
  obtain ⟨quote, text, hline, -⟩ := s
  cases quote with
  | single => simp [segment, Segment.write, hline]
  | double =>
    have htext : '\n' ∉ escapeQuotes (escapeDollars text) :=
      hescape '"' _ (by decide) (hescape '$' text (by decide) hline)
    simp [segment, Segment.write, htext]
  | bare => exact hline

end Stretch

/-- How a text that is cut into stretches is written. -/
def writeStretches (stretches : List Stretch) : Text := writeAll (stretches.map Stretch.segment)

/-- The text that is cut into stretches. -/
def textOf (stretches : List Stretch) : Text := stretches.flatMap Stretch.text

variable {s : Stretch} {stretches : List Stretch}

lemma writeStretches_cons (s : Stretch) (stretches : List Stretch) :
    writeStretches (s :: stretches) = s.segment.write ++ writeStretches stretches := by
  unfold writeStretches writeAll
  rw [List.map_cons, List.flatMap_cons]

lemma tight_writeStretches (stretches : List Stretch) : Tight (writeStretches stretches) := by
  induction stretches with
  | nil => exact Text.tight_of_forall fun c hc => absurd hc List.not_mem_nil
  | cons s stretches ih =>
    rw [writeStretches_cons]
    exact s.tight_write.append ih

lemma newline_not_mem_writeStretches (stretches : List Stretch) :
    '\n' ∉ writeStretches stretches := by
  induction stretches with
  | nil => exact List.not_mem_nil
  | cons s stretches ih =>
    rw [writeStretches_cons, List.mem_append, not_or]
    exact ⟨s.newline_not_mem_write, ih⟩

/-- A text that is cut into stretches is read as it was, in every scope. -/
theorem evaluate_writeStretches (find : Lookup) (stretches : List Stretch) :
    evaluate find (writeStretches stretches) = textOf stretches := by
  have hadmitted : ∀ stretches : List Stretch,
      ∀ s ∈ stretches.map Stretch.segment, s.Admitted := by
    intro stretches s hs
    obtain ⟨s', -, rfl⟩ := List.mem_map.mp hs
    exact s'.admitted_segment
  unfold writeStretches textOf
  induction stretches with
  | nil => simp [writeAll, evaluate, pieces, unquote_bare_nil, Piece.value, expand_nil]
  | cons s stretches ih =>
    have hcons := hadmitted (s :: stretches)
    rw [List.map_cons] at hcons ⊢
    rw [List.flatMap_cons, ← ih]
    rcases s.piece_segment with hpiece | ⟨hpiece, hlast⟩
    · exact evaluate_cons_of_verbatim hcons hpiece
    · rw [evaluate_cons_of_template hcons hpiece, evaluate_writeAll (hadmitted stretches),
        expand_escapeDollars hlast, List.append_assoc]

/-! ## Files of bindings -/

/-- A name that is bound to a text, as it is written on a line. -/
structure WrittenBinding where
  exported : Bool
  name : Text
  stretches : List Stretch
  proper : isName name

namespace WrittenBinding

/-- The text to which the name is bound. -/
def text (b : WrittenBinding) : Text := textOf b.stretches

/-- The line on which the binding is written. -/
def line (b : WrittenBinding) : Text :=
  (if b.exported then "export ".toList else []) ++ (b.name ++ '=' :: writeStretches b.stretches)

lemma newline_not_mem_line (b : WrittenBinding) : '\n' ∉ b.line := by
  have hname : '\n' ∉ b.name := by
    intro h
    exact absurd (isNameChar_of_mem b.proper '\n' h) (by decide)
  have hvalue := newline_not_mem_writeStretches b.stretches
  unfold line
  split_ifs <;> simp [hname, hvalue]

lemma tight_line (b : WrittenBinding) : Tight b.line := by
  have hname : Tight b.name := tight_of_isName b.proper
  have hequals : Tight ['='] :=
    Text.tight_of_forall (List.forall_mem_singleton.mpr (by decide))
  have hplain : Tight (b.name ++ '=' :: writeStretches b.stretches) :=
    hname.append (hequals.append (tight_writeStretches b.stretches))
  unfold line
  split_ifs with hexported
  · have hexport : Tight "export".toList := tight_of_isName (by decide)
    exact hexport.between (by simp) hplain (by simp) [' ']
  · exact hplain

lemma assignmentOf?_line (b : WrittenBinding) :
    assignmentOf? b.line = some ⟨b.name, writeStretches b.stretches⟩ := by
  unfold assignmentOf?
  rw [Text.trim_eq_self b.tight_line]
  unfold line
  split_ifs with hexported
  · exact Assignment.ofLine?_export [' '] (by simp) (by simp [Text.isBlank]) b.proper _
  · exact Assignment.ofLine?_append b.proper _

/-- Carrying out the assignment of a line binds the name to the text. -/
lemma carryOut_line (b : WrittenBinding) (process base vars : Bindings) :
    carryOut process base vars ⟨b.name, writeStretches b.stretches⟩ = vars.set b.name b.text := by
  unfold carryOut text
  rw [Text.trim_eq_self (tight_writeStretches b.stretches), evaluate_writeStretches]

end WrittenBinding

/-- A file of bindings, each on its own line. The last line may be left without a line feed. -/
def writeFile (ended : Bool) : List WrittenBinding → Text
  | [] => []
  | [b] => b.line ++ if ended then ['\n'] else []
  | b :: b' :: file => b.line ++ '\n' :: writeFile ended (b' :: file)

/-- A file of bindings is read as one assignment for each. -/
lemma assignments_writeFile (ended : Bool) (file : List WrittenBinding) :
    assignments (writeFile ended file) =
      file.map fun b => ⟨b.name, writeStretches b.stretches⟩ := by
  have hline : ∀ b : WrittenBinding,
      assignments b.line = [⟨b.name, writeStretches b.stretches⟩] := by
    intro b
    rw [assignments_of_not_mem b.newline_not_mem_line, b.assignmentOf?_line]
    rfl
  induction file using writeFile.induct with
  | case1 => rfl
  | case2 b =>
    rw [writeFile]
    cases ended with
    | false => simpa using hline b
    | true =>
      show assignments (b.line ++ '\n' :: []) = _
      rw [assignments_append_newline, hline]
      rfl
  | case3 b b' file ih =>
    rw [writeFile, assignments_append_newline, hline, ih]
    rfl

/-- A file of bindings is read as the bindings, one layered on the other. -/
theorem parse_writeFile_eq (process base : Bindings) (ended : Bool) (file : List WrittenBinding) :
    parse process base (writeFile ended file) =
      Bindings.overlay [] (file.map fun b => (b.name, b.text)) := by
  rw [parse_eq, assignments_writeFile, List.foldl_map]
  unfold Bindings.overlay
  rw [List.foldl_map]
  congr 1
  funext vars b
  exact b.carryOut_line process base vars

/-- A file of bindings gives its names, each once and in the order of their first lines, and each of
them the text of its last line, whatever the base variables and the process are. -/
theorem parse_writeFile (process base : Bindings) (ended : Bool) (file : List WrittenBinding) :
    (parse process base (writeFile ended file)).names =
        (file.map WrittenBinding.name).eraseDups ∧
      ∀ name, (parse process base (writeFile ended file)).value? name =
        (file.reverse.find? (·.name == name)).map WrittenBinding.text := by
  rw [parse_writeFile_eq]
  constructor
  · rw [Bindings.names_overlay_nil]
    unfold Bindings.names
    rw [List.map_map]
    rfl
  · intro name
    rw [Bindings.value?_overlay, Bindings.value?_nil, ← List.map_reverse]
    unfold Bindings.value?
    rw [List.find?_map]
    show Option.orElse (((file.reverse.find? (·.name == name)).map _).map _) _ = _
    cases file.reverse.find? (·.name == name) <;> rfl

/-- A name, and a text with a space, a dollar sign and a quote in three kinds of quotes. -/
example : writeFile true [⟨true, "A".toList,
      [⟨.single, "x $".toList, by decide, by decide⟩, ⟨.double, "$\"".toList, by decide, by decide⟩,
        ⟨.bare, "z#".toList, by decide, by decide⟩], by decide⟩] =
    "export A='x $'\"\\$\\\"\"z#\n".toList := by decide

end Caretaker.Environ

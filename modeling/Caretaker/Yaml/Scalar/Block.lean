import Caretaker.Yaml.Cursor

/-!
# Block scalars

A block scalar keeps its lines. Its header says whether lines are folded, what becomes of the line
ends behind the last line, and perhaps how deep the lines are indented.
-/

namespace Caretaker.Yaml.Block

/-- What becomes of the line ends behind the last line. -/
inductive Chomping where
  /-- They are dropped. -/
  | strip
  /-- The first one is kept. -/
  | clip
  /-- All of them are kept. -/
  | keep
deriving DecidableEq, Repr

structure Header where
  /-- Whether lines are kept as they are; otherwise they are folded. -/
  literal : Bool
  chomping : Chomping
  /-- How much deeper than their parent the lines are indented, if that is told. -/
  deeper : Option Nat
deriving Repr

/-! ## Headers -/

def chomping? : Char → Option Chomping
  | '+' => some .keep
  | '-' => some .strip
  | _ => none

/-- Read how lines end, if that is told. -/
def readChomping (c : Cursor) : Option Chomping × Cursor :=
  match (c.ahead 0).bind chomping? with
  | some k => (some k, c.skip 1)
  | none => (none, c)

/-- Read how deep lines are indented, if that is told: by one digit, which is not zero. -/
def readDeeper (c : Cursor) : Option (Option Nat × Cursor) :=
  match c.ahead 0 with
  | some d =>
    if d == '0' then none
    else if d.isDigit then some (some (d.toNat - '0'.toNat), c.skip 1)
    else some (none, c)
  | none => some (none, c)

/-- Read a header with its line end; the two hints may come in either order. -/
def readHeader (c : Cursor) : Option (Header × Cursor) := do
  let literal := c.at? 0 '|'
  let (before, c) := readChomping (c.skip 1)
  let (deeper, c) ← readDeeper c
  let (behind, c) := if before.isNone && deeper.isSome then readChomping c else (none, c)
  let c := c.skipRun isGap
  let c := if c.at? 0 '#' then c.skipRun (!isBreak ·) else c
  guard (c.lineEnds 0)
  some (⟨literal, (before.orElse fun _ => behind).getD .clip, deeper⟩, c.takeBreak.2)

/-! ## Lines -/

/-- Empty lines: the line ends, where the last of them ends, and the deepest column seen. -/
structure Breaks where
  text : Text
  stop : Mark
  deepest : Nat
  cursor : Cursor
deriving Repr

/--
Read indentation and empty lines. While the indentation is not known, a line may be indented to any
column; no tab may stand where indentation is due.
-/
def readBreaks (indent : Option Nat) : Nat → Breaks → Option Breaks
  | 0, b => some b
  | fuel + 1, b =>
    let run := b.cursor.rest.takeWhile (· == ' ')
    let wanted := match indent with
      | none => run.length
      | some n => min run.length (n - b.cursor.mark.column)
    let c := b.cursor.skip wanted
    let deepest := max b.deepest c.mark.column
    if c.at? 0 '\t' && indent.all (c.mark.column < ·) then none
    else if c.sees isBreak then
      let (t, c) := c.takeBreak
      readBreaks indent fuel ⟨b.text ++ t, c.mark, deepest, c⟩
    else some ⟨b.text, b.stop, deepest, c⟩

/-- What has been read of the lines of a block scalar. -/
structure Lines where
  text : Text
  /-- The line end behind the last line. -/
  lastBreak : Text
  /-- Whether the last line starts with a blank, which keeps it from being folded. -/
  lastBlank : Bool
  /-- The empty lines behind the last line. -/
  breaks : Breaks
deriving Repr

/-- What joins the lines read so far to one that follows; `blank` says whether that one starts with
a blank. -/
def Lines.joint (literal : Bool) (l : Lines) (blank : Bool) : Text :=
  if !literal && l.lastBreak.head? == some '\n' && !l.lastBlank && !blank then
    if l.breaks.text.isEmpty then [' '] else l.breaks.text
  else l.lastBreak ++ l.breaks.text

/-- Read on, as long as lines are indented to the column `indent`. -/
def readLines (literal : Bool) (indent : Nat) : Nat → Lines → Option Lines
  | 0, l => some l
  | fuel + 1, l =>
    let c := l.breaks.cursor
    if c.mark.column = indent ∧ !c.rest.isEmpty then do
      let blank := c.sees isGap
      let (line, c) := c.takeRun (!isBreak ·)
      let (lineEnd, c) := c.takeBreak
      let breaks ← readBreaks (some indent) (c.rest.length + 1) ⟨[], c.mark, 0, c⟩
      readLines literal indent fuel ⟨l.text ++ l.joint literal blank ++ line, lineEnd, blank, breaks⟩
    else some l

/-- Read the block scalar at a cursor, in a collection whose lines start at the column `parent`,
which is negative where there is none. The result is its text, where it ends, and what has not been
read. -/
def readAt (parent : Int) (c : Cursor) : Option (Text × Mark × Cursor) := do
  let (header, c) ← readHeader c
  let known := header.deeper.map fun n => parent.toNat + n
  let breaks ← readBreaks known (c.rest.length + 1) ⟨[], c.mark, 0, c⟩
  -- if it is not told, the first line and the empty lines in front of it show how deep the lines are
  let indent := known.getD (max (max breaks.deepest (parent + 1).toNat) 1)
  let l ← readLines header.literal indent (c.rest.length + 1) ⟨[], [], false, breaks⟩
  let tail := match header.chomping with
    | .strip => []
    | .clip => l.lastBreak
    | .keep => l.lastBreak ++ l.breaks.text
  some (l.text ++ tail, l.breaks.stop, l.breaks.cursor)

end Caretaker.Yaml.Block

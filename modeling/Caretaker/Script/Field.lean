import Caretaker.Text.Octets

/-!
# Fields

What a word has been replaced by is a row of cells: characters with or without a meaning, marks of
quotations, and gaps between arguments. The parts of it that come from references without quotes
are cut into fields where separators stand.
-/

namespace Caretaker.Script

inductive Cell where
  | plain (c : Char)
  /-- A character that has no meaning in patterns. -/
  | escaped (c : Char)
  /-- The mark of a quotation, which is no part of the text but makes a field of an empty one. -/
  | quote
  /-- The border between two arguments. -/
  | gap
deriving DecidableEq, Repr

namespace Cell

/-- The text of cells up to the first gap. -/
def text : List Cell → Octets
  | [] | .gap :: _ => []
  | .plain c :: r | .escaped c :: r => c :: text r
  | .quote :: r => text r

/-- Cells as a pattern, in which a backslash takes the meaning of a character away. -/
def pattern : List Cell → Octets
  | [] | .gap :: _ => []
  | .plain c :: r => c :: pattern r
  | .escaped c :: r => '\\' :: c :: pattern r
  | .quote :: r => pattern r

end Cell

/-- A part of a row of cells that is cut: at separators, or at gaps only. -/
structure Region where
  first : Nat
  last : Nat
  gapsOnly : Bool
deriving DecidableEq, Repr

/-- What a word has been replaced by so far. -/
structure Expanded where
  /-- The cells, the last one first. -/
  cells : List Cell
  /-- Number of cells. -/
  size : Nat
  /-- The parts that are cut, the last one first. -/
  regions : List Region

namespace Expanded

def empty : Expanded := ⟨[], 0, []⟩

def put (e : Expanded) (c : Cell) : Expanded := { e with cells := c :: e.cells, size := e.size + 1 }

def putAll (e : Expanded) (cs : List Cell) : Expanded := cs.foldl put e

/-- Let the cells from a position on be cut. -/
def cutFrom (e : Expanded) (first : Nat) (gapsOnly : Bool) : Expanded :=
  { e with regions := ⟨first, e.size, gapsOnly⟩ :: e.regions }

/-- All cells in order. -/
def row (e : Expanded) : List Cell := e.cells.reverse

/-- The text of all cells. -/
def text (e : Expanded) : Octets := Cell.text e.row

/-- The cells as a pattern. -/
def pattern (e : Expanded) : Octets := Cell.pattern e.row

end Expanded

/-! ## Cutting -/

namespace Field

/-- The blanks that separate fields if nothing else is said. -/
def blanks : Octets := [' ', '\t', '\n']

/-- A separator: one of some characters, or a gap. The second flag is for blanks among them, of which
several count as one. -/
def separator (separators : Octets) : Cell → Bool × Bool
  | .gap => (true, true)
  | .plain c | .escaped c => (separators.contains c, separators.contains c && blanks.contains c)
  | .quote => (false, false)

/-- A row that is being cut. -/
structure Cut where
  /-- Where the field that is not complete starts. -/
  start : Nat
  /-- Whether a blank has ended the field in front. -/
  afterBlank : Bool
  /-- How many fields there may still be, if there is a limit. -/
  left : Option Nat
  /-- The blanks that may end the last field start here. -/
  trailing : Option Nat
  /-- First and last positions of the complete fields, the last field first. -/
  fields : List (Nat × Nat)

/-- Look at a cell in a row that is cut. -/
def Cut.step (separators : Octets) (gapsOnly afterGaps : Bool) (s : Cut) (at_ : Nat) (c : Cell) : Cut :=
  let (separates, blank) := separator (if gapsOnly then [] else separators) c
  if s.left = some 0 then
    if blank then { s with trailing := s.trailing.or (some at_) }
    else { s with trailing := if separates && s.afterBlank then s.trailing else none, afterBlank := false }
  else if s.afterBlank && blank then { s with start := at_ + 1 }
  else if s.afterBlank then { s with start := if separates then at_ + 1 else at_, afterBlank := false }
  else if !separates then s
  else
    let s := { s with afterBlank := !(afterGaps || gapsOnly) && blank }
    if at_ = s.start && s.afterBlank then { s with start := at_ + 1, afterBlank := false }
    else
      let left := s.left.map (· - 1)
      if left = some 0 then { s with left, trailing := some at_ }
      else { s with left, start := at_ + 1, fields := (s.start, at_) :: s.fields }

/-- Look at the cells of a region. -/
def Cut.region (separators : Octets) (cells : Array Cell) (s : Cut) (afterGaps : Bool) (r : Region) : Cut :=
  (List.range' r.first (r.last - r.first)).foldl (fun s k =>
    match cells[k]? with
    | some c => s.step separators r.gapsOnly afterGaps k c
    | none => s) { s with afterBlank := false }

/-- Look at regions one after the other; whether the last one is cut at gaps only comes too. -/
def Cut.regions (separators : Octets) (cells : Array Cell) (s : Cut) (afterGaps : Bool) :
    List Region → Cut × Bool
  | [] => (s, afterGaps)
  | r :: rest => regions separators cells (s.region separators cells afterGaps r) r.gapsOnly rest

/-- Cut a row into fields, at most `limit` if there is a limit. -/
def ofExpanded (separators : Octets) (limit : Option Nat) (e : Expanded) : List (List Cell) :=
  let cells := e.row.toArray
  let (s, gaps) := Cut.regions separators cells ⟨0, false, limit, none, []⟩ false e.regions.reverse
  let last := if gaps then e.size else s.trailing.getD e.size
  let isEmpty := last ≤ s.start || cells[s.start]? = some .gap
  let ranges := if gaps || !isEmpty then (s.start, last) :: s.fields else s.fields
  ranges.reverse.map fun (first, last) => (cells.extract first last).toList

end Field
end Caretaker.Script

import Caretaker.Yaml.Scalar.Gap

/-!
# Plain scalars

A plain scalar has no quotes, so it ends where something else can begin: at a comment, at a colon
that makes it a key, at a mark of the flow collection around it, or on a line that is not indented.
-/

namespace Caretaker.Yaml.Plain

/--
Read a word: up to a blank, a line end, or a mark that ends the scalar. In a flow collection a colon
must not be glued to a mark.
-/
def readWord (inFlow : Bool) : Text → Option (Text × Text)
  | [] => some ([], [])
  | x :: r =>
    if isGap x || isBreak x then some ([], x :: r)
    else if inFlow && x == ':' && r.head?.any (fun y => isFlowMark y || y == '?') then none
    else if x == ':' && r.head?.all (fun y => isGap y || isBreak y) then some ([], x :: r)
    else if inFlow && isFlowMark x then some ([], x :: r)
    else (readWord inFlow r).map fun (word, rest) => (x :: word, rest)

/-- A plain scalar and where it ends. -/
structure Result where
  text : Text
  /-- Where the last word ends. -/
  stop : Mark
  /-- Whether a line has ended behind the last word. -/
  broken : Bool
  /-- What has not been read. -/
  cursor : Cursor
deriving Repr

/--
Read on in a plain scalar whose lines are indented to the column `indent`; `r` is what has been
read, and `gap` the gap behind it.
-/
def read (inFlow : Bool) (indent : Nat) : Nat → Result → Gap → Option Result
  | 0, r, _ => some r
  | fuel + 1, r, gap =>
    if r.cursor.atMarker || r.cursor.at? 0 '#' then some { r with broken := gap.broken }
    else do
      let (word, _) ← readWord inFlow r.cursor.rest
      let r : Result :=
        if word.isEmpty then { r with broken := gap.broken }
        else
          let c := r.cursor.skip word.length
          ⟨r.text ++ gap.text ++ word, c.mark, false, c⟩
      -- without a gap behind it, the word has ended at a mark
      if !r.cursor.sees (fun x => isGap x || isBreak x) then some r
      else
        let (gap, c) ← Gap.readAt indent (if word.isEmpty then gap else .none) r.cursor
        let r := { r with cursor := c, broken := gap.broken }
        if !inFlow && c.mark.column < indent then some r else read inFlow indent fuel r gap

/-- Read the plain scalar at a cursor. -/
def readAt (inFlow : Bool) (indent : Nat) (c : Cursor) : Option Result :=
  read inFlow indent (c.rest.length + 1) ⟨[], c.mark, false, c⟩ .none

end Caretaker.Yaml.Plain

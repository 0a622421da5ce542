import Caretaker.Yaml.Cursor

/-!
# Gaps between the parts of a scalar

Plain and quoted scalars may span lines. The blanks and line ends between two parts are a gap, and
what a gap stands for is decided when it is over: lines are folded into one.
-/

namespace Caretaker.Yaml

/-- Blanks within a line, or line ends. -/
structure Gap where
  /-- Blanks that are kept if no line ends among them. -/
  blanks : Text
  /-- Whether a line has ended. -/
  broken : Bool
  /-- The first line end. -/
  first : Text
  /-- The line ends after the first one. -/
  more : Text
deriving Repr

namespace Gap

def none : Gap := ⟨[], false, [], []⟩

/-- The gap after a line that is joined to the next one. -/
def joined : Gap := ⟨[], true, [], []⟩

/-- What a gap stands for: a single line end is a space, of several the first one is dropped. -/
def text (g : Gap) : Text :=
  if !g.broken then g.blanks
  else if g.first.head? = some '\n' then (if g.more.isEmpty then [' '] else g.more)
  else g.first ++ g.more

/-- The gap with one more blank. After a line end blanks are indentation and are dropped. -/
def addBlank (g : Gap) (x : Char) : Gap :=
  if g.broken then g else { g with blanks := g.blanks ++ [x] }

/-- The gap with one more line end. Blanks in front of the first one are dropped. -/
def addBreak (g : Gap) (b : Text) : Gap :=
  if g.broken then { g with more := g.more ++ b } else ⟨[], true, b, []⟩

/--
Read on in a gap. On a line after the first, no tab may stand before the column `indent`.
-/
def read (indent : Nat) : Nat → Gap → Cursor → Option (Gap × Cursor)
  | 0, g, c => some (g, c)
  | fuel + 1, g, c =>
    match c.rest with
    | [] => some (g, c)
    | x :: _ =>
      if isGap x then
        if g.broken && c.mark.column < indent && x == '\t' then Option.none
        else read indent fuel (g.addBlank x) (c.skip 1)
      else if isBreak x then
        let (b, c) := c.takeBreak
        read indent fuel (g.addBreak b) c
      else some (g, c)

/-- Read the gap that starts at a cursor, or goes on there. -/
def readAt (indent : Nat) (g : Gap) (c : Cursor) : Option (Gap × Cursor) :=
  read indent c.rest.length g c

end Gap
end Caretaker.Yaml

import Caretaker.Text

/-!
# Reading a YAML stream

A cursor is what is left of the stream and the position it has reached. Columns count characters and
lines from zero, and the index counts bytes. A line may end in a line feed, a carriage return, both,
or one of the Unicode line ends.
-/

namespace Caretaker.Yaml

/-- A position in the stream. -/
structure Mark where
  /-- The bytes in front of it. -/
  index : Nat
  line : Nat
  column : Nat
deriving DecidableEq, Repr, Inhabited

/-- The start of the stream. -/
def Mark.zero : Mark := ⟨0, 0, 0⟩

/-! ## Classes of characters -/

/-- Whether a stream may hold a character at all. -/
def isPrintable (c : Char) : Bool :=
  let n := c.toNat
  n == 0x9 || n == 0xA || n == 0xD || (0x20 ≤ n && n ≤ 0x7E) || n == 0x85 ||
    (0xA0 ≤ n && n ≤ 0xD7FF) || (0xE000 ≤ n && n ≤ 0xFFFD) || 0x10000 ≤ n

def isBreak (c : Char) : Bool :=
  c == '\n' || c == '\r' || c == '\u0085' || c == '\u2028' || c == '\u2029'

/-- A space or a tab. -/
def isGap (c : Char) : Bool := c == ' ' || c == '\t'

/-- The characters of anchors, tag handles and directives. -/
def isWordChar (c : Char) : Bool := c.isAlphanum || c == '_' || c == '-'

/-- The marks of a flow collection. -/
def isFlowMark (c : Char) : Bool := c == ',' || c == '[' || c == ']' || c == '{' || c == '}'

/-! ## Blocks -/

/-- A stream is taken in blocks of at most so many bytes. -/
def blockSize : Nat := 16384

/-- Put a character in front of the first block. -/
def consBlock (c : Char) : List Text → List Text
  | [] => [[c]]
  | b :: bs => (c :: b) :: bs

/-- Cut a text into blocks, of which the first one has room for `room` bytes. No character is split.
-/
def blocks (room : Nat) : Text → List Text
  | [] => []
  | c :: r =>
    if c.utf8Size ≤ room then consBlock c (blocks (room - c.utf8Size) r)
    else [] :: consBlock c (blocks (blockSize - c.utf8Size) r)

/-- The part of a text in front of the first block that holds a character which no stream may hold,
and whether there is such a block. -/
def readable (t : Text) : Text × Bool :=
  let all := blocks blockSize t
  let good := all.takeWhile (·.all isPrintable)
  (good.flatten, good.length < all.length)

/-! ## Cursors -/

/-- What is left to read, and where that is. -/
structure Cursor where
  rest : Text
  mark : Mark
  /-- Whether what follows `rest` cannot be read; otherwise nothing follows it. -/
  cut : Bool
deriving Repr

namespace Cursor

/-- A cursor at the start of a text. -/
def ofText (t : Text) : Cursor :=
  let (rest, cut) := readable t
  ⟨rest, .zero, cut⟩

/-- Whether it is known what the next `n` characters are, or that the stream ends before them. -/
def shows (c : Cursor) (n : Nat) : Bool := !c.cut || n ≤ c.rest.length

/-- The character `k` places ahead. -/
def ahead (c : Cursor) (k : Nat) : Option Char := c.rest[k]?

/-- Whether the character `k` places ahead is `x`. -/
def at? (c : Cursor) (k : Nat) (x : Char) : Bool := c.ahead k == some x

/-- Whether the stream or the line ends `k` places ahead. -/
def lineEnds (c : Cursor) (k : Nat) : Bool := (c.ahead k).all isBreak

/-- Whether the stream, the line or the word ends `k` places ahead. -/
def wordEnds (c : Cursor) (k : Nat) : Bool := (c.ahead k).all fun x => isGap x || isBreak x

/-- Whether the character ahead satisfies `p`. -/
def sees (c : Cursor) (p : Char → Bool) : Bool := (c.ahead 0).any p

/-- Skip `n` characters within a line. -/
def skip (c : Cursor) (n : Nat) : Cursor :=
  { c with
    rest := c.rest.drop n
    mark.index := c.mark.index + Text.byteLength (c.rest.take n)
    mark.column := c.mark.column + n }

/-- Read the longest run of characters within a line that satisfy `p`. -/
def takeRun (c : Cursor) (p : Char → Bool) : Text × Cursor :=
  let run := c.rest.takeWhile p
  (run, c.skip run.length)

/-- Skip the longest run of characters within a line that satisfy `p`. -/
def skipRun (c : Cursor) (p : Char → Bool) : Cursor := (c.takeRun p).2

/-- The cursor at the start of the next line, when `n` characters end this one. -/
def newLine (c : Cursor) (n : Nat) : Cursor :=
  { c with
    rest := c.rest.drop n
    mark := ⟨c.mark.index + Text.byteLength (c.rest.take n), c.mark.line + 1, 0⟩ }

/-- Read a line end. Most of them stand for a line feed, the separators of Unicode for themselves.
-/
def takeBreak (c : Cursor) : Text × Cursor :=
  match c.rest with
  | '\r' :: '\n' :: _ => (['\n'], c.newLine 2)
  | '\u2028' :: _ => (['\u2028'], c.newLine 1)
  | '\u2029' :: _ => (['\u2029'], c.newLine 1)
  | x :: _ => if isBreak x then (['\n'], c.newLine 1) else ([], c)
  | [] => ([], c)

/-- Whether a line starts here with a mark of three equal characters that stands alone. -/
def startsMarker (c : Cursor) (x : Char) : Bool :=
  c.mark.column == 0 && c.at? 0 x && c.at? 1 x && c.at? 2 x && c.wordEnds 3

/-- Whether a document starts or ends here. -/
def atMarker (c : Cursor) : Bool := c.startsMarker '-' || c.startsMarker '.'

end Cursor
end Caretaker.Yaml

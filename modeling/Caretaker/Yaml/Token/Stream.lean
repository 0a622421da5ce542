import Caretaker.Yaml.Scalar.Block
import Caretaker.Yaml.Scalar.Plain
import Caretaker.Yaml.Token.Property

/-!
# The tokens of a stream

A text is cut into tokens from left to right. Whether a node is the key of a mapping shows only at
the colon behind it, so a node may stay a candidate for a while; when its colon comes, the tokens of
a key are put in front of it. Tokens up to the oldest candidate are settled, and when a text turns
out to be broken it is the settled tokens that have been read from it.
-/

namespace Caretaker.Yaml

/-- A node that may turn out to be a key: the number of its first token, and where that starts. -/
structure Candidate where
  number : Nat
  mark : Mark
  /-- Whether nothing but a key can stand there. -/
  required : Bool
deriving Repr

/-- A text that is being cut into tokens. -/
structure TokenStream where
  cursor : Cursor
  /-- The tokens read so far, the last one first. -/
  back : List Token
  /-- The columns of the open block collections, the innermost first. -/
  columns : List Nat
  /-- The candidate in the innermost collection. -/
  candidate : Option Candidate
  /-- The candidates around the open flow collections, the innermost first. -/
  outer : List (Option Candidate)
  /-- Whether a node that starts here may be a key. -/
  keyAllowed : Bool
deriving Repr

namespace TokenStream

/-- Nothing has been read. -/
def ofText (t : Text) : TokenStream := ⟨.ofText t, [], [], none, [], true⟩

def inFlow (s : TokenStream) : Bool := !s.outer.isEmpty

def mark (s : TokenStream) : Mark := s.cursor.mark

/-- The column of the innermost block collection; outside of all of them it is left of any column.
-/
def indent (s : TokenStream) : Int := (s.columns.head?.map Int.ofNat).getD (-1)

/-- The tokens up to the oldest candidate. -/
def settled (s : TokenStream) : List Token :=
  let candidates := (s.candidate :: s.outer).filterMap id
  s.back.reverse.take (candidates.foldl (fun n c => min n c.number) s.back.length)

/-! ## Adding tokens -/

/-- Add a token that starts and ends at given marks. -/
def add (s : TokenStream) (kind : Token.Kind) (start stop : Mark) : TokenStream :=
  { s with back := ⟨kind, start, stop⟩ :: s.back }

/-- Add a token of `n` characters and skip them. -/
def addMark (s : TokenStream) (kind : Token.Kind) (n : Nat) : TokenStream :=
  let c := s.cursor.skip n
  { s.add kind s.mark c.mark with cursor := c }

/-- Put a token in front of the token with a number. -/
def insert (s : TokenStream) (number : Nat) (kind : Token.Kind) (start stop : Mark) : TokenStream :=
  let k := s.back.length - number
  { s with back := s.back.take k ++ ⟨kind, start, stop⟩ :: s.back.drop k }

/-! ## Candidates -/

/-- A key stands on one line, and its colon comes within so many bytes. -/
def maxKey : Nat := 1024

/-- Whether it is too late for the colon behind a candidate. -/
def isStale (s : TokenStream) (c : Candidate) : Bool :=
  c.mark.line < s.mark.line || c.mark.index + maxKey < s.mark.index

/-- Give up the candidates for which it is too late; a key that is required must not be among them.
-/
def dropStale (s : TokenStream) : Option TokenStream :=
  let keep (c : Option Candidate) : Option (Option Candidate) :=
    match c with
    | some c => if !s.isStale c then some (some c) else if c.required then none else some none
    | none => some none
  do
    let candidate ← keep s.candidate
    let outer ← s.outer.mapM keep
    some { s with candidate, outer }

/-- Give up the candidate in the innermost collection. -/
def dropCandidate (s : TokenStream) : Option TokenStream :=
  if s.candidate.any (·.required) then none else some { s with candidate := none }

/-- Let the node that starts here be a candidate, if a key is allowed here. -/
def addCandidate (s : TokenStream) : Option TokenStream :=
  if s.keyAllowed then do
    let s ← s.dropCandidate
    -- in the column of a block mapping nothing but its keys can stand
    let required := !s.inFlow && s.indent == s.mark.column
    some { s with candidate := some ⟨s.back.length, s.mark, required⟩ }
  else some s

/-- What follows on the same line may be a key, or not. -/
def allowKey (s : TokenStream) (allowed : Bool) : TokenStream := { s with keyAllowed := allowed }

/-! ## Block collections -/

/-- Close the block collections to the right of a column. -/
def closeTo (s : TokenStream) (column : Int) : TokenStream :=
  if s.inFlow then s
  else
    let closed := s.columns.takeWhile fun (c : Nat) => column < c
    { s with
      columns := s.columns.drop closed.length
      back := closed.map (fun _ => ⟨.blockEnd, s.mark, s.mark⟩) ++ s.back }

/-- Open a block collection at a column, unless one is open there; its token goes in front of the
token with the given number. -/
def openAt (s : TokenStream) (column number : Nat) (kind : Token.Kind) (mark : Mark) : TokenStream :=
  if !s.inFlow && s.indent < column then
    { s.insert number kind mark mark with columns := column :: s.columns }
  else s

/-- Open a block collection here, where a key has to be allowed. -/
def openHere (s : TokenStream) (kind : Token.Kind) : Option TokenStream :=
  if s.inFlow then some s
  else if s.keyAllowed then some (s.openAt s.mark.column s.back.length kind s.mark)
  else none

/-! ## Reading one token -/

/-- Skip blanks, comments and line ends. A tab may stand only where no indentation is due. A mark of
the byte order at the start of a line is passed over, but takes a column. -/
def skipGap (s : TokenStream) : TokenStream :=
  go (s.cursor.rest.length + 1) s
where
  go : Nat → TokenStream → TokenStream
    | 0, s => s
    | fuel + 1, s =>
      let c := if s.mark.column = 0 ∧ s.cursor.at? 0 '\uFEFF' then s.cursor.skip 1 else s.cursor
      let c := c.skipRun fun x => x == ' ' || (x == '\t' && (s.inFlow || !s.keyAllowed))
      let c := if c.at? 0 '#' then c.skipRun (!isBreak ·) else c
      if c.sees isBreak then
        go fuel { s with cursor := c.takeBreak.2, keyAllowed := s.keyAllowed || !s.inFlow }
      else { s with cursor := c }

def streamEnd (s : TokenStream) : Option TokenStream := do
  let m := s.mark
  -- a last line without an end counts as ended
  let m := if m.column = 0 then m else { m with line := m.line + 1, column := 0 }
  let s ← ({ s with cursor.mark := m }.closeTo (-1)).dropCandidate
  some ((s.allowKey false).add .streamEnd m m)

/-- Close all block collections, for what stands between documents. -/
def leaveDocument (s : TokenStream) : Option TokenStream := do
  some ((← (s.closeTo (-1)).dropCandidate).allowKey false)

def directive (s : TokenStream) : Option TokenStream := do
  let s ← s.leaveDocument
  let (kind, stop, c) ← Property.readDirective s.cursor
  some { s.add kind s.mark stop with cursor := c }

def documentMark (s : TokenStream) (kind : Token.Kind) : Option TokenStream := do
  some ((← s.leaveDocument).addMark kind 3)

def openFlow (s : TokenStream) (kind : Token.Kind) : Option TokenStream := do
  let s ← s.addCandidate
  some (({ s with outer := s.candidate :: s.outer, candidate := none }.allowKey true).addMark kind 1)

def closeFlow (s : TokenStream) (kind : Token.Kind) : Option TokenStream := do
  let s ← s.dropCandidate
  let s := match s.outer with
    | [] => s
    | c :: outer => { s with candidate := c, outer }
  some ((s.allowKey false).addMark kind 1)

def flowEntry (s : TokenStream) : Option TokenStream := do
  some (((← s.dropCandidate).allowKey true).addMark .flowEntry 1)

def blockEntry (s : TokenStream) : Option TokenStream := do
  let s ← (← s.openHere .blockSequenceStart).dropCandidate
  some ((s.allowKey true).addMark .blockEntry 1)

def key (s : TokenStream) : Option TokenStream := do
  let s ← (← s.openHere .blockMappingStart).dropCandidate
  some ((s.allowKey !s.inFlow).addMark .key 1)

/-- A colon: the candidate in front of it is a key, or else the key in front of it is empty. -/
def value (s : TokenStream) : Option TokenStream := do
  match s.candidate with
  | some c =>
    -- the key has been read before it was known to be one: its token goes in front of it now
    let s := (s.insert c.number .key c.mark s.mark).openAt c.mark.column c.number .blockMappingStart c.mark
    some (({ s with candidate := none }.allowKey false).addMark .value 1)
  | none =>
    let s ← s.openHere .blockMappingStart
    some ((s.allowKey !s.inFlow).addMark .value 1)

/-- A node or a part of one, which may be a key. -/
def node (s : TokenStream) (read : Cursor → Option (Token.Kind × Cursor)) : Option TokenStream := do
  let s := (← s.addCandidate).allowKey false
  let (kind, c) ← read s.cursor
  some { s.add kind s.mark c.mark with cursor := c }

def quoted (s : TokenStream) (quote : Char) : Option TokenStream :=
  s.node fun c => (Quoted.readAt quote c).map fun (t, c) => (.scalar ⟨t, false⟩, c)

def plain (s : TokenStream) : Option TokenStream := do
  let s := (← s.addCandidate).allowKey false
  let r ← Plain.readAt s.inFlow (s.indent + 1).toNat s.cursor
  some { s.add (.scalar ⟨r.text, true⟩) s.mark r.stop with cursor := r.cursor, keyAllowed := r.broken }

def block (s : TokenStream) : Option TokenStream := do
  let s := (← s.dropCandidate).allowKey true
  let (t, stop, c) ← Block.readAt s.indent s.cursor
  some { s.add (.scalar ⟨t, false⟩) s.mark stop with cursor := c }

/-- The characters that no plain scalar starts with, unless it is told otherwise. -/
def isIndicator (c : Char) : Bool := "-?:,[]\x7b\x7d#&*!|>'\"%@\x60".toList.contains c

/-- Whether a plain scalar starts here. A dash, a question mark and a colon may start one if a word
goes on. -/
def startsPlain (s : TokenStream) (x : Char) : Bool :=
  (!isIndicator x && !isGap x) || (x == '-' && !(s.cursor.ahead 1).any isGap) ||
    (!s.inFlow && (x == '?' || x == ':') && !s.cursor.wordEnds 1)

/-- Read the token that starts with the character `x`. -/
def readAt (s : TokenStream) (x : Char) : Option TokenStream :=
  let c := s.cursor
  if c.mark.column = 0 ∧ x = '%' then s.directive
  else if c.startsMarker '-' then s.documentMark .documentStart
  else if c.startsMarker '.' then s.documentMark .documentEnd
  else if x = '[' then s.openFlow .flowSequenceStart
  else if x = '\x7b' then s.openFlow .flowMappingStart
  else if x = ']' then s.closeFlow .flowSequenceEnd
  else if x = '\x7d' then s.closeFlow .flowMappingEnd
  else if x = ',' then s.flowEntry
  else if x = '-' ∧ c.wordEnds 1 then s.blockEntry
  else if x = '?' ∧ (s.inFlow ∨ c.wordEnds 1) then s.key
  else if x = ':' ∧ (s.inFlow ∨ c.wordEnds 1) then s.value
  else if x = '*' then s.node fun c => (Property.readName (c.skip 1)).map fun (n, c) => (.alias n, c)
  else if x = '&' then s.node fun c => (Property.readName (c.skip 1)).map fun (n, c) => (.anchor n, c)
  else if x = '!' then s.node fun c => (Property.readTag s.inFlow c).map fun (t, c) => (.tag t, c)
  else if (x = '|' ∨ x = '>') ∧ !s.inFlow then s.block
  else if x = '\'' ∨ x = '"' then s.quoted x
  else if s.startsPlain x then s.plain
  else none

/-- Read the next token, with those that the layout puts in front of it. Four characters are looked
at to tell what it is, and a token has ended only when it is known what follows. -/
def next (s : TokenStream) : Option TokenStream := do
  guard (s.cursor.shows 1)
  if s.back.isEmpty then return s.add .streamStart s.mark s.mark
  let s ← s.skipGap.dropStale
  let s := s.closeTo s.mark.column
  guard (s.cursor.shows 4)
  match s.cursor.rest with
  | [] => s.streamEnd
  | x :: _ =>
    let s ← s.readAt x
    guard (s.cursor.shows 1)
    some s

/-- Read on to the end of the stream, or to where the text is broken. -/
def readAll : Nat → TokenStream → List Token
  | 0, s => s.settled
  | fuel + 1, s =>
    match s.next.bind dropStale with
    | none => s.settled
    | some s => if s.back.head?.any (·.kind == .streamEnd) then s.back.reverse else readAll fuel s

end TokenStream

/--
The tokens of a text. The last one ends the stream, unless the text is broken: then it is the last
token that is settled.
-/
def Token.ofText (t : Text) : List Token := (TokenStream.ofText t).readAll (t.length + 2)

end Caretaker.Yaml

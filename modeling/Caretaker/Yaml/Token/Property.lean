import Caretaker.Text.Utf8
import Caretaker.Yaml.Scalar.Quoted
import Caretaker.Yaml.Token.Basic

/-!
# Anchors, tags and directives

The tokens that say something about a node or a document rather than being part of it.
-/

namespace Caretaker.Yaml.Property

/-! ## Anchors and aliases -/

/-- Read the name of an anchor behind its mark. -/
def readName (c : Cursor) : Option (Text × Cursor) :=
  let (name, c) := c.takeRun isWordChar
  if name.isEmpty then none
  else if c.wordEnds 0 || c.sees (· ∈ ['?', ':', ',', ']', '}', '%', '@', Char.ofNat 0x60]) then some (name, c)
  else none

/-! ## Tags -/

/-- The characters of a tag; only one in pointed brackets may hold marks of a flow collection. -/
def isTagChar (bracketed : Bool) (c : Char) : Bool :=
  isWordChar c || ";/?:@&=+$.%!~*'()".toList.contains c || (bracketed && ",[]".toList.contains c)

/-- The byte of an escape of the form `%XX`. -/
def escapedByte? : Text → Option UInt8
  | '%' :: high :: low :: _ => do
    let n ← Quoted.hexNumber? [high, low]
    some n.toUInt8
  | _ => none

/-- How many escapes spell a character whose first byte is `b`. -/
def escapeCount? (b : UInt8) : Option Nat :=
  if b < 0x80 then some 1
  else if b < 0xC0 then none
  else if b < 0xE0 then some 2
  else if b < 0xF0 then some 3
  else if b < 0xF8 then some 4
  else none

/-- Read the escapes that spell one character. -/
def readEscapes (c : Cursor) : Option (Text × Cursor) := do
  let first ← escapedByte? c.rest
  let count ← escapeCount? first
  let tail ← (List.range (count - 1)).mapM fun k => do
    let b ← escapedByte? (c.rest.drop (3 * (k + 1)))
    if 0x80 ≤ b ∧ b < 0xC0 then some b else none
  some (Text.ofBytes (first :: tail), c.skip (3 * count))

/-- Read the rest of a tag; `text` is what has been read. -/
def readSuffix (bracketed : Bool) : Nat → (text : Text) → Cursor → Option (Text × Cursor)
  | 0, text, c => some (text, c)
  | fuel + 1, text, c =>
    match c.rest with
    | [] => some (text, c)
    | x :: _ =>
      if x = '%' then do
        let (t, c) ← readEscapes c
        readSuffix bracketed fuel (text ++ t) c
      else if isTagChar bracketed x then readSuffix bracketed fuel (text ++ [x]) (c.skip 1)
      else some (text, c)

def readSuffixAt (bracketed : Bool) (text : Text) (c : Cursor) : Option (Text × Cursor) :=
  readSuffix bracketed c.rest.length text c

/-- Read a handle: a word between exclamation marks, of which the second may be missing. -/
def readHandle (c : Cursor) : Option (Text × Cursor) :=
  if !c.at? 0 '!' then none
  else
    let (word, c) := (c.skip 1).takeRun isWordChar
    if c.at? 0 '!' then some ('!' :: word ++ ['!'], c.skip 1) else some ('!' :: word, c)

/-- The part of a tag that counts: it ends at the first character with the code zero. -/
def counted (suffix : Text) : Text := suffix.takeWhile (· != '\x00')

/-- Read a tag in pointed brackets behind the opening one. -/
def readBracketed (c : Cursor) : Option (TagName × Cursor) := do
  let (suffix, c) ← readSuffixAt true [] c
  guard (!suffix.isEmpty && c.at? 0 '>')
  some (⟨[], counted suffix⟩, c.skip 1)

/-- Read a tag with a handle. One that turns out to have none is a suffix of the primary handle, and
an exclamation mark alone is a tag of its own. -/
def readHandled (c : Cursor) : Option (TagName × Cursor) := do
  let (handle, c) ← readHandle c
  if 1 < handle.length ∧ handle.getLast? = some '!' then
    let (suffix, c) ← readSuffixAt false [] c
    guard (!suffix.isEmpty)
    some (⟨handle, counted suffix⟩, c)
  else
    let (suffix, c) ← readSuffixAt false (handle.drop 1) c
    let suffix := counted suffix
    some (if suffix.isEmpty then ⟨[], ['!']⟩ else ⟨['!'], suffix⟩, c)

/-- Read a tag; a word has to end behind it. -/
def readTag (inFlow : Bool) (c : Cursor) : Option (TagName × Cursor) := do
  let (tag, c) ← if c.at? 1 '<' then readBracketed (c.skip 2) else readHandled c
  guard (c.wordEnds 0 || (inFlow && c.at? 0 ','))
  some (tag, c)

/-! ## Directives -/

/-- Read a number of at most nine digits. -/
def readNumber (c : Cursor) : Option (Nat × Cursor) :=
  let (digits, c) := c.takeRun Char.isDigit
  if digits.isEmpty ∨ 9 < digits.length then none
  else some (digits.foldl (fun n d => n * 10 + (d.toNat - '0'.toNat)) 0, c)

def readVersion (c : Cursor) : Option (Token.Kind × Cursor) := do
  let (major, c) ← readNumber (c.skipRun isGap)
  guard (c.at? 0 '.')
  let (minor, c) ← readNumber (c.skip 1)
  some (.versionDirective major minor, c)

def readTagDirective (c : Cursor) : Option (Token.Kind × Cursor) := do
  let (handle, c) ← readHandle (c.skipRun isGap)
  guard ((handle.length = 1 ∨ handle.getLast? = some '!') ∧ c.sees isGap)
  let (text, c) ← readSuffixAt true [] (c.skipRun isGap)
  guard (!text.isEmpty && c.wordEnds 0)
  some (.tagDirective ⟨handle, counted text⟩, c)

/-- Read a directive with the rest of its line. The mark is where the directive itself ends. -/
def readDirective (c : Cursor) : Option (Token.Kind × Mark × Cursor) := do
  let (name, c) := (c.skip 1).takeRun isWordChar
  guard (c.wordEnds 0)
  let (kind, c) ←
    if name = "YAML".toList then readVersion c
    else if name = "TAG".toList then readTagDirective c
    else none
  let stop := c.mark
  let c := c.skipRun isGap
  let c := if c.at? 0 '#' then c.skipRun (!isBreak ·) else c
  guard (c.lineEnds 0)
  some (kind, stop, c.takeBreak.2)

end Caretaker.Yaml.Property

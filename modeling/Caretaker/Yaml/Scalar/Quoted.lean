import Caretaker.Yaml.Scalar.Gap

/-!
# Quoted scalars

In single quotes a quote is written twice and everything else stands for itself. In double quotes a
backslash starts an escape, or joins a line to the next one.
-/

namespace Caretaker.Yaml.Quoted

/-! ## Escapes -/

/-- The value of a hexadecimal digit. -/
def hexDigit? (c : Char) : Option Nat :=
  if c.isDigit then some (c.toNat - '0'.toNat)
  else if 'a' ≤ c ∧ c ≤ 'f' then some (c.toNat - 'a'.toNat + 10)
  else if 'A' ≤ c ∧ c ≤ 'F' then some (c.toNat - 'A'.toNat + 10)
  else none

/-- The number that a text of hexadecimal digits spells. -/
def hexNumber? (digits : Text) : Option Nat :=
  digits.foldlM (fun n d => (hexDigit? d).map (n * 16 + ·)) 0

/-- The character with a code, unless the code is a surrogate or too large. -/
def charOfCode? (code : Nat) : Option Char :=
  if 0x10FFFF < code ∨ (0xD800 ≤ code ∧ code ≤ 0xDFFF) then none else some (Char.ofNat code)

/-- The character of an escape that is one character long. -/
def shortEscape? : Char → Option Char
  | '0' => some '\x00'
  | 'a' => some '\x07'
  | 'b' => some '\x08'
  | 't' | '\t' => some '\t'
  | 'n' => some '\n'
  | 'v' => some '\x0b'
  | 'f' => some '\x0c'
  | 'r' => some '\r'
  | 'e' => some '\x1b'
  | ' ' => some ' '
  | '"' => some '"'
  | '/' => some '/'
  | '\\' => some '\\'
  | 'N' => some '\u0085'
  | '_' => some '\u00a0'
  | 'L' => some '\u2028'
  | 'P' => some '\u2029'
  | _ => none

/-- How many digits follow the letter of an escape that gives a character by its code. -/
def codeLength? : Char → Option Nat
  | 'x' => some 2
  | 'u' => some 4
  | 'U' => some 8
  | _ => none

/-- Read what follows a backslash. -/
def readEscape (c : Cursor) : Option (Char × Cursor) := do
  let letter ← c.ahead 0
  match codeLength? letter with
  | none => (shortEscape? letter).map (·, c.skip 1)
  | some n =>
    let digits := (c.rest.drop 1).take n
    guard (digits.length = n)
    (hexNumber? digits).bind charOfCode? |>.map (·, c.skip (1 + n))

/-! ## Scalars -/

/--
Read on in a scalar, behind its opening quote; `text` is what has been read. The scalar must not run
into the marker of a document, for which a word is watched only at its start.
-/
def read (quote : Char) : Nat → (wordStarts : Bool) → (text : Text) → Cursor → Option (Text × Cursor)
  | 0, _, _, _ => none
  | fuel + 1, wordStarts, text, c =>
    if wordStarts && c.atMarker then none
    else
      match c.rest with
      | [] => none
      | x :: r =>
        if quote = '\'' ∧ x = '\'' ∧ r.head? = some '\'' then
          read quote fuel false (text ++ ['\'']) (c.skip 2)
        else if x = quote then some (text, c.skip 1)
        else if quote = '"' ∧ x = '\\' then
          -- a backslash at the end of a line joins it to the next one without a blank
          if r.head?.any isBreak then do
            let (g, c) ← Gap.readAt 0 .joined (c.skip 1).takeBreak.2
            read quote fuel true (text ++ g.text) c
          else do
            let (y, c) ← readEscape (c.skip 1)
            read quote fuel false (text ++ [y]) c
        else if isGap x || isBreak x then do
          let (g, c) ← Gap.readAt 0 .none c
          read quote fuel true (text ++ g.text) c
        else read quote fuel false (text ++ [x]) (c.skip 1)

/-- Read a scalar from its opening quote on. -/
def readAt (quote : Char) (c : Cursor) : Option (Text × Cursor) :=
  read quote (c.rest.length + 1) true [] (c.skip 1)

end Caretaker.Yaml.Quoted

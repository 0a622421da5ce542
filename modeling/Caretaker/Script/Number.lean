import Caretaker.Text.Octets

/-!
# Numbers in scripts

Numbers are read as the operating system's library reads them: blanks and a sign may stand in
front, and the digits that follow count as far as they go.
-/

namespace Caretaker.Script.Number

/-- The least number beyond those of 64 bits. -/
def beyond : Nat := 9223372036854775808

/-- The value of a digit in a base up to thirty-six. -/
def digit? (base : Nat) (c : Char) : Option Nat :=
  let value :=
    if c.isDigit then c.toNat - '0'.toNat
    else if c.isAlpha then c.toLower.toNat - 'a'.toNat + 10
    else base
  if value < base then some value else none

/-- The number that the digits at the front of a text spell, and what follows them. -/
def digits (base : Nat) (t : Octets) : Nat × Octets :=
  let front := t.takeWhile fun c => (digit? base c).isSome
  (front.foldl (fun n c => n * base + (digit? base c).getD 0) 0, t.drop front.length)

/-- The base that a letter behind a zero stands for. -/
def baseOf? (c : Char) : Option Nat :=
  if c = 'x' ∨ c = 'X' then some 16 else if c = 'b' ∨ c = 'B' then some 2 else none

/-- The number at the front of a text without a sign. Where the base may be chosen, `0x` starts a
hexadecimal number, `0b` a binary one and `0` an octal one. -/
def unsigned? (choosesBase : Bool) (t : Octets) : Option (Nat × Octets) :=
  let inBase (base : Nat) (t : Octets) : Option (Nat × Octets) :=
    if t.head?.any fun c => (digit? base c).isSome then some (digits base t) else none
  if !choosesBase then inBase 10 t
  else
    match t with
    | '0' :: x :: c :: r =>
      match (baseOf? x).filter fun base => (digit? base c).isSome with
      | some base => inBase base (c :: r)
      | none => inBase 8 t
    | '0' :: _ => inBase 8 t
    | _ => inBase 10 t

/-- The number at the front of a text, and what follows it. -/
def scan? (choosesBase : Bool) (t : Octets) : Option (Int × Octets) :=
  let (minus, t) := match t.dropWhile Octets.isSpace with
    | '-' :: r => (true, r)
    | '+' :: r => (false, r)
    | r => (false, r)
  (unsigned? choosesBase t).map fun (n, rest) => (if minus then -(n : Int) else n, rest)

/-- Whether a number has 64 bits. -/
def fits (n : Int) : Bool := -(beyond : Int) ≤ n && n < (beyond : Int)

/-- The nearest number of 64 bits. -/
def clamp (n : Int) : Int := max (-(beyond : Int)) (min n ((beyond : Int) - 1))

/-- The number that a whole text spells, maybe with blanks behind it. -/
def whole? (choosesBase : Bool) (t : Octets) : Option Int :=
  match scan? choosesBase t with
  | some (n, rest) => if fits n && rest.all Octets.isSpace then some n else none
  | none => none

/-- The number of an argument that counts something. -/
def count? (t : Octets) : Option Nat :=
  match whole? false t with
  | some (.ofNat n) => if n < 2147483648 then some n else none
  | _ => none

end Caretaker.Script.Number

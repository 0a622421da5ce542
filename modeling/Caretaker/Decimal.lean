import Caretaker.Text

/-!
# Decimal numbers

Numbers as they are written: some digits and a power of ten. They are read with or without a point
and an exponent, and written with a point and without an exponent.
-/

namespace Caretaker

/-- The number `digits · 10 ^ exponent`. -/
structure Decimal where
  digits : Nat
  exponent : Int
deriving DecidableEq, Repr

namespace Decimal

/-! ## Reading -/

/-- The value of a digit in a base up to sixteen. -/
def digit? (base : Nat) (c : Char) : Option Nat :=
  let value :=
    if c.isDigit then c.toNat - '0'.toNat
    else if 'a' ≤ c ∧ c ≤ 'f' then c.toNat - 'a'.toNat + 10
    else if 'A' ≤ c ∧ c ≤ 'F' then c.toNat - 'A'.toNat + 10
    else base
  if value < base then some value else none

/-- The number that digits in a base spell; there has to be one. -/
def natural? (base : Nat) (digits : Text) : Option Nat :=
  if digits.isEmpty then none
  else digits.foldlM (fun n c => (digit? base c).map (n * base + ·)) 0

/-- Split off a sign; the flag says whether it is a minus. -/
def splitSign : Text → Bool × Text
  | '-' :: r => (true, r)
  | '+' :: r => (false, r)
  | r => (false, r)

/-- Read an exponent with its letter, or nothing at all. -/
def exponent? : Text → Option Int
  | [] => some 0
  | c :: r =>
    if c = 'e' ∨ c = 'E' then
      let (minus, digits) := splitSign r
      (natural? 10 digits).map fun n => if minus then -n else n
    else none

/-- Read a number without a sign. Digits may be missing on one side of the point. -/
def ofText? (t : Text) : Option Decimal := do
  let whole := t.takeWhile Char.isDigit
  let rest := t.dropWhile Char.isDigit
  let (fraction, rest) := match rest with
    | '.' :: r => (r.takeWhile Char.isDigit, r.dropWhile Char.isDigit)
    | r => ([], r)
  let digits ← natural? 10 (whole ++ fraction)
  let exponent ← exponent? rest
  some ⟨digits, exponent - fraction.length⟩

/-! ## Writing -/

/-- Write a number with a point and at least one digit on both sides of it. -/
def positional (d : Decimal) : Text :=
  let digits := (Nat.toDigits 10 d.digits)
  if 0 ≤ d.exponent then
    (if d.digits = 0 then ['0'] else digits ++ List.replicate d.exponent.toNat '0') ++ ['.', '0']
  else
    let places := (-d.exponent).toNat
    let digits := List.replicate (places + 1 - digits.length) '0' ++ digits
    digits.take (digits.length - places) ++ '.' :: digits.drop (digits.length - places)

end Decimal
end Caretaker

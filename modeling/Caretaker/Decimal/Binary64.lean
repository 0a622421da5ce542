import Caretaker.Decimal

/-!
# Numbers of 64 bits

A number with an exponent is kept as the nearest number of the form `m · 2 ^ q` with `m < 2 ^ 53`,
and is written with the fewest decimal digits that lead back to it. Everything here is exact
arithmetic on natural numbers.
-/

namespace Caretaker

/-- The number `significand · 2 ^ exponent`, finite and not negative. -/
structure Binary64 where
  significand : Nat
  exponent : Int
deriving DecidableEq, Repr

namespace Binary64

/-- A power of two. -/
def twoTo (n : Nat) : Nat := Nat.pow 2 n

/-- A power of ten. -/
def tenTo (n : Nat) : Nat := Nat.pow 10 n

/-- The significands stay below this. -/
def limit : Nat := twoTo 53

/-- The least exponent. -/
def least : Int := -1074

/-- The greatest exponent. -/
def greatest : Int := 971

/-- Divide and round to the nearest number, a half to the even one. -/
def roundDiv (num den : Nat) : Nat :=
  let q := num / den
  let r := num % den
  if 2 * r < den ∨ (2 * r = den ∧ q % 2 = 0) then q else q + 1

/-- The quotient of two numbers as a multiple of `2 ^ exponent`, rounded. -/
def scaled (num den : Nat) (exponent : Int) : Nat :=
  roundDiv (num * twoTo (-exponent).toNat) (den * twoTo exponent.toNat)

/-- Raise the exponent until the significand is in its limits. -/
def fit (num den : Nat) : Nat → Int → Binary64
  | 0, q => ⟨scaled num den q, q⟩
  | fuel + 1, q => if scaled num den q < limit then ⟨scaled num den q, q⟩ else fit num den fuel (q + 1)

/-- The nearest number to a quotient, unless the quotient is too large for one. -/
def ofRatio? (num den : Nat) : Option Binary64 :=
  if num = 0 then some ⟨0, least⟩
  else
    let b := fit num den 4 (max least ((num.log2 : Int) - den.log2 - 54))
    if greatest < b.exponent then none else some b

/-- Decimals with so many digits in front of the point, or noughts behind it, are beyond all
numbers. -/
def beyond : Int := 400

/-- The nearest number, unless the decimal is too large for one. -/
def ofDecimal? (d : Decimal) : Option Binary64 :=
  let magnitude := (Nat.toDigits 10 d.digits).length + d.exponent
  if d.digits = 0 ∨ magnitude < -beyond then some ⟨0, least⟩
  else if beyond < magnitude then none
  else ofRatio? (d.digits * tenTo d.exponent.toNat) (tenTo (-d.exponent).toNat)

/-- The number as a quotient of natural numbers. -/
def ratio (b : Binary64) : Nat × Nat := (b.significand * twoTo b.exponent.toNat, twoTo (-b.exponent).toNat)

/-- The even number at the middle of the reals that round to a number, and the two ends, in quarters
of `2 ^ exponent`. Below a power of two numbers lie closer together. -/
def quarters (b : Binary64) : Nat × Nat × Nat :=
  let m := 4 * b.significand
  (if b.significand = twoTo 52 ∧ least < b.exponent then m - 1 else m - 2, m, m + 2)

/-- Compare `k · 10 ^ e` with `x` quarters of `2 ^ exponent`. -/
def compareGrid (b : Binary64) (k : Nat) (e : Int) (x : Nat) : Ordering :=
  let q := b.exponent - 2
  compare (k * tenTo e.toNat * twoTo (-q).toNat) (x * twoTo q.toNat * tenTo (-e).toNat)

/-- Whether `k · 10 ^ e` rounds to the number. -/
def isNear (b : Binary64) (k : Nat) (e : Int) : Bool :=
  let (low, _, high) := b.quarters
  let even := b.significand % 2 == 0
  (match b.compareGrid k e low with
    | .lt => false
    | .eq => even
    | .gt => true) &&
  (match b.compareGrid k e high with
    | .lt => true
    | .eq => even
    | .gt => false)

/-- The multiple of `10 ^ e` that rounds to the number and is nearest to it, if there is one; of two
that are as near it is the greater one. -/
def onGrid? (b : Binary64) (e : Int) : Option Decimal :=
  let q := b.exponent
  let num := b.significand * twoTo q.toNat * tenTo (-e).toNat
  let den := twoTo (-q).toNat * tenTo e.toNat
  let k := num / den
  match b.isNear k e, b.isNear (k + 1) e with
  | true, true => some ⟨if 2 * (num % den) < den then k else k + 1, e⟩
  | true, false => some ⟨k, e⟩
  | false, true => some ⟨k + 1, e⟩
  | false, false => none

/-- Try one grid after the other, each finer than the one before. -/
def search (b : Binary64) : Nat → Int → Decimal
  | 0, e => ⟨0, e⟩
  | fuel + 1, e => (b.onGrid? e).getD (b.search fuel (e - 1))

/-- The decimal with the fewest digits that rounds to the number, of two such the nearer one. -/
def shortest (b : Binary64) : Decimal :=
  if b.significand = 0 then ⟨0, 0⟩ else b.search 700 310

end Binary64
end Caretaker

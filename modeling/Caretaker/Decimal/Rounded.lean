import Caretaker.Decimal.Binary64

/-!
# Rounded decimals

Numbers of 64 bits written with a given number of places: with all digits in front of the point, with
an exponent, in whichever of the two ways is shorter, and in base sixteen. Rounding is exact, and a
half goes to the even neighbour.
-/

namespace Caretaker.Binary64

/-- Digits in front of a point and behind it. A point without digits behind it is left out, unless
it is asked for. -/
def pointed (keepsPoint : Bool) (whole fraction : Text) : Text :=
  whole ++ if fraction.isEmpty && !keepsPoint then [] else '.' :: fraction

/-- Cut digits so that `places` of them stand behind the point, and at least one in front of it. -/
def cutDigits (places : Nat) (digits : Text) : Text × Text :=
  let digits := List.replicate (places + 1 - digits.length) '0' ++ digits
  (digits.take (digits.length - places), digits.drop (digits.length - places))

/-- Cutting digits loses none of them. -/
theorem cutDigits_append (places : Nat) (digits : Text) :
    (cutDigits places digits).1 ++ (cutDigits places digits).2 =
      List.replicate (places + 1 - digits.length) '0' ++ digits :=
  List.take_append_drop ..

/-- As many digits stand behind the point as there are places. -/
theorem length_cutDigits (places : Nat) (digits : Text) : (cutDigits places digits).2.length = places := by
  simp only [cutDigits, List.length_drop, List.length_append, List.length_replicate]
  omega

/-- A number with so many places and no exponent. -/
def fixed (b : Binary64) (keepsPoint : Bool) (places : Nat) : Text :=
  let (num, den) := b.ratio
  let (whole, fraction) := cutDigits places (Nat.toDigits 10 (roundDiv (num * tenTo places) den))
  pointed keepsPoint whole fraction

/-- The exponent of the greatest power of ten that is not greater than a quotient. -/
def magnitude (num den : Nat) : Int :=
  if den ≤ num then ((Nat.toDigits 10 (num / den)).length : Int) - 1
  else
    let k := (Nat.toDigits 10 (den / num)).length
    if den ≤ num * tenTo (k - 1) then 1 - (k : Int) else -(k : Int)

/-- The digits of a number, one in front of the point and `places` behind it, and the exponent. -/
def digitsAndExponent (b : Binary64) (places : Nat) : Nat × Int :=
  let (num, den) := b.ratio
  if num = 0 then (0, 0)
  else
    let e := magnitude num den
    let d := roundDiv (num * tenTo (places - e).toNat) (den * tenTo (e - places).toNat)
    if tenTo (places + 1) ≤ d then (d / 10, e + 1) else (d, e)

/-- An exponent with its sign. -/
def signedExponent (least : Nat) (e : Int) : Text :=
  let digits := Nat.toDigits 10 e.natAbs
  (if e < 0 then '-' else '+') :: (List.replicate (least - digits.length) '0' ++ digits)

/-- A number with one digit in front of the point, so many places, and an exponent. -/
def scientific (b : Binary64) (keepsPoint : Bool) (places : Nat) : Text :=
  let (d, e) := b.digitsAndExponent places
  let (whole, fraction) := cutDigits places (Nat.toDigits 10 d)
  pointed keepsPoint whole fraction ++ 'e' :: signedExponent 2 e

/-- Leave out the zeros that a fraction ends with, and a point behind which nothing is left. -/
def stripZeros (t : Text) : Text :=
  let front := t.takeWhile (· != 'e')
  let short := (front.reverse.dropWhile (· == '0')).reverse
  (if front.contains '.' then if short.getLast? = some '.' then short.dropLast else short else front) ++
    t.drop front.length

/-- A number with so many digits that count, with an exponent only if it is small or needs more
digits than that. -/
def general (b : Binary64) (keepsZeros : Bool) (digits : Nat) : Text :=
  let digits := max 1 digits
  let (_, e) := b.digitsAndExponent (digits - 1)
  let t :=
    if -4 ≤ e ∧ e < digits then b.fixed keepsZeros ((digits : Int) - 1 - e).toNat
    else b.scientific keepsZeros (digits - 1)
  if keepsZeros then t else stripZeros t

/-- The digits in base sixteen behind the point. -/
def hexPlaces : Nat := 13

/-- A number in base sixteen, with so many places or all that are needed. -/
def hexadecimal (b : Binary64) (keepsPoint : Bool) (places : Option Nat) : Text :=
  let unit := twoTo 52
  let shift := if b.significand = 0 then 0 else 52 - b.significand.log2
  let shift := min shift (b.exponent - least).toNat
  let m := b.significand * twoTo shift
  let e := if b.significand = 0 then 0 else b.exponent - shift + 52
  let (m, kept) := match places with
    | some n =>
      if n < hexPlaces then (roundDiv m (twoTo (4 * (hexPlaces - n))) * twoTo (4 * (hexPlaces - n)), n) else (m, n)
    | none => (m, hexPlaces)
  let digits := Nat.toDigits 16 (m % unit)
  let digits := List.replicate (hexPlaces - digits.length) '0' ++ digits
  let fraction := match places with
    | some _ => digits.take kept ++ List.replicate (kept - hexPlaces) '0'
    | none => (digits.reverse.dropWhile (· == '0')).reverse
  '0' :: 'x' :: (pointed keepsPoint (Nat.toDigits 16 (m / unit)) fraction ++ 'p' :: signedExponent 1 e)

end Caretaker.Binary64

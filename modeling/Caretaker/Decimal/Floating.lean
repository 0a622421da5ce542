import Caretaker.Decimal.Rounded

/-!
# Numbers with a sign, and beyond the finite ones

Numbers of 64 bits as they are read and written: with a sign, in base ten or sixteen, infinite, or
no number at all.
-/

namespace Caretaker

inductive Magnitude where
  | finite (b : Binary64)
  | infinite
  /-- What is not a number. -/
  | undefined
deriving DecidableEq, Repr

structure Floating where
  minus : Bool
  magnitude : Magnitude
deriving DecidableEq, Repr

namespace Floating

def zero : Floating := ⟨false, .finite ⟨0, Binary64.least⟩⟩

def ofNat (n : Nat) : Floating :=
  ⟨false, match Binary64.ofRatio? n 1 with
    | some b => .finite b
    | none => .infinite⟩

/-! ## Reading -/

/-- What is read at the front of a text. -/
structure Scanned where
  magnitude : Magnitude
  /-- Whether the number is too large, or too small to be kept exactly. -/
  outOfRange : Bool
  rest : Text

/-- The nearest number to a quotient, and whether that is out of range. -/
def nearest (num den : Nat) : Magnitude × Bool :=
  match Binary64.ofRatio? num den with
  | none => (.infinite, true)
  | some b =>
    let (n, d) := b.ratio
    (.finite b, b.significand < Binary64.twoTo 52 && n * den != num * d)

/-- Split off a word, whatever its case. -/
def word? (word : String) (t : Text) : Option Text :=
  let w := word.toList
  if (t.take w.length).map Char.toLower = w then some (t.drop w.length) else none

/-- Digits with a point, if there are any: their value, the number of places and the rest. -/
def scanDigits (base : Nat) (t : Text) : Option (Nat × Nat × Text) :=
  let isDigit (c : Char) := (Decimal.digit? base c).isSome
  let whole := t.takeWhile isDigit
  let rest := t.drop whole.length
  let (fraction, rest) := match rest with
    | '.' :: r => (r.takeWhile isDigit, r.dropWhile isDigit)
    | r => ([], r)
  (Decimal.natural? base (whole ++ fraction)).map (·, fraction.length, rest)

/-- An exponent behind a letter, or none. -/
def scanExponent (letter : Char) (t : Text) : Int × Text :=
  match t with
  | c :: r =>
    let (minus, r) := Decimal.splitSign r
    let digits := r.takeWhile Char.isDigit
    match if c.toLower = letter then Decimal.natural? 10 digits else none with
    | some n => (if minus then -(n : Int) else n, r.drop digits.length)
    | none => (0, t)
  | [] => (0, [])

/-- Exponents are as good as infinite beyond this. -/
def beyond : Int := 100000

/-- Read a number without a sign. -/
def scanMagnitude? (t : Text) : Option Scanned :=
  let hexadecimal? : Option Scanned := do
    let rest ← word? "0x" t
    let (n, places, rest) ← scanDigits 16 rest
    let (e, rest) := scanExponent 'p' rest
    let e := max (-beyond) (min beyond (e - 4 * places))
    let (m, range) := nearest (n * Binary64.twoTo e.toNat) (Binary64.twoTo (-e).toNat)
    some ⟨m, range, rest⟩
  let decimal? : Option Scanned := do
    let (n, places, rest) ← scanDigits 10 t
    let (e, rest) := scanExponent 'e' rest
    let e := e - places
    let length := ((Nat.toDigits 10 n).length : Int) + e
    if n = 0 then some ⟨.finite ⟨0, Binary64.least⟩, false, rest⟩
    else if length < -Binary64.beyond then some ⟨.finite ⟨0, Binary64.least⟩, true, rest⟩
    else if Binary64.beyond < length then some ⟨.infinite, true, rest⟩
    else
      let (m, range) := nearest (n * Binary64.tenTo e.toNat) (Binary64.tenTo (-e).toNat)
      some ⟨m, range, rest⟩
  let infinite? : Option Scanned :=
    ((word? "infinity" t).or (word? "inf" t)).map fun rest => ⟨.infinite, false, rest⟩
  let undefined? : Option Scanned := (word? "nan" t).map fun rest =>
    match rest with
    | '(' :: r =>
      match r.dropWhile fun c => c.isAlphanum || c == '_' with
      | ')' :: rest => ⟨.undefined, false, rest⟩
      | _ => ⟨.undefined, false, rest⟩
    | _ => ⟨.undefined, false, rest⟩
  hexadecimal?.or (decimal?.or (infinite?.or undefined?))

/-- Read a number at the front of a text: the number, whether it is out of range, and the rest. -/
def scan? (t : Text) : Option (Floating × Bool × Text) :=
  let (minus, t) := Decimal.splitSign t
  (scanMagnitude? t).map fun s => (⟨minus, s.magnitude⟩, s.outOfRange, s.rest)

/-! ## Writing -/

/-- A way to write a number. -/
inductive Style where
  | fixed
  | scientific
  | general
  | hexadecimal
deriving DecidableEq, Repr

/-- A number without its sign; `keeps` asks for the point and the zeros at the end. -/
def written (style : Style) (keeps : Bool) (precision : Option Nat) (b : Binary64) : Text :=
  match style with
  | .fixed => b.fixed keeps (precision.getD 6)
  | .scientific => b.scientific keeps (precision.getD 6)
  | .general => b.general keeps (precision.getD 6)
  | .hexadecimal => b.hexadecimal keeps precision

end Floating
end Caretaker

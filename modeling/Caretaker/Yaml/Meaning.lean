import Caretaker.Decimal.Binary64
import Caretaker.Yaml.Token.Basic

/-!
# What scalars mean

A plain scalar can stand for nothing, for a truth value or for a number; all other scalars stand for
their text. A tag can ask for one of these meanings.
-/

namespace Caretaker.Yaml

/-- The kinds of integers, by the range that holds them. -/
inductive IntegerSize where
  /-- Up to 64 bits. -/
  | small
  /-- Up to 128 bits, not negative. -/
  | largeNatural
  /-- Up to 128 bits, negative. -/
  | largeNegative
deriving DecidableEq, Repr

inductive Meaning where
  | nothing
  | truth (b : Bool)
  | integer (n : Int) (size : IntegerSize)
  | float (negative : Bool) (b : Binary64)
  | infinity (negative : Bool)
  | notANumber
  | text (t : Text)
deriving Repr

namespace Meaning

/-! ## Plain scalars -/

def nothing? (t : Text) : Option Meaning :=
  if t ∈ ["null", "Null", "NULL", "~"].map String.toList then some .nothing else none

def truth? (t : Text) : Option Meaning :=
  if t ∈ ["true", "True", "TRUE"].map String.toList then some (.truth true)
  else if t ∈ ["false", "False", "FALSE"].map String.toList then some (.truth false)
  else none

/-- Digits that start with a nought are text, unless the nought is all. -/
def isPadded (t : Text) : Bool :=
  match (Decimal.splitSign t).2 with
  | '0' :: r => !r.isEmpty && r.all Char.isDigit
  | _ => false

/-- The number that digits spell in the base that their first two characters announce. -/
def based? (t : Text) : Option Nat :=
  match t with
  | '0' :: 'x' :: r => Decimal.natural? 16 r
  | '0' :: 'o' :: r => Decimal.natural? 8 r
  | '0' :: 'b' :: r => Decimal.natural? 2 r
  | _ => Decimal.natural? 10 t

/-- An integer, if it fits into 128 bits. A number with a minus is negative, or a small nought. -/
def integer? (t : Text) : Option Meaning :=
  if isPadded t then none
  else do
    let (minus, r) := Decimal.splitSign t
    let n ← based? r
    if minus then
      if n ≤ Nat.pow 2 63 then some (.integer (-n) .small)
      else if n ≤ Nat.pow 2 127 then some (.integer (-n) .largeNegative)
      else none
    else if n < Nat.pow 2 64 then some (.integer n .small)
    else if n < Nat.pow 2 128 then some (.integer n .largeNatural)
    else none

/-- A number with a point or an exponent, or one that is too large for an integer. -/
def float? (t : Text) : Option Meaning :=
  let (minus, r) := Decimal.splitSign t
  if r ∈ [".inf", ".Inf", ".INF"].map String.toList then some (.infinity minus)
  else if t ∈ [".nan", ".NaN", ".NAN"].map String.toList then some .notANumber
  else (Decimal.ofText? r).bind fun d => (Binary64.ofDecimal? d).map (.float minus ·)

def ofPlain (t : Text) : Meaning :=
  if t.isEmpty then .nothing
  else
    (nothing? t <|> truth? t <|> integer? t <|> (if isPadded t then none else float? t)).getD (.text t)

/-! ## Tags -/

/-- The tags that ask for a meaning. -/
inductive Wanted where
  | truth
  | integer
  | float
  | nothing
deriving DecidableEq, Repr

def Wanted.ofTag? (tag : Text) : Option Wanted :=
  if tag = "tag:yaml.org,2002:bool".toList then some .truth
  else if tag = "tag:yaml.org,2002:int".toList then some .integer
  else if tag = "tag:yaml.org,2002:float".toList then some .float
  else if tag = "tag:yaml.org,2002:null".toList then some .nothing
  else none

/-- The meaning that a tag asks for, if a text has it. -/
def Wanted.read? (w : Wanted) (t : Text) : Option Meaning :=
  match w with
  | .truth => truth? t
  | .integer => integer? t
  | .float => float? t
  | .nothing => nothing? t

/-- The meaning of a scalar; nothing if its tag asks for a meaning that it has not. -/
def ofScalar (s : Scalar) (tag : Option Text) : Except Wanted Meaning :=
  match tag.bind Wanted.ofTag? with
  | some w =>
    match w.read? s.text with
    | some m => .ok m
    | none => .error w
  | none =>
    if s.plain && tag.all (·.head? == some '!') then .ok (ofPlain s.text) else .ok (.text s.text)

end Meaning
end Caretaker.Yaml

import Caretaker.Decimal.Floating
import Caretaker.Script.Number

/-!
# Formatted output

What the commands `printf` and `echo` print: bytes, with escapes replaced and, for a format, with
arguments put in. A problem with an argument is reported, and a value is printed all the same.
-/

namespace Caretaker.Script.Format

/-! ## Escapes -/

/-- What an escape stands for. -/
inductive Escape where
  | char (c : Char)
  /-- Nothing more is printed. -/
  | stop

def isOctalDigit (c : Char) : Bool := '0' ≤ c && c ≤ '7'

/-- The byte with an octal number. -/
def ofOctal (digits : Octets) : Char := Char.ofNat ((Number.digits 8 digits).1 % 256)

def letter? : Char → Option Char
  | 'a' => some '\x07'
  | 'b' => some '\x08'
  | 't' => some '\t'
  | 'n' => some '\n'
  | 'v' => some '\x0b'
  | 'f' => some '\x0c'
  | 'r' => some '\r'
  | 'e' => some '\x1b'
  | '\\' => some '\\'
  | _ => none

/--
Read an escape behind its backslash. In an argument, an octal number may have one digit more if it
starts with a zero, and a `c` ends the output. A backslash that starts no escape stands for itself.
-/
def readEscape (inArgument : Bool) (s : Octets) : Escape × Octets :=
  match s with
  | [] => (.char '\\', [])
  | c :: r =>
    if inArgument ∧ c = 'c' then (.stop, r)
    else
      let digits := (s.takeWhile isOctalDigit).take (if inArgument ∧ c = '0' then 4 else 3)
      if !digits.isEmpty then (.char (ofOctal digits), s.drop digits.length)
      else
        match letter? c with
        | some c => (.char c, r)
        | none => (.char '\\', s)

/-- Replace the escapes in an argument; the flag says whether output goes on behind it. -/
def unescape : Nat → Octets → Octets × Bool
  | 0, _ | _ + 1, [] => ([], true)
  | fuel + 1, '\\' :: r =>
    match readEscape true r with
    | (.stop, _) => ([], false)
    | (.char c, rest) =>
      let (more, goesOn) := unescape fuel rest
      (c :: more, goesOn)
  | fuel + 1, c :: r =>
    let (more, goesOn) := unescape fuel r
    (c :: more, goesOn)

/-! ## Values of arguments -/

/-- What is wrong with an argument. -/
inductive Problem where
  | noNumber
  | partOnly
  | outOfRange
deriving DecidableEq, Repr

def Problem.message : Problem → String
  | noNumber => "expected numeric value"
  | partOnly => "not completely converted"
  | outOfRange => "Numerical result out of range"

/-- What is wrong with an argument of which the rest has not been read. -/
def problem (rest : Octets) (outOfRange : Bool) : Option Problem :=
  if !rest.isEmpty then some .partOnly else if outOfRange then some .outOfRange else none

/-- The number that a quote in front of a character asks for. -/
def quoted? : Octets → Option Nat
  | '"' :: r | '\'' :: r => some ((r.head?.map Char.toNat).getD 0)
  | _ => none

/-- An argument as a whole number, which a signed directive clamps and another one wraps. -/
def integer (signed : Bool) (arg : Octets) : Int × Option Problem :=
  match quoted? arg with
  | some n => (n, none)
  | none =>
    match Number.scan? true arg with
    | none => (0, if arg.isEmpty then none else some .noNumber)
    | some (n, rest) =>
      let most : Int := 2 * Number.beyond - 1
      if signed then (Number.clamp n, problem rest (!Number.fits n))
      else if most < n.natAbs then (most, problem rest true)
      else (n % (2 * Number.beyond), problem rest false)

/-- An argument as a number of 64 bits. -/
def floating (arg : Octets) : Floating × Option Problem :=
  match quoted? arg with
  | some n => (Floating.ofNat n, none)
  | none =>
    match Floating.scan? (arg.dropWhile Octets.isSpace) with
    | none => (Floating.zero, if arg.isEmpty then none else some .noNumber)
    | some (x, outOfRange, rest) => (x, problem rest outOfRange)

/-! ## Directives -/

/-- What stands between a percent sign and the letter of a directive. -/
structure Directive where
  flags : Octets
  width : Nat
  precision : Option Nat

namespace Directive

def has (d : Directive) (flag : Char) : Bool := d.flags.contains flag

/-- Let a text fill the width, with blanks. -/
def pad (d : Directive) (t : Octets) : Octets :=
  let blanks := List.replicate (d.width - t.length) ' '
  if d.has '-' then t ++ blanks else blanks ++ t

/-- Let a number fill the width, with zeros behind its sign where they are asked for. -/
def padNumber (d : Directive) (zeros : Bool) (sign digits : Octets) : Octets :=
  if zeros && d.has '0' && !d.has '-' then
    sign ++ List.replicate (d.width - sign.length - digits.length) '0' ++ digits
  else d.pad (sign ++ digits)

def sign (d : Directive) (minus : Bool) : Octets :=
  if minus then ['-'] else if d.has '+' then ['+'] else if d.has ' ' then [' '] else []

/-- The digits of a whole number, at least as many as the precision asks for. Without a precision
there is at least one. -/
def digits (d : Directive) (base n : Nat) : Octets :=
  let t := if n = 0 && d.precision = some 0 then [] else Nat.toDigits base n
  List.replicate (d.precision.getD 0 - t.length) '0' ++ t

def signed (d : Directive) (n : Int) : Octets :=
  d.padNumber d.precision.isNone (d.sign (n < 0)) (d.digits 10 n.natAbs)

/-- A whole number without a sign. -/
def unsigned (d : Directive) (base n : Nat) : Octets :=
  let digits := d.digits base n
  let mark : Octets := if base = 16 ∧ d.has '#' ∧ n ≠ 0 then ['0', 'x'] else []
  let digits := if base = 8 ∧ d.has '#' ∧ digits.head? ≠ some '0' then '0' :: digits else digits
  d.padNumber d.precision.isNone mark digits

def floating (d : Directive) (style : Floating.Style) (x : Floating) : Octets :=
  let sign := d.sign x.minus
  match x.magnitude with
  | .infinite => d.padNumber false sign "inf".toList
  | .undefined => d.padNumber false sign "nan".toList
  | .finite b =>
    let t := Floating.written style (d.has '#') d.precision b
    if style = .hexadecimal then d.padNumber true (sign ++ t.take 2) (t.drop 2) else d.padNumber true sign t

/-- The part of a text that the precision leaves, in the width. -/
def text (d : Directive) (t : Octets) : Octets :=
  d.pad (match d.precision with
    | some n => t.take n
    | none => t)

end Directive

/-! ## Printing -/

/-- Why a format cannot be printed. -/
inductive Fault where
  | noLetter
  | invalid (directive : Octets)
deriving DecidableEq, Repr

def Fault.message : Fault → Octets
  | noLetter => "missing format character".toList
  | invalid directive => directive ++ ": invalid directive".toList

/-- A format that is being printed. -/
structure Printing where
  args : List Octets
  /-- Whether a directive has asked for an argument that was there. -/
  used : Bool
  /-- What has been printed, the last piece first. -/
  pieces : List Octets
  /-- The arguments that there was something wrong with, the last one first. -/
  problems : List (Octets × Problem)
  /-- Whether an argument has ended the output. -/
  ended : Bool

namespace Printing

def start (args : List Octets) : Printing := ⟨args, false, [], [], false⟩

def printed (p : Printing) : Octets := p.pieces.reverse.flatten

def add (p : Printing) (t : Octets) : Printing := { p with pieces := t :: p.pieces }

/-- Take an argument; there is an empty one behind the last. -/
def take (p : Printing) : Octets × Printing :=
  match p.args with
  | [] => ([], p)
  | arg :: args => (arg, { p with args, used := true })

/-- Take an argument as a value. -/
def takeAs {α : Type} (p : Printing) (value : Octets → α × Option Problem) : α × Printing :=
  let (arg, p) := p.take
  let (a, problem) := value arg
  (a, { p with problems := (problem.map (arg, ·)).toList ++ p.problems })

/-- Read a width or a precision, which may be an argument of 32 bits. -/
def size (p : Printing) (s : Octets) : Option Int × Printing × Octets :=
  match s with
  | '*' :: r =>
    let (n, p) := p.takeAs (integer true)
    (some (Int.bmod n (Nat.pow 2 32)), p, r)
  | _ =>
    let digits := s.takeWhile Char.isDigit
    (if digits.isEmpty then none else some (Number.digits 10 digits).1, p, s.drop digits.length)

/-- Read what stands between a percent sign and the letter of a directive. -/
def directive (p : Printing) (s : Octets) : Directive × Printing × Octets :=
  let flags := s.takeWhile fun c => "#-+ 0".toList.contains c
  let (width, p, s) := p.size (s.drop flags.length)
  let width := width.getD 0
  let flags := if width < 0 then '-' :: flags else flags
  match s with
  | '.' :: s =>
    let (precision, p, s) := p.size s
    let precision := precision.getD 0
    (⟨flags, width.natAbs, if precision < 0 then none else some precision.toNat⟩, p, s)
  | s => (⟨flags, width.natAbs, none⟩, p, s)

/-- How the letter of a directive writes numbers of 64 bits. -/
def style? : Char → Option Floating.Style
  | 'f' => some .fixed
  | 'e' => some .scientific
  | 'g' => some .general
  | 'a' => some .hexadecimal
  | _ => none

/-- Carry out a directive; nothing for a letter that there is no directive for. -/
def convert (p : Printing) (d : Directive) (letter : Char) : Option Printing :=
  let upper (t : Octets) : Octets := if letter.isUpper then t.map Char.toUpper else t
  let unsigned (base : Nat) : Option Printing :=
    let (n, p) := p.takeAs (integer false)
    some (p.add (upper (d.unsigned base n.toNat)))
  match letter with
  | 's' =>
    let (arg, p) := p.take
    some (p.add (d.text arg))
  | 'b' =>
    let (arg, p) := p.take
    let (t, goesOn) := unescape (arg.length + 1) arg
    some { p.add (d.text t) with ended := !goesOn }
  | 'c' =>
    let (arg, p) := p.take
    some (p.add (d.pad [arg.headD '\x00']))
  | 'd' | 'i' =>
    let (n, p) := p.takeAs (integer true)
    some (p.add (d.signed n))
  | 'u' => unsigned 10
  | 'o' => unsigned 8
  | 'x' | 'X' => unsigned 16
  | letter => (style? letter.toLower).map fun style =>
    let (x, p) := p.takeAs Format.floating
    p.add (upper (d.floating style x))

/-- Print a format once. -/
def once : Nat → Octets → Printing → Except (Fault × Printing) Printing
  | 0, _, p | _ + 1, [], p => .ok p
  | fuel + 1, '%' :: '%' :: r, p => once fuel r (p.add ['%'])
  | fuel + 1, '%' :: r, p =>
    let (d, p, s) := p.directive r
    match s with
    | [] => .error (.noLetter, p)
    | letter :: rest =>
      match p.convert d letter with
      | some p => if p.ended then .ok p else once fuel rest p
      | none => .error (.invalid ('%' :: r.take (r.length - rest.length)), p)
  | fuel + 1, '\\' :: r, p =>
    match readEscape false r with
    | (.char c, rest) => once fuel rest (p.add [c])
    | (.stop, _) => .ok p
  | fuel + 1, c :: r, p => once fuel r (p.add [c])

/-- Print a format until all arguments are used up. -/
def all (format : Octets) : Nat → Printing → Except (Fault × Printing) Printing
  | 0, p => .ok p
  | fuel + 1, p => do
    let p ← once (format.length + 1) format p
    if p.ended || p.args.isEmpty || !p.used then return p
    all format fuel p

end Printing

/-- Print a format with arguments. What has been printed in front of a fault is lost, but not what was
wrong with arguments. -/
def print (format : Octets) (args : List Octets) : Except (Fault × Printing) Printing :=
  Printing.all format (args.length + 1) (.start args)

end Caretaker.Script.Format

import Caretaker.Script.Number
import Caretaker.Script.World

/-!
# Conditions

The conditions of the command `test`, which looks at texts, numbers and files. A condition is read
and evaluated in one go, without leaving out what cannot matter.
-/

namespace Caretaker.Script

/-- Why a list of words is no condition. -/
inductive ConditionError where
  | argumentExpected (operator : Octets)
  | unexpectedOperator (word : Octets)
  | closingExpected
  | illegalNumber (word : Octets)
deriving DecidableEq, Repr

def ConditionError.message : ConditionError → Octets
  | .argumentExpected operator => operator ++ ": argument expected".toList
  | .unexpectedOperator word =>
    if word.isEmpty then "unexpected operator".toList else word ++ ": unexpected operator".toList
  | .closingExpected => "closing paren expected".toList
  | .illegalNumber word => "Illegal number: ".toList ++ word

namespace Condition

/-! ## Files -/

/-- What a path leads to, as far as conditions tell it apart. -/
inductive Kind where
  | file (isEmpty executable : Bool)
  | directory
  | device
  | pipe
deriving DecidableEq, Repr

/-- What a condition is about: the files, and where the descriptors lead. -/
structure Site where
  world : World
  cwd : Place
  descriptors : Nat → Option Nat

namespace Site

def isTerminal (s : Site) : Channel → Bool
  | .stream .output => s.world.machine.terminal
  | _ => false

/-- The kind of an entry. -/
def kindOf : Entry → Kind
  | .file content executable => .file content.isEmpty executable
  | .dir | .link _ => .directory

/-- The open file that a descriptor leads to. -/
def openFile? (s : Site) (n : Nat) : Option OpenFile := (s.descriptors n).bind (s.world.opened[·]?)

/-- What a path leads to. -/
def kind? (s : Site) (path : Octets) : Option Kind :=
  match s.world.locate s.cwd true path with
  | .error _ => none
  | .ok place =>
    match Device.ofPlace? place with
    | some (.descriptor n) => (s.openFile? n).bind fun f =>
      match f.channel with
      | .file place => (s.world.machine.files.get? place).map kindOf
      | .directory => some .directory
      | .device _ => some .device
      | channel => some (if s.isTerminal channel then .device else .pipe)
    | some _ => some .device
    | none => (s.world.machine.files.get? place).map kindOf

def isLink (s : Site) (path : Octets) : Bool :=
  match s.world.find s.cwd false path with
  | .ok (_, .link _) => true
  | _ => false

/-- The place of what a path leads to. -/
def place? (s : Site) (path : Octets) : Option Place := (s.world.find s.cwd true path).toOption.map (·.1)

end Site

/-! ## Operators -/

def unaryOperators : List String :=
  ["-n", "-z", "-b", "-c", "-d", "-e", "-f", "-g", "-h", "-k", "-L", "-O", "-G", "-p", "-r", "-s", "-S", "-t",
    "-u", "-w", "-x"]

def binaryOperators : List String :=
  ["=", "!=", "<", ">", "-eq", "-ne", "-lt", "-le", "-gt", "-ge", "-nt", "-ot", "-ef"]

def isUnary (w : Octets) : Bool := unaryOperators.any (·.toList == w)

def isBinary (w : Octets) : Bool := binaryOperators.any (·.toList == w)

abbrev Result := Except ConditionError

def number (w : Octets) : Result Int :=
  match Number.whole? false w with
  | some n => .ok n
  | none => .error (.illegalNumber w)

/-- The value of an operator with one operand. -/
def unary (s : Site) (operator operand : Octets) : Result Bool :=
  let kind := s.kind? operand
  match String.ofList operator with
  | "-n" => .ok !operand.isEmpty
  | "-z" => .ok operand.isEmpty
  | "-e" | "-r" | "-w" | "-O" | "-G" => .ok kind.isSome
  | "-f" => .ok (kind.any fun
    | .file .. => true
    | _ => false)
  | "-d" => .ok (kind = some .directory)
  | "-c" => .ok (kind = some .device)
  | "-p" => .ok (kind = some .pipe)
  | "-L" | "-h" => .ok (s.isLink operand)
  | "-k" => .ok (s.place? operand = some [.text "tmp".toList])
  | "-s" => .ok (kind.any fun
    | .file isEmpty _ => !isEmpty
    | k => k = .directory)
  | "-x" => .ok (kind.any fun
    | .file _ executable => executable
    | k => k = .directory)
  | "-t" => (number operand).map fun n => (s.openFile? n.toNat).any fun f => 0 ≤ n && s.isTerminal f.channel
  | _ => .ok false

/-- The value of an operator with two operands. -/
def binary (s : Site) (left operator right : Octets) : Result Bool :=
  let numbers (compare : Int → Int → Bool) : Result Bool := do
    let a ← number left
    return compare a (← number right)
  match String.ofList operator with
  | "=" => .ok (left == right)
  | "!=" => .ok (left != right)
  | "<" => .ok (left != right && Octets.le left right)
  | ">" => .ok (left != right && Octets.le right left)
  | "-eq" => numbers (· == ·)
  | "-ne" => numbers (· != ·)
  | "-lt" => numbers (· < ·)
  | "-le" => numbers (· ≤ ·)
  | "-gt" => numbers (· > ·)
  | "-ge" => numbers (· ≥ ·)
  | "-ef" => .ok ((s.place? left).isSome && s.place? left == s.place? right)
  | _ => .ok false

/-! ## Reading -/

/-- What a word is for. A word that looks like an operator is an operand where it has to be one. -/
inductive Role where
  | finish
  | unary
  | binary
  | and
  | or
  | not
  | opening
  | closing
  | operand
deriving DecidableEq, Repr

/-- Whether an operator with one operand is an operand itself: it is last, or stands in front of an
operator with two operands. -/
def standsForItself : List Octets → Bool
  | [] => true
  | [_] => false
  | operator :: _ :: _ => isBinary operator

/-- The role of the first word. -/
def role : List Octets → Role
  | [] => .finish
  | w :: rest =>
    if w = ['!'] then .not
    else if w = ['('] then (if rest.isEmpty then .operand else .opening)
    else if w = [')'] then .closing
    else if w = "-a".toList then .and
    else if w = "-o".toList then .or
    else if isBinary w then .binary
    else if isUnary w then (if standsForItself rest then .operand else .unary)
    else .operand

mutual

/-- Read conditions joined by `-o`. The role of the first word is given, as it may be forced. -/
def readOr (s : Site) : Nat → Role → List Octets → Result (Bool × List Octets)
  | 0, _, words => .ok (false, words)
  | fuel + 1, r, words => do
    let (value, rest) ← readAnd s fuel r words
    if role rest = .or then
      let (more, rest) ← readOr s fuel (role (rest.drop 1)) (rest.drop 1)
      .ok (value || more, rest)
    else .ok (value, rest)

/-- Read conditions joined by `-a`. -/
def readAnd (s : Site) : Nat → Role → List Octets → Result (Bool × List Octets)
  | 0, _, words => .ok (false, words)
  | fuel + 1, r, words => do
    let (value, rest) ← readNot s fuel r words
    if role rest = .and then
      let (more, rest) ← readAnd s fuel (role (rest.drop 1)) (rest.drop 1)
      .ok (value && more, rest)
    else .ok (value, rest)

/-- Read a condition that may be negated. -/
def readNot (s : Site) : Nat → Role → List Octets → Result (Bool × List Octets)
  | 0, _, words => .ok (false, words)
  | fuel + 1, r, words =>
    if r = .not then
      match words.drop 1 with
      | [] => .ok (true, [])
      | rest => do
        let (value, rest) ← readNot s fuel (role rest) rest
        .ok (!value, rest)
    else readPrimary s fuel r words

/-- Read a condition in parentheses, or one operator with its operands. -/
def readPrimary (s : Site) : Nat → Role → List Octets → Result (Bool × List Octets)
  | 0, _, words => .ok (false, words)
  | fuel + 1, r, words =>
    match r, words with
    | .finish, _ | _, [] => .ok (false, words)
    | .opening, _ :: rest =>
      if role rest = .closing then .ok (false, rest.drop 1)
      else do
        let (value, rest) ← readOr s fuel (role rest) rest
        if role rest = .closing then .ok (value, rest.drop 1) else .error .closingExpected
    | .unary, [operator] => .error (.argumentExpected operator)
    | .unary, operator :: operand :: rest => do .ok (← unary s operator operand, rest)
    | _, [word] => .ok (!word.isEmpty, [])
    | _, left :: operator :: rest =>
      if role (operator :: rest) = .binary then
        match rest with
        | [] => .error (.argumentExpected operator)
        | right :: rest => do .ok (← binary s left operator right, rest)
      else .ok (!left.isEmpty, operator :: rest)

end

/-- Read a whole condition, with the role of its first word. The last word that was read is refused
if another one follows. -/
def whole (s : Site) (first : Role) (words : List Octets) : Result Bool := do
  let (value, rest) ← readOr s (4 * words.length + 4) first words
  if rest.isEmpty then .ok value
  else .error (.unexpectedOperator (words[words.length - rest.length - 1]?.getD []))

/--
The value of a condition. Without words it does not hold. Of three words with an operator in the
middle, the first is an operand, whatever it looks like; other three words and four words may be
negated or stand in parentheses.
-/
def value (s : Site) (words : List Octets) : Result Bool :=
  match words with
  | [] => .ok false
  | [first, operator, last] =>
    if isBinary operator then whole s .operand words
    else if first = ['('] ∧ last = [')'] then whole s (role [operator]) [operator]
    else if first = ['!'] then do return !(← value s [operator, last])
    else whole s (role words) words
  | [first, a, b, last] =>
    if first = ['('] ∧ last = [')'] then whole s (role [a, b]) [a, b]
    else if first = ['!'] then do return !(← value s [a, b, last])
    else whole s (role words) words
  | words => whole s (role words) words
termination_by words.length

end Condition
end Caretaker.Script

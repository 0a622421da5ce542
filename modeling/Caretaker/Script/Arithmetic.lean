import Caretaker.Script.Variables

/-!
# Arithmetic expressions

The expressions between double parentheses: numbers of 64 bits that wrap around, variables, the
usual operators and assignments. An expression is evaluated while it is read, so that of two faults
the one that is met first counts. What cannot matter is read but not evaluated.
-/

namespace Caretaker.Script

/-- Why an expression has no value. -/
inductive ArithmeticFault where
  | divisionByZero
  | expectingPrimary
  | expectingParenthesis
  | expectingColon
  | expectingEnd
  /-- A variable does not hold a number, or cannot be assigned to. -/
  | variable (v : VariableFault)
  /-- A quotient that is no number of 64 bits, which ends the shell. -/
  | overflow
deriving DecidableEq, Repr

/-- The message about an expression. -/
def ArithmeticFault.message (expression : Octets) : ArithmeticFault → Octets
  | .variable v => v.message
  | e => "arithmetic expression: ".toList ++ (detail e).toList ++ ": \"".toList ++ expression ++ ['"']
where
  detail : ArithmeticFault → String
    | .divisionByZero => "division by zero"
    | .expectingPrimary => "expecting primary"
    | .expectingParenthesis => "expecting ')'"
    | .expectingColon => "expecting ':'"
    | .expectingEnd => "expecting EOF"
    | .variable _ | .overflow => ""

namespace Arithmetic

/-! ## Symbols -/

inductive Operator where
  | mul | div | rem | add | sub | shiftLeft | shiftRight
  | less | lessEq | greater | greaterEq | equal | unequal
  | bitAnd | bitXor | bitOr
deriving DecidableEq, Repr

inductive Symbol where
  | number (n : Int64)
  | name (t : Octets)
  | operator (o : Operator)
  /-- An assignment, maybe of the old value combined with a new one. -/
  | assign (o : Option Operator)
  | and
  | or
  | not
  | complement
  | opening
  | closing
  | question
  | colon
  /-- What is no symbol; nothing is read behind it. -/
  | other
deriving DecidableEq, Repr

/-- How loosely an operator binds. -/
def Operator.looseness : Operator → Nat
  | mul | div | rem => 0
  | add | sub => 1
  | shiftLeft | shiftRight => 2
  | less | lessEq | greater | greaterEq => 3
  | equal | unequal => 4
  | bitAnd => 5
  | bitXor => 6
  | bitOr => 7

/-- Looser than all operators. -/
def loosest : Nat := 8

/-- The spellings of symbols, longer ones first. -/
def spellings : List (String × Symbol) :=
  [("<<=", .assign (some .shiftLeft)), (">>=", .assign (some .shiftRight)), ("<<", .operator .shiftLeft),
    (">>", .operator .shiftRight), ("<=", .operator .lessEq), (">=", .operator .greaterEq),
    ("==", .operator .equal), ("!=", .operator .unequal), ("&&", .and), ("||", .or),
    ("*=", .assign (some .mul)), ("/=", .assign (some .div)), ("%=", .assign (some .rem)),
    ("+=", .assign (some .add)), ("-=", .assign (some .sub)), ("&=", .assign (some .bitAnd)),
    ("^=", .assign (some .bitXor)), ("|=", .assign (some .bitOr)), ("=", .assign none), ("<", .operator .less),
    (">", .operator .greater), ("*", .operator .mul), ("/", .operator .div), ("%", .operator .rem),
    ("+", .operator .add), ("-", .operator .sub), ("&", .operator .bitAnd), ("^", .operator .bitXor),
    ("|", .operator .bitOr), ("!", .not), ("~", .complement), ("(", .opening), (")", .closing), ("?", .question),
    (":", .colon)]

/-- The symbols of an expression; the number bounds its length. -/
def symbols : Nat → Octets → List Symbol
  | 0, _ | _ + 1, [] => []
  | fuel + 1, c :: r =>
    if c = ' ' ∨ c = '\t' ∨ c = '\n' then symbols fuel r
    else if c.isDigit then
      match Number.unsigned? true (c :: r) with
      | some (n, rest) => .number (Int64.ofInt (Number.clamp n)) :: symbols fuel rest
      | none => [.other]
    else if Octets.startsName c then
      let name := Octets.nameOf (c :: r)
      .name name :: symbols fuel ((c :: r).drop name.length)
    else
      match spellings.find? fun (s, _) => s.toList.isPrefixOf (c :: r) with
      | some (s, symbol) => symbol :: symbols fuel ((c :: r).drop s.length)
      | none => [.other]

/-! ## Values -/

/-- An expression in the middle of its evaluation. -/
structure Rest where
  symbols : List Symbol
  vars : Variables

abbrev Evaluation := EStateM ArithmeticFault Rest

def ofBool (b : Bool) : Int64 := if b then 1 else 0

/-- The value of an operator. -/
def Operator.value (o : Operator) (a b : Int64) : Except ArithmeticFault Int64 :=
  let quotient (n : Int64) : Except ArithmeticFault Int64 :=
    if b = 0 then .error .divisionByZero
    -- the one quotient that is too large
    else if a = Int64.minValue ∧ b = -1 then .error .overflow
    else .ok n
  match o with
  | .mul => .ok (a * b)
  | .div => quotient (a / b)
  | .rem => quotient (a % b)
  | .add => .ok (a + b)
  | .sub => .ok (a - b)
  | .shiftLeft => .ok (a <<< b)
  | .shiftRight => .ok (a >>> b)
  | .less => .ok (ofBool (a < b))
  | .lessEq => .ok (ofBool (a ≤ b))
  | .greater => .ok (ofBool (b < a))
  | .greaterEq => .ok (ofBool (b ≤ a))
  | .equal => .ok (ofBool (a = b))
  | .unequal => .ok (ofBool (a ≠ b))
  | .bitAnd => .ok (a &&& b)
  | .bitXor => .ok (a ^^^ b)
  | .bitOr => .ok (a ||| b)

/-- The value of an operator, if it matters. -/
def combine (matters : Bool) (o : Operator) (a b : Int64) : Evaluation Int64 :=
  if !matters then return b
  else
    match o.value a b with
    | .ok n => return n
    | .error e => throw e

/-- The number in a variable; without a value it is zero. -/
def valueOf (matters : Bool) (name : Octets) : Evaluation Int64 := do
  if !matters then return 0
  let t := ((← get).vars.value? name).getD []
  if t.all Octets.isSpace then return 0
  match Number.whole? true t with
  | some n => return Int64.ofInt n
  | none => throw (.variable (.illegalNumber t))

/-- Assign to a variable. -/
def assign (name : Octets) (n : Int64) : Evaluation Unit := do
  let r ← get
  match r.vars.set name (some (Octets.ofInt n.toInt)) .none with
  | .ok vs => set { r with vars := vs }
  | .error e => throw (.variable e)

def skip (rest : List Symbol) : Evaluation Unit := modify fun r => { r with symbols := rest }

mutual

/-- Evaluate an assignment, or a choice. -/
def assignment : Nat → (matters : Bool) → Evaluation Int64
  | 0, _ => throw .expectingPrimary
  | fuel + 1, matters => do
    match (← get).symbols with
    | .name name :: .assign o :: rest =>
      skip rest
      let n ← assignment fuel matters
      if !matters then return n
      let n ← match o with
        | some o => do combine true o (← valueOf true name) n
        | none => pure n
      assign name n
      return n
    | _ => choice fuel matters

/-- Evaluate a choice between two expressions. -/
def choice : Nat → (matters : Bool) → Evaluation Int64
  | 0, _ => throw .expectingPrimary
  | fuel + 1, matters => do
    let test ← disjunction fuel matters
    match (← get).symbols with
    | .question :: rest =>
      skip rest
      -- both sides are read, but only one of them may assign or fail
      let yes ← assignment fuel (matters && test != 0)
      match (← get).symbols with
      | .colon :: rest =>
        skip rest
        let no ← choice fuel (matters && test == 0)
        return if test != 0 then yes else no
      | _ => throw .expectingColon
    | _ => return test

def disjunction : Nat → (matters : Bool) → Evaluation Int64
  | 0, _ => throw .expectingPrimary
  | fuel + 1, matters => do
    let a ← conjunction fuel matters
    match (← get).symbols with
    | .or :: rest =>
      skip rest
      let b ← disjunction fuel (matters && a == 0)
      return ofBool (a != 0 || b != 0)
    | _ => return a

def conjunction : Nat → (matters : Bool) → Evaluation Int64
  | 0, _ => throw .expectingPrimary
  | fuel + 1, matters => do
    let a ← operation fuel matters loosest (← primary fuel matters)
    match (← get).symbols with
    | .and :: rest =>
      skip rest
      let b ← conjunction fuel (matters && a != 0)
      return ofBool (a != 0 && b != 0)
    | _ => return a

/-- Go on behind a left operand, as long as operators bind more tightly than a bound. -/
def operation : Nat → (matters : Bool) → (bound : Nat) → Int64 → Evaluation Int64
  | 0, _, _, _ => throw .expectingPrimary
  | fuel + 1, matters, bound, a => do
    match (← get).symbols with
    | .operator o :: rest =>
      -- operators that bind alike are taken from the left
      if bound ≤ o.looseness then return a
      skip rest
      let b ← operation fuel matters o.looseness (← primary fuel matters)
      operation fuel matters bound (← combine matters o a b)
    | _ => return a

/-- Evaluate a number, a variable, or an expression in parentheses, behind its signs. -/
def primary : Nat → (matters : Bool) → Evaluation Int64
  | 0, _ => throw .expectingPrimary
  | fuel + 1, matters => do
    match (← get).symbols with
    | .number n :: rest =>
      skip rest
      return n
    | .name name :: rest =>
      skip rest
      valueOf matters name
    | .operator .add :: rest =>
      skip rest
      primary fuel matters
    | .operator .sub :: rest =>
      skip rest
      return -(← primary fuel matters)
    | .not :: rest =>
      skip rest
      return ofBool ((← primary fuel matters) == 0)
    | .complement :: rest =>
      skip rest
      return ~~~(← primary fuel matters)
    | .opening :: rest =>
      skip rest
      let n ← assignment fuel matters
      match (← get).symbols with
      | .closing :: rest =>
        skip rest
        return n
      | _ => throw .expectingParenthesis
    | _ => throw .expectingPrimary

end

/-- Evaluate a whole expression: its value and the variables behind it. -/
def evaluate (t : Octets) (vars : Variables) : Except ArithmeticFault Int64 × Variables :=
  let ss := symbols (t.length + 1) t
  let whole : Evaluation Int64 := do
    let n ← assignment (8 * ss.length + 8) true
    if !(← get).symbols.isEmpty then throw .expectingEnd
    return n
  match whole ⟨ss, vars⟩ with
  | .ok n r => (.ok n, r.vars)
  | .error e r => (.error e, r.vars)

end Arithmetic
end Caretaker.Script

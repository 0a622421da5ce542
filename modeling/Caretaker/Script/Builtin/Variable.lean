import Caretaker.Script.Builtin.Basic

/-!
# Commands about variables

The commands that mark, hide, remove and read variables, and the one that reads options.
-/

namespace Caretaker.Script.Builtin

open Step

/-- The lines that show variables, in order of their names. -/
def listVariables (front : String) (p : Variable → Bool) : Step Unit := do
  let front := if front.isEmpty then [] else front.toList ++ [' ']
  ((← get).vars.listed p).forM fun (name, v) =>
    printLine (front ++ name ++ match v.value with
      | some t => '=' :: Octets.quoted t
      | none => [])

/-- Mark variables, which may be assigned to, or list the ones that are marked. -/
def mark (command : String) (marks : Marks) (isMarked : Variable → Bool) : Action := fun args => do
  let (lists, args) ← oneOption 'p' args
  if lists || args.isEmpty then listVariables command isMarked
  else
    args.forM fun t => do
      match assignment t with
      | (name, none) => change (·.mark name marks)
      | (name, value) => assign name value marks
  return 0

def «export» : Action := mark "export" ⟨true, false, false⟩ (·.exported)

def readonly : Action := mark "readonly" ⟨false, true, false⟩ (·.readOnly)

/-- Hide variables while the function runs; without a value they keep the old one. -/
def «local» : Action := fun args => do
  if (← get).locals.isEmpty then failWith "not in a function"
  args.forM fun t => hide t .none
  return 0

/-- Remove variables, or functions. -/
def unset : Action := fun args => do
  let (found, args) ← options (flags "vf") args
  args.forM fun name => do
    if (found.getLast?.map (·.1)) = some 'f' then
      modify fun s => { s with functions := s.functions.filter (·.1 != name) }
    else assign name none .none
  return 0

/-! ## Reading a line -/

/-- A line that is being read. -/
structure Line where
  cells : Expanded
  /-- Where the part starts that is cut. -/
  start : Nat
  /-- Whether a backslash has been read in front. -/
  escaped : Bool

namespace Line

/-- Let what has been read be cut, up to here. -/
def close (l : Line) : Line := { l with cells := l.cells.cutFrom l.start false }

/-- Read up to the end of a line. Unless backslashes stand for themselves, one of them takes the
meaning of the character behind it away, or joins two lines. The number of bytes that have been read
comes too, and whether the end of the line has been found. -/
def read (raw : Bool) : Octets → Nat → Line → Line × Nat × Bool
  | [], count, l => (l.close, count, false)
  | c :: rest, count, l =>
    if c = '\x00' then read raw rest (count + 1) l
    else if l.escaped then
      let l := l.close
      let cells := if c = '\n' then l.cells else l.cells.put (.plain c)
      read raw rest (count + 1) ⟨cells, cells.size, false⟩
    else if c = '\\' && !raw then read raw rest (count + 1) { l with escaped := true }
    else if c = '\n' then (l.close, count + 1, true)
    else read raw rest (count + 1) { l with cells := l.cells.put (.plain c) }

end Line

/-- Assign fields to variables; those that are left over are emptied. -/
def assignFields : List Octets → List Octets → Step Unit
  | [], _ => return
  | name :: names, fields => do
    assign name (some (fields.headD [])) .none
    assignFields names (fields.drop 1)

/-- Read a line, and cut it into variables. -/
def read : Action := fun args => do
  let (found, names) ← options [('p', true), ('r', false)] args
  if names.isEmpty then failWith "arg count"
  let s ← get
  let (line, atEnd) ← match (s.descriptor? 0).map fun n => (n, s.world.unread n) with
    | some (n, .ok t) =>
      let (line, count, atEnd) := Line.read (found.any (·.1 == 'r')) t 0 ⟨.empty, 0, false⟩
      set { s with world := s.world.advance n count !atEnd }
      pure (line, atEnd)
    | _ => pure ((⟨.empty, 0, false⟩ : Line).close, false)
  let fields := Field.ofExpanded s.separators (some names.length) line.cells
  assignFields names (fields.map Cell.text)
  return if atEnd then 0 else 1

/-! ## Reading options -/

/-- What a letter among options is allowed to be: whether it is known, and whether a value follows. -/
def optionKind (allowed : Octets) (c : Char) : Option Bool :=
  match allowed with
  | [] => none
  | d :: ':' :: rest => if c = d then some true else optionKind rest c
  | d :: rest => if c = d then some false else optionKind rest c

/-- The next option among arguments. -/
structure NextOption where
  /-- The letter, or a question mark or a colon. -/
  letter : Char
  value : Option Octets
  position : OptionPosition
  atEnd : Bool
  /-- What is said about it. -/
  message : Option String

/-- Find the next option. With a colon in front of what is allowed, problems are told by the letter.
-/
def nextOption (allowed : Octets) (args : List Octets) (p : OptionPosition) : NextOption :=
  let quiet := allowed.head? = some ':'
  let index := (p.next - 1).toNat
  let current := match p.offset with
    | some n =>
      if p.next ≤ 1 then []
      else
        let t := args[index - 1]?.getD []
        if t.length < n then [] else t.drop n
    | none => []
  let fresh : Option (Octets × Nat) := match args[index]? with
    | some ['-', '-'] => none
    | some ('-' :: c :: more) => some (c :: more, index + 1)
    | _ => none
  let start := if current.isEmpty then fresh else some (current, index)
  match start with
  | none =>
    let skipped := if args[index]? = some ['-', '-'] then index + 1 else index
    ⟨'?', none, ⟨skipped + 1, none⟩, true, none⟩
  | some ([], index) => ⟨'?', none, ⟨index + 1, none⟩, true, none⟩
  | some (c :: rest, index) =>
    let offset : Option Nat := some ((args[index - 1]?.getD []).length - rest.length)
    match optionKind allowed c with
    | none =>
      ⟨'?', if quiet then some [c] else none, ⟨index + 1, offset⟩, false,
        if quiet then none else some ("Illegal option -" ++ toString c)⟩
    | some false => ⟨c, some [], ⟨index + 1, offset⟩, false, none⟩
    | some true =>
      if !rest.isEmpty then ⟨c, some rest, ⟨index + 1, none⟩, false, none⟩
      else
        match args[index]? with
        | some value => ⟨c, some value, ⟨index + 2, none⟩, false, none⟩
        | none =>
          ⟨if quiet then ':' else '?', if quiet then some [c] else none, ⟨index + 1, none⟩, false,
            if quiet then none else some ("No arg for -" ++ toString c ++ " option")⟩

/-- Read the next option of the script, or of other arguments. -/
def getopts : Action := fun args => do
  match args with
  | allowed :: name :: others =>
    let s ← get
    let args := if others.isEmpty then s.args else others
    let p := s.vars.position
    let p := if (args.length : Int) + 1 < p.next then .start else p
    let o := nextOption allowed args p
    if let some message := o.message then report message.toList
    if !o.atEnd then assign "OPTARG".toList o.value .none
    assign Variables.positionName (some (Octets.ofInt o.position.next)) .none
    assign name (some [o.letter]) .none
    modify fun s => { s with vars := { s.vars with position := o.position } }
    return if o.atEnd then 1 else 0
  | _ => failWith "Usage: getopts optstring var [arg...]"

end Caretaker.Script.Builtin

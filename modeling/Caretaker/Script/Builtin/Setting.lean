import Caretaker.Script.Builtin.Variable

/-!
# Commands that set switches and limits

The command `set`, and those that limit what the process may use.
-/

namespace Caretaker.Script.Builtin

open Step

/-! ## Switches -/

/-- Let other arguments stand in place of those of the script or function. -/
def setArguments (args : List Octets) : Step Unit := modify fun s =>
  { s with args, vars := { s.vars with position := .start } }

/-- Turn a switch on or off. Of the two ways of editing lines only one can be on; and control over
jobs needs a terminal, which there is none of. -/
def turn (switch : Switch) (on : Bool) : Step Unit := do
  let switches := Switch.turn (← get).switches switch on
  let switches := match switch with
    | .vi => if on then Switch.turn switches .emacs false else switches
    | .emacs => if on then Switch.turn switches .vi false else switches
    | _ => switches
  setSwitches switches

/-- Show a switch, or the command that sets it. -/
def showSwitch (asCommand : Bool) (switch : Switch) (on : Bool) : Step Unit := do
  let name := switch.name.toList
  if asCommand then printLine ("set ".toList ++ (if on then '-' else '+') :: "o ".toList ++ name)
  else printLine (name ++ List.replicate (16 - name.length) ' ' ++ if on then "on".toList else "off".toList)

/-- Show all switches, or the commands that set them. -/
def showSwitches (asCommands : Bool) : Step Unit := do
  let s ← get
  if !asCommands then printLine "Current option settings".toList
  Switch.all.forM fun switch => showSwitch asCommands switch (s.isOn switch)

/-- Turn switches on or off by their letters; one of them asks for a name in the next argument. -/
def turnLetters (on : Bool) : Octets → List Octets → Step (List Octets)
  | [], rest => return rest
  | 'o' :: letters, [] => do
    showSwitches !on
    turnLetters on letters []
  | 'o' :: letters, name :: rest => do
    match Switch.ofName? name with
    | some switch => turn switch on
    | none => fail ("Illegal option -o ".toList ++ name)
    turnLetters on letters rest
  | c :: letters, rest => do
    match Switch.ofLetter? c with
    | some switch => turn switch on
    | none => fail ("Illegal option -".toList ++ [c])
    turnLetters on letters rest

/-- Read the switches in front of arguments; what is left are the new arguments, if there are any. -/
def turnAll : Nat → List Octets → Step (Option (List Octets))
  | 0, args => return some args
  | _ + 1, [] => return none
  | fuel + 1, arg :: rest => do
    match arg with
    | ['-', '-'] => return some rest
    | ['-'] =>
      turn .xtrace false
      turn .verbose false
      return if rest.isEmpty then none else some rest
    | '-' :: letters => turnAll fuel (← turnLetters true letters rest)
    | '+' :: letters => turnAll fuel (← turnLetters false letters rest)
    | _ => return some (arg :: rest)

/-- Set switches and arguments, or list variables. -/
def set : Action := fun args => do
  if args.isEmpty then
    listVariables "" (·.value.isSome)
    return 0
  let before := (← get).isOn .monitor
  let new ← turnAll (args.length + 1) args
  if (← get).isOn .monitor && !before then
    complain "can't access tty; job control turned off".toList
    turn .monitor false
  if let some args := new then setArguments args
  return 0

/-! ## Limits -/

/-- The name of each limit, its letter, and its usual value. -/
def limits : List (String × Char × String) :=
  [("time(seconds)", 't', "unlimited"), ("file(blocks)", 'f', "unlimited"), ("data(kbytes)", 'd', "unlimited"),
    ("stack(kbytes)", 's', "8192"), ("coredump(blocks)", 'c', "0"), ("memory(kbytes)", 'm', "unlimited"),
    ("locked memory(kbytes)", 'l', "8192"), ("process", 'p', "unlimited"), ("nofiles", 'n', "1048576"),
    ("vmemory(kbytes)", 'v', "unlimited"), ("locks", 'w', "unlimited"), ("rtprio", 'r', "0")]

def limit (s : Shell) (letter : Char) : Octets :=
  ((s.limits.find? (·.1 == letter)).map (·.2)).getD
    (((limits.find? (·.2.1 == letter)).map (·.2.2.toList)).getD [])

/-- Show limits, or set one of them. -/
def ulimit : Action := fun args => do
  let (found, args) ← options (flags "HSatfdscmlpnvwr") args
  let letters := (found.map (·.1)).filter fun c => !"HSa".toList.contains c
  let letter := letters.getLast?.getD 'f'
  let s ← get
  match args with
  | t :: more =>
    if found.any (·.1 == 'a') || !more.isEmpty then failWith "too many arguments"
    if t ≠ "unlimited".toList ∧ !t.all Char.isDigit then failWith "bad number"
    let value := if t.all Char.isDigit then Octets.ofNat (Number.digits 10 t).1 else t
    modify fun s => { s with limits := (letter, value) :: s.limits }
  | [] =>
    if found.any (·.1 == 'a') then
      limits.forM fun (name, letter, _) =>
        printLine (name.toList ++ List.replicate (20 - name.length) ' ' ++ ' ' :: limit s letter)
    else printLine (limit s letter)
  return 0

/-- The bits of a mode of files. -/
def bit (n : Nat) (k : Nat) : Bool := n.testBit k

/-- What a mask allows to one of three groups. -/
def allowed (mask group : Nat) : Octets :=
  [('r', 2), ('w', 1), ('x', 0)].filterMap fun (c, k) => if bit mask (3 * group + k) then none else some c

/-- Change the modes that a mask allows by clauses such as `u=rw,g-w`. -/
def symbolicMode (modes : Nat) (t : Octets) : Option Nat :=
  clauses (t.length + 1) modes t
where
  bits (letters : Octets) : Nat :=
    letters.foldl (fun n c => n ||| (match c with
      | 'r' => 4
      | 'w' => 2
      | _ => 1)) 0
  spread (groups : Octets) (n : Nat) : Nat :=
    let has (c : Char) : Bool := groups.isEmpty || groups.contains c || groups.contains 'a'
    (if has 'u' then n * 64 else 0) + (if has 'g' then n * 8 else 0) + if has 'o' then n else 0
  operations (groups : Octets) : Nat → Nat → Octets → Option (Nat × Octets)
    | 0, modes, t => some (modes, t)
    | fuel + 1, modes, op :: t =>
      if op = '=' ∨ op = '+' ∨ op = '-' then
        let letters := t.takeWhile fun c => c == 'r' || c == 'w' || c == 'x'
        let n := spread groups (bits letters)
        let modes := match op with
          | '=' => (modes &&& (511 - spread groups 7)) ||| n
          | '+' => modes ||| n
          | _ => modes &&& (511 - n)
        let t := t.drop letters.length
        match t with
        | '=' :: _ | '+' :: _ | '-' :: _ => operations groups fuel modes t
        | _ => some (modes, t)
      else none
    | _ + 1, _, [] => none
  clauses : Nat → Nat → Octets → Option Nat
    | 0, modes, _ => some modes
    | fuel + 1, modes, t =>
      let groups := t.takeWhile fun c => "ugoa".toList.contains c
      match operations groups (t.length + 1) modes (t.drop groups.length) with
      | some (modes, []) => some modes
      | some (modes, ',' :: t) => clauses fuel modes t
      | _ => none

/-- Show or set the mask of modes that new files do not get. -/
def umask : Action := fun args => do
  let (found, args) ← options (flags "S") args
  let mask := (← get).umask
  match args with
  | [] =>
    if found.isEmpty then
      let digits := Nat.toDigits 8 mask
      printLine (List.replicate (4 - digits.length) '0' ++ digits)
    else
      printLine ("u=".toList ++ allowed mask 2 ++ ",g=".toList ++ allowed mask 1 ++ ",o=".toList ++ allowed mask 0)
  | t :: _ =>
    if t.head?.any Char.isDigit then
      if !t.all fun c => (Number.digit? 8 c).isSome then illegalNumber t
      modify fun s => { s with umask := (Number.digits 8 t).1 % 512 }
    else
      match symbolicMode (511 - mask) t with
      | some modes => modify fun s => { s with umask := 511 - modes }
      | none => fail ("Illegal mode: ".toList ++ t)
  return 0

/-- The times that the shell and its children have used, which are next to nothing. -/
def times : Action := fun _ => do
  let t := "0m0.000000s 0m0.000000s".toList
  printLine t
  printLine t
  return 0

end Caretaker.Script.Builtin

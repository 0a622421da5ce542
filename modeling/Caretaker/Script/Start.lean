import Caretaker.Script.Interpreter
import Caretaker.Script.Run

/-!
# Starting shells

A shell starts with the variables that it is handed, reads its options, and runs a text, a file, or
what it is sent. All children of a machine are run by it.
-/

namespace Caretaker.Script

/-! ## The state at the start -/

namespace Variables

/-- The variables that every shell has, with their values. -/
def standard : List (String × Option String) :=
  [("ATTY", none), ("IFS", some " \t\n"), ("MAIL", none), ("MAILPATH", none),
    ("PATH", some (String.ofList Lookup.standardPath)), ("PS1", some "# "), ("PS2", some "> "), ("PS4", some "+ "),
    ("OPTIND", some "1"), ("TERM", none), ("HISTSIZE", none)]

/-- The variables of a shell that has not been handed any. -/
def atStart : Variables :=
  standard.foldl (fun vs (name, value) =>
    vs.put name.toList (some ⟨⟨false, false, true⟩, value.map String.toList⟩)) .empty

/-- Take over a text that binds a variable; other texts mean nothing. -/
def takeOver (vs : Variables) (t : Octets) : Except VariableFault Variables :=
  let name := Octets.nameOf t
  match t.drop name.length with
  | '=' :: value => if name.isEmpty then .ok vs else vs.assign name (some value) ⟨true, false, false⟩
  | _ => .ok vs

end Variables

namespace Shell

/-- A shell before it has looked at what it has been handed. -/
def atStart (p : Process) (name : Octets) : Shell where
  world := p.world
  cwd := p.cwd
  directory := []
  umask := p.umask
  descriptors := p.descriptors
  process := p.process
  rootProcess := p.process
  parent := p.parent
  name
  args := []
  vars := .atStart
  locals := []
  functions := []
  aliases := []
  busy := []
  located := []
  switches := []
  traps := []
  barred := p.ignored
  pending := []
  alerted := false
  status := 0
  saved := none
  captured := 0
  line := 0
  readLine := 1
  command := none
  loops := 0
  skip := none
  depth := 0
  tracing := false
  printed := []
  documents := #[]
  jobs := []
  background := none
  input := none
  limits := p.limits

end Shell

namespace Step

/-- Take over the variables that the shell has been handed. Separators and the position among options
are never taken over, and the working directory only if it is the right one. -/
def takeVariables (environment : List Octets) : Step Unit := do
  environment.forM fun t => change (·.takeOver t)
  let s ← get
  assign "IFS".toList (some Field.blanks) .none
  assign Variables.positionName (some ['1']) .none
  assign "PPID".toList (some (Octets.ofNat s.parent)) .none
  let directory := match s.vars.value? "PWD".toList with
    | some t =>
      if t.head? = some '/' && (s.world.find s.cwd true t).toOption.any (·.1 == s.cwd) then t else World.pathOf s.cwd
    | none => World.pathOf s.cwd
  modify fun s => { s with directory }
  Builtin.setDirectory directory false

/-- Read letters of options. One of them says that a command follows. All switches are shown as on as long
as they are not known. -/
def startLetters (on : Bool) : Octets → List Octets → Step (Bool × List Octets)
  | [], rest => return (false, rest)
  | c :: letters, rest => do
    if c = 'c' then return (true, (← startLetters on letters rest).2)
    else if c = 'l' then startLetters on letters rest
    else if c = 'o' && rest.isEmpty then
      if on then printLine "Current option settings".toList
      Switch.all.forM fun s => Builtin.showSwitch (!on) s true
      startLetters on letters rest
    else startLetters on letters (← Builtin.turnLetters on [c] rest)

/-- Read the options that a shell is started with. -/
def startOptions : Nat → (hasCommand : Bool) → List Octets → Step (Bool × List Octets)
  | 0, hasCommand, args => return (hasCommand, args)
  | fuel + 1, hasCommand, args => do
    match args with
    | ['-', '-'] :: rest | ['-'] :: rest => return (hasCommand, rest)
    | ('-' :: letters) :: rest =>
      let (found, rest) ← startLetters true letters rest
      startOptions fuel (hasCommand || found) rest
    | ('+' :: letters) :: rest =>
      let (found, rest) ← startLetters false letters rest
      startOptions fuel (hasCommand || found) rest
    | args => return (hasCommand, args)

/-- How often a shell passes over the end of its input if it has been asked to ignore it. -/
def patience : Nat := 50

/-- What a shell has been asked to run: a text, and an input. -/
def startInputs (args : List Octets) : Step (Option Octets × Option Input) := do
  let (hasCommand, args) ← startOptions (args.length + 1) false args
  if hasCommand && args.isEmpty then failWith "-c requires an argument"
  if args.isEmpty then Builtin.turn .stdin true
  let readsStdin := (← get).isOn .stdin
  let (text, file, args) := if hasCommand then (args.head?, none, args.drop 1) else (none, args.head?, args)
  let named := hasCommand || !readsStdin
  let number ← match file with
    | some path => if readsStdin then pure none else some <$> Redirect.openFile .read path
    | none => pure none
  if let some name := if named then args.head? else none then modify fun s => { s with name }
  modify fun s => { s with args := if named then args.drop 1 else args }
  if (← get).isOn .interactive then Builtin.turn .monitor true
  if (← get).isOn .monitor then
    complain "can't access tty; job control turned off".toList
    Builtin.turn .monitor false
  let s ← get
  let stdin := s.descriptor? 0
  set { s with input := number.or stdin }
  return (text, (number.or (if readsStdin then stdin else none)).map (Input.ofFile · patience))

end Step

open Step

/-- End a shell, unless somebody is there who can go on behind an error. -/
def endOrGoOn (execute : Execute) : Nat → Ending → Shell → WaitStatus × World
  | 0, e, s => endShell execute manySteps s (some e)
  | fuel + 1, e, s =>
    match e, s.isOn .interactive, s.input with
    | .error, true, some number =>
      match runInput execute manySteps .plain (.ofFile number patience) { s.settled false with command := none } with
      | .ok _ s => endShell execute manySteps s none
      | .error e s => endOrGoOn execute fuel e s
    | _, _, _ => endShell execute manySteps s (some e)

/-- Run a shell to its end. -/
def runShell (execute : Execute) (p : Process) (args environment : List Octets) : WaitStatus × World :=
  let name := args.headD "sh".toList
  let run : Step Unit := do
    modify fun s => { s with name := "sh".toList }
    takeVariables environment
    modify fun s => { s with name }
    let (text, input) ← thenAlways (startInputs (args.drop 1)) (do let _ ← flush)
    if let some t := text then
      let _ ← runText execute manySteps { Outlook.plain with exits := input.isNone } t
    if let some input := input then
      let _ ← runInput execute manySteps .plain input
      endReturn
  match run (.atStart p name) with
  | .ok _ s => endShell execute manySteps s none
  | .error e s => endOrGoOn execute manySteps e s

/-- Execute a path. Every program is a shell in the end. The number bounds the processes that have
started each other. -/
def execute : Nat → Execute
  | 0 => fun _ _ _ _ => .error (.os 11)
  | fuel + 1 => fun p path args environment => do
    let args ← p.world.shellArgs p.cwd path args environment
    return runShell (execute fuel) p args environment

/-! ## Children -/

/-- The world of a child, and its place in it: it has nothing to read, and prints to the machine. -/
def childProcess (m : Machine) : Process where
  world :=
    { machine := m
      opened :=
        #[⟨.device .null, 0, true, false, false⟩, ⟨.stream .output, 0, false, true, false⟩,
          ⟨.stream .errors, 0, false, true, false⟩]
      pipes := #[]
      nextProcess := 1001
      processes := [1000]
      signals := [] }
  cwd := m.cwd
  umask := 0o022
  descriptors := [(0, 0), (1, 1), (2, 2)]
  process := 1000
  parent := 999
  ignored := []
  limits := []

/-- What children do to a machine. -/
def children : Children := fun l m =>
  match startChild (execute manySteps (childProcess m)) m.bindings l with
  | .ok (end_, world) => (.ok end_, world.machine)
  | .error e => (.error e, m)

end Caretaker.Script

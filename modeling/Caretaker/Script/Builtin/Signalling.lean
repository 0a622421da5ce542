import Caretaker.Script.Builtin.Basic

/-!
# Commands about signals and processes

The commands that say what is run on signals, send signals, and wait for processes.
-/

namespace Caretaker.Script.Builtin

open Step

/-! ## Traps -/

/-- Say what is run on a signal. A signal that has been ignored from the start stays so. -/
def setTrap (signal : Nat) (action : Option Octets) : Step Unit := modify fun s =>
  { s with traps := (action.map (signal, ·)).toList ++ s.traps.filter (·.1 != signal) }

/-- Say what is run on signals, or list it. -/
def trap : Action := fun args => do
  match ← withoutOptions args with
  | [] =>
    let traps := (← get).traps
    (List.range Signal.limit).forM fun n => do
      if let some (_, action) := traps.find? (·.1 == n) then
        printLine ("trap -- ".toList ++ Octets.quoted action ++ ' ' :: Signal.name n)
    return 0
  | first :: rest =>
    let (action, names) :=
      if rest.isEmpty || (Signal.ofNumber? first).isSome then (none, first :: rest)
      else (if first = ['-'] then none else some first, rest)
    setAll action names
where
  setAll (action : Option Octets) : List Octets → Step Nat
    | [] => return 0
    | name :: rest => do
      match Signal.ofText? 0 name with
      | none =>
        report ("trap: ".toList ++ name ++ ": bad trap".toList)
        return 1
      | some n =>
        setTrap n action
        setAll action rest

/-! ## Sending signals -/

def killUsage : String :=
  "Usage: kill [-s sigspec | -signum | -sigspec] [pid | job]... or\nkill -l [exitstatus]"

/-- Send a signal to a process; whether there is one. The number zero only looks. -/
def send (signal process : Nat) : Step Bool := do
  let s ← get
  if process = s.process then
    if signal ≠ 0 then receive signal
    return true
  else if s.world.processes.contains process then
    if signal ≠ 0 then
      set { s with world := { s.world with signals := (process, signal) :: s.world.signals } }
    return true
  else return process = s.parent && signal = 0

/-- The job that a text with a percent sign names. -/
def job (t : Octets) : Step Job := do
  let jobs := (← get).jobs
  let orFail (j : Option Job) (message : Octets) : Step Job := do
    match j with
    | some j => return j
    | none => fail message
  match t with
  | [] | ['%'] | ['%', '%'] | ['%', '+'] => orFail jobs.head? "No current job".toList
  | ['%', '-'] => orFail (jobs.drop 1).head? "No previous job".toList
  | _ =>
    let number := if (t.drop 1).all Char.isDigit then (Number.digits 10 (t.drop 1)).1 else 0
    orFail (jobs.find? fun j => j.number == number && t.head? = some '%') ("No such job: ".toList ++ t)

/-- The number of a process. -/
def process (t : Octets) : Step Nat := number t

/-- Send a signal to processes, or list signals. -/
def kill : Action := fun args => do
  let (signal, lists, rest) ← match args with
    | ('-' :: name) :: rest =>
      match Signal.ofText? 1 name with
      | some n => pure (some n, false, rest)
      | none => do
        let ((signal, lists), rest) ← foldOptions [('l', false), ('s', true)] (fun (signal, lists) c t => do
          if c = 'l' then return (signal, true)
          match Signal.ofText? 1 t with
          | some n => return (some n, lists)
          | none => fail ("invalid signal number or name: ".toList ++ t)) (none, false) args
        pure (signal, lists, rest)
    | args => pure (none, false, args)
  if lists then
    if signal.isSome then failWith killUsage
    listSignals rest
  else if rest.isEmpty then failWith killUsage
  else
    each (fun t => do
      let sent ← match t with
        | '%' :: _ => do
          let _ ← job t
          pure false
        | '-' :: t => do
          let _ ← number t
          pure false
        | t => do send (signal.getD Signal.terminate) (← number t)
      if !sent then complain "No such process\n".toList
      return sent) rest
where
  listSignals (args : List Octets) : Step Nat := do
    match args with
    | [] =>
      printLine ['0']
      (List.range' 1 (Signal.limit - 1)).forM fun n => printLine (Signal.name n)
    | t :: _ =>
      let n ← number t
      let n := if 128 < n then n - 128 else n
      if n = 0 || Signal.limit ≤ n then fail ("invalid signal number or exit status: ".toList ++ t)
      printLine (Signal.name n)
    return 0

/-! ## Waiting -/

/-- The status of a process that has ended. -/
def statusOf (w : WaitStatus) : Nat :=
  match w.code?, w.signal? with
  | some code, _ => code
  | none, some signal => 128 + signal
  | none, none => 0

/-- What is said of a process that a signal has ended, unless it is one that says enough itself. -/
def epitaph (w : WaitStatus) : Option Octets :=
  match w.signal? with
  | some n => if n = Signal.interrupt || n = Signal.brokenPipe then none else some (Signal.description n)
  | none => none

/-- Note that a process has ended that the shell has started. -/
def noteEnd : Step Unit := do
  receiveAll
  receive Signal.child

/-- Run the commands of a job to their end. -/
def finish (number : Nat) : Step (List WaitStatus) := do
  let s ← get
  match s.jobs.find? (·.number == number) with
  | none => return []
  | some j =>
    match j.ends with
    | some ends => return ends
    | none =>
      let (ends, world) := j.run s.world
      let world := { world with processes := world.processes.filter (!j.processes.contains ·) }
      let jobs := s.jobs.map fun k => if k.number = number then { k with ends := some ends } else k
      set { s with world, jobs }
      noteEnd
      return ends

def setWaited (number : Nat) : Step Unit := modify fun s =>
  { s with jobs := s.jobs.map fun j => if j.number = number then { j with waited := true } else j }

/-- Wait for all jobs. -/
def waitForAll : Step Unit := do
  (← get).jobs.reverse.forM fun j => do
    let _ ← finish j.number
    setWaited j.number

/-- Wait for a job, and say how it has ended. -/
def waitForJob (j : Job) : Step Nat := do
  let ends ← finish j.number
  if j.ends.isNone then
    ends.forM fun w => do if let some t := epitaph w then report t
  setWaited j.number
  return ((ends.getLast?).map statusOf).getD 0

/-- Wait for processes. -/
def wait : Action := fun args => do
  match ← withoutOptions args with
  | [] =>
    waitForAll
    return 0
  | args => args.foldlM (fun status t => do
    match t with
    | '%' :: _ => waitForJob (← job t)
    | t =>
      let n ← number t
      match (← get).jobs.find? fun j => j.processes.getLast? = some n with
      | some j => waitForJob j
      | none => return status) 127

/-- What is said of the state of a job. -/
def Job.state (j : Job) : Octets :=
  match j.ends.bind List.getLast? with
  | none => "Running".toList
  | some w =>
    match w.code?, w.signal? with
    | some 0, _ => "Done".toList
    | some code, _ => "Done(".toList ++ Octets.ofNat code ++ [')']
    | none, some signal => Signal.description signal
    | none, none => []

/-- Show a job: its number, whether it is the current one or the one before, and its state. -/
def showJob (mode : Option Char) (at_ : Nat) (j : Job) : Step Unit := do
  if mode = some 'p' then printLine (Octets.ofNat (j.processes.headD 0))
  else
    let mark := if at_ = 0 then '+' else if at_ = 1 then '-' else ' '
    let front := '[' :: Octets.ofNat j.number ++ "] ".toList ++ [mark, ' ']
    let process := if mode = some 'l' then Octets.ofNat (j.processes.headD 0) ++ [' '] else []
    let t := front ++ process ++ Job.state j
    let others : Octets :=
      if mode = some 'l' then
        (j.processes.drop 1).flatMap fun n =>
          let t := " |\n".toList ++ List.replicate front.length ' ' ++ Octets.ofNat n ++ [' ']
          t ++ List.replicate (33 - (t.length - 3)) ' '
      else (j.processes.drop 1).flatMap fun _ => " | ".toList
    printLine (t ++ List.replicate (max 1 (33 - t.length)) ' ' ++ others)

/-- Show jobs; those that are done are forgotten. -/
def jobs : Action := fun args => do
  let (found, args) ← options (flags "lp") args
  let mode := ['p', 'l'].find? fun c => found.any (·.1 == c)
  let all := (← get).jobs
  let shown ← if args.isEmpty then pure all else args.mapM job
  shown.forM fun j => do
    showJob mode ((all.findIdx? (·.number == j.number)).getD 0) j
    if j.ends.isSome && mode ≠ some 'p' then modify fun s => { s with jobs := s.jobs.filter (·.number != j.number) }
  return 0

/-- Jobs cannot be put to the front or to the background: they are not under control. -/
def moveJob : Action := fun args => do
  let args ← withoutOptions args
  let _ ← job (args.headD [])
  let name := if args.isEmpty then "(null)".toList else args.headD []
  fail ("job ".toList ++ name ++ " not created under job control".toList)

end Caretaker.Script.Builtin

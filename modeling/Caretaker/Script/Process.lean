import Caretaker.Child
import Caretaker.Script.Builtin.Signalling
import Caretaker.Script.Builtin.Naming

/-!
# Processes

A shell starts others: copies of itself that run a part of a script, and programs, which may also
take its own place. What a program does is for whoever runs the shell to say.
-/

namespace Caretaker.Script

/-- What a program finds when it is started. -/
structure Process where
  world : World
  cwd : Place
  umask : Nat
  descriptors : List (Nat × Nat)
  process : Nat
  parent : Nat
  /-- The signals that are ignored. -/
  ignored : List Nat
  limits : List (Char × Octets)

/-- Run a program to its end. It is given by its path, its arguments, of which the first one is its
name, and the texts by which it gets its variables. -/
abbrev Execute := Process → (path : Octets) → (args environment : List Octets) → Except IoFault (WaitStatus × World)

namespace Shell

/-- The process that is left when a program takes the place of a shell. -/
def asProcess (s : Shell) : Process :=
  ⟨s.world, s.cwd, s.umask, s.descriptors, s.process, s.parent,
    s.barred ++ (s.traps.filter fun (signal, action) => signal != 0 && action.isEmpty).map (·.1), s.limits⟩

/-- A copy of a shell, as a process of its own. It does not take over what is run on signals. -/
def copied (s : Shell) (process : Nat) : Shell :=
  { s with
    process, parent := s.process, traps := s.traps.filter (·.2.isEmpty), pending := [], printed := [], jobs := [] }

/-- Whether something is run on a signal, so that the shell has to stay. -/
def hasTraps (s : Shell) : Bool := s.traps.any (!·.2.isEmpty)

/-- A shell in the background cannot be interrupted, and has nothing to read. -/
def inBackground (readsNothing : Bool) (s : Shell) : Shell :=
  let s := { s with barred := Signal.interrupt :: Signal.quit :: s.barred }
  if readsNothing then
    let (number, world) := s.world.register ⟨.device .null, 0, true, false, false⟩
    { s with world }.lead 0 (some number)
  else s

/-- Forget what belongs to the commands that the shell has left. If it has been asked to end, or has
returned from where it was, the status is the one to go back to. -/
def settled (s : Shell) (asked : Bool) : Shell :=
  let status := match s.saved with
    | some n => if asked || s.skip = some (.returns false) then n else s.status
    | none => s.status
  { s with status, saved := none, skip := none, loops := 0, tracing := false }

/-- The commands in the background that have not been run, in the order in which they were started. -/
def unfinished (s : Shell) : List Job := s.jobs.reverse.filter (·.ends.isNone)

end Shell

namespace Step

/-- The number of a new job. A job that has ended and has been waited for makes room for it. -/
def takeJobNumber : Step Nat := do
  let s ← get
  let isFree (n : Nat) : Bool := match s.jobs.find? (·.number == n) with
    | some j => j.ends.isSome && j.waited
    | none => true
  let number := ((List.range' 1 s.jobs.length).find? isFree).getD (s.jobs.length + 1)
  set { s with jobs := s.jobs.filter (·.number != number) }
  return number

/-- The numbers of new processes. -/
def takeProcesses (count : Nat) : Step (List Nat) := do
  let s ← get
  let numbers := List.range' s.world.nextProcess count
  let world :=
    { s.world with nextProcess := s.world.nextProcess + count, processes := numbers ++ s.world.processes }
  set { s with world }
  return numbers

/-- Note that processes have ended for which the shell has waited, and answer with the status of the
last one. -/
def noteEnds (processes : List Nat) (ends : List WaitStatus) (world : World) : Step Nat := do
  modify fun s => { s with world := { world with processes := world.processes.filter (!processes.contains ·) } }
  Builtin.noteEnd
  ends.forM fun w => do if let some t := Builtin.epitaph w then Builtin.report t
  return (ends.getLast?.map Builtin.statusOf).getD 0

/-- Put commands in the background. -/
def putInBackground (processes : List Nat) (run : World → List WaitStatus × World) : Step Unit := do
  let number ← takeJobNumber
  modify fun s =>
    { s with jobs := ⟨number, processes, run, none, false⟩ :: s.jobs, background := processes.getLast? }

/-- Run what is in the background and has not been run. -/
def settleJobs : Step Unit := do
  (← get).unfinished.forM fun j => do
    let _ ← Builtin.finish j.number

/-! ## Programs -/

/-- The paths that a program may have: in the directories of a search path from a number on, or just
its name. -/
def programPaths (otherPath : Option Octets) (name : Octets) (directory : Nat) : Step (List Octets) := do
  if name.contains '/' then return [name]
  let path := otherPath.getD (Lookup.searchPath (← get))
  return ((SearchPath.candidates path name).filter (directory ≤ ·.1)).map (·.2)

/-- Try to execute a file. One that is no program is run by the shell. -/
def tryExecute (execute : Execute) (p : Process) (path : Octets) (args environment : List Octets) :
    Except IoFault (WaitStatus × World) :=
  match execute p path args environment with
  | .error .badFormat => execute p shellPath (shellPath :: path :: args.drop 1) environment
  | r => r

/-- Try to execute one file after the other. -/
def tryAll (execute : Execute) (p : Process) (args environment : List Octets) :
    IoFault → List Octets → Except IoFault (WaitStatus × World)
  | e, [] => .error e
  | e, path :: rest =>
    match tryExecute execute p path args environment with
    | .ok r => .ok r
    | .error .noEntry | .error .notDirectory => tryAll execute p args environment e rest
    | .error e => tryAll execute p args environment e rest

/-- The status of a program that cannot be executed. -/
def failureStatus : IoFault → Nat
  | .noEntry | .notDirectory | .tooManyLinks | .nameTooLong => 127
  | _ => 126

/-- Let a program take the place of the shell. -/
def becomeProgram (execute : Execute) (paths args : List Octets) : Step Unit := do
  let s ← get
  match tryAll execute s.asProcess args s.vars.environment .noEntry paths with
  | .ok (end_, world) =>
    set { s with world }
    throw (.replaced end_)
  | .error e =>
    setStatus (failureStatus e)
    complain (args.headD [] ++ ": ".toList ++ Purpose.running.reason e)
    throw (.exit false)

end Step
end Caretaker.Script

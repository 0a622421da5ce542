import Caretaker.Script.Reader
import Caretaker.Script.Signal
import Caretaker.Script.Switch
import Caretaker.Script.Variables
import Caretaker.Script.World

/-!
# Shells

What a process consists of that runs a script, what a step of it is, and the steps that print,
complain, look at variables, and send and take signals.
-/

namespace Caretaker.Script

/-! ## State -/

/-- What makes a shell leave out the commands that follow. -/
inductive Skip where
  /-- The end of some loops, innermost first. -/
  | breaks (loops : Nat)
  /-- The next round of a loop, after the end of some loops in it. -/
  | continues (loops : Nat)
  /-- The end of a function or a file, maybe with a status of its own. -/
  | returns (hasStatus : Bool)
deriving DecidableEq, Repr

/-- What is put back at the end of a command or function. -/
inductive Local where
  | variable (h : Variables.Hidden)
  | switches (on : List Switch)

/-- Commands in the background. They are run when their end is waited for, or when the shell that
has started them ends. -/
structure Job where
  number : Nat
  processes : List Nat
  /-- Run the commands, and say how the processes end. -/
  run : World → List WaitStatus × World
  /-- How the processes have ended. -/
  ends : Option (List WaitStatus)
  /-- Whether the end has been waited for. -/
  waited : Bool

/-- Where a program has been found. -/
structure Located where
  /-- The number of its directory in the search path. -/
  directory : Nat
  path : Octets
  /-- Whether the working directory has changed since. -/
  stale : Bool

/-- A process that runs a script. -/
structure Shell where
  world : World
  cwd : Place
  /-- The working directory as it is called. -/
  directory : Octets
  umask : Nat
  /-- The descriptors that are open, with the numbers of the files that they lead to. -/
  descriptors : List (Nat × Nat)
  process : Nat
  /-- The process of the shell that this one is a part of, and the one that has started it. -/
  rootProcess : Nat
  parent : Nat
  /-- The name by which the script was started. -/
  name : Octets
  args : List Octets
  vars : Variables
  /-- What is to be put back, for each command and function that is being run. -/
  locals : List (List Local)
  functions : List (Octets × Command)
  aliases : List (Octets × Octets)
  /-- The aliases that are in use. -/
  busy : List Octets
  located : List (Octets × Located)
  switches : List Switch
  /-- What is run on signals; the number zero stands for the end of the shell. Signals with nothing to
  run are ignored. -/
  traps : List (Nat × Octets)
  /-- The signals that have been ignored from the start. -/
  barred : List Nat
  /-- The signals that have arrived and are not answered yet. -/
  pending : List Nat
  /-- Whether a signal has arrived since signals were answered. -/
  alerted : Bool
  /-- The status of the last command. -/
  status : Nat
  /-- The status to end with, or to go back to behind a trap. -/
  saved : Option Nat
  /-- The status of the last command whose output was put into a word. -/
  captured : Nat
  /-- The line of the last command. -/
  line : Nat
  /-- The line that has been read last. -/
  readLine : Nat
  /-- The command of the shell that is being run. -/
  command : Option Octets
  /-- The loops around the command that is being run. -/
  loops : Nat
  skip : Option Skip
  /-- The functions that are being run. -/
  depth : Nat
  /-- Whether the text in front of a trace is being found. -/
  tracing : Bool
  /-- What the command that is being run has printed, the last piece first. -/
  printed : List Octets
  documents : Array Word
  /-- The commands in the background, the last ones first. -/
  jobs : List Job
  /-- The last process in the background. -/
  background : Option Nat
  /-- The open file in which commands are read behind an error. -/
  input : Option Nat
  /-- Limits that have been set. -/
  limits : List (Char × Octets)

/-- What makes a shell leave everything that it is in. -/
inductive Ending where
  /-- The end of the shell, which may have been asked for with a status. -/
  | exit (asked : Bool)
  /-- The end of the shell, unless a command is run whose errors do not matter. -/
  | error
  | signaled (signal : Nat)
  /-- Another program has taken the place of the shell, and has ended. -/
  | replaced (end_ : WaitStatus)
deriving DecidableEq

/-- A step of a script: it changes the shell, and may make it leave. -/
abbrev Step := EStateM Ending Shell

namespace Shell

def isOn (s : Shell) (switch : Switch) : Bool := s.switches.contains switch

/-- The open file that a descriptor leads to. -/
def descriptor? (s : Shell) (n : Nat) : Option Nat := (s.descriptors.find? (·.1 == n)).map (·.2)

/-- Let a descriptor lead to an open file, or nowhere. -/
def lead (s : Shell) (n : Nat) (file : Option Nat) : Shell :=
  { s with descriptors := (file.map (n, ·)).toList ++ s.descriptors.filter (·.1 != n) }

/-- Where a descriptor leads is no matter to the others. -/
theorem descriptor?_lead (s : Shell) (n : Nat) (file : Option Nat) (m : Nat) :
    (s.lead n file).descriptor? m = if n = m then file else s.descriptor? m := by
  by_cases h : n = m
  · subst h
    cases file <;> simp [lead, descriptor?, List.find?_filter]
  · have hb : (n == m) = false := beq_false_of_ne h
    have hf : (s.descriptors.filter (·.1 != n)).find? (·.1 == m) = s.descriptors.find? (·.1 == m) := by
      rw [List.find?_filter]
      congr 1
      funext a
      by_cases ha : a.1 = m <;> simp [ha, Ne.symm h]
    cases file <;> simp [lead, descriptor?, h, hb, hf]

/-- The words in front of a message: the script, the line and the command. -/
def messageFront (s : Shell) : Octets :=
  s.name ++ ": ".toList ++ Octets.ofNat s.line ++ ": ".toList ++
    match s.command with
    | some c => c ++ ": ".toList
    | none => []

end Shell

namespace Step

def setStatus (status : Nat) : Step Unit := modify fun s => { s with status }

/-- Take a step to its end, and say whether it makes the shell leave. -/
def attempt (step : Step Unit) : Step (Option Ending) := fun s =>
  match step s with
  | .ok _ s => .ok none s
  | .error e s => .ok (some e) s

/-- Take a step, and then another one, even if the first one makes the shell leave. -/
def thenAlways {α : Type} (step : Step α) (last : Step Unit) : Step α := fun s =>
  match step s with
  | .ok a s =>
    match last s with
    | .ok _ s => .ok a s
    | .error e s => .error e s
  | .error e s =>
    match last s with
    | .ok _ s => .error e s
    | .error e s => .error e s

/-! ## Signals -/

/-- Take a signal: note it, ignore it, or die of it. -/
def receive (signal : Nat) : Step Unit := do
  let s ← get
  if signal = Signal.kill then throw (.signaled signal)
  if s.barred.contains signal then return
  match s.traps.find? (·.1 == signal) with
  | some (_, []) => return
  | some _ =>
    set { s with pending := if s.pending.contains signal then s.pending else signal :: s.pending, alerted := true }
  | none => if Signal.action signal = .finish then throw (.signaled signal)

/-- Take the signals that are on their way to the shell. -/
def receiveAll : Step Unit := do
  let s ← get
  let mine := s.world.signals.reverse.filter (·.1 == s.process)
  if !mine.isEmpty then
    set { s with world := { s.world with signals := s.world.signals.filter (·.1 != s.process) } }
    mine.forM fun (_, signal) => receive signal

/-! ## Output -/

/-- Write to where a descriptor leads; whether that has succeeded. -/
def writeTo (n : Nat) (t : Octets) : Step Bool := do
  let s ← get
  match s.descriptor? n with
  | none => return t.isEmpty
  | some file =>
    let (written, world) := s.world.write file t
    set { s with world }
    match written with
    | .done => return true
    | .failed _ => return false
    | .unread =>
      receive Signal.brokenPipe
      return false

/-- Write a message about something that went wrong. -/
def complain (t : Octets) : Step Unit := do
  let _ ← writeTo 2 ((← get).messageFront ++ t ++ ['\n'])

/-- Fail with a message, which ends the script unless a command is run whose errors do not matter. -/
def fail {α : Type} (t : Octets) : Step α := do
  complain t
  setStatus 2
  throw .error

def failWith {α : Type} (t : String) : Step α := fail t.toList

/-- Print for a command; it is written when the command ends. -/
def print (t : Octets) : Step Unit := modify fun s => { s with printed := t :: s.printed }

def printLine (t : Octets) : Step Unit := print (t ++ ['\n'])

/-- Write what a command has printed; whether that has succeeded. -/
def flush : Step Bool := do
  let s ← get
  set { s with printed := [] }
  let t := s.printed.reverse.flatten
  if t.isEmpty then return true
  writeTo 1 t

/-! ## Variables -/

/-- Carry out a change of the variables, or fail. -/
def change (f : Variables → Except VariableFault Variables) : Step Unit := do
  match f (← get).vars with
  | .ok vars => modify fun s => { s with vars }
  | .error e => fail e.message

/-- Forget where programs have been found if the directories to look in change. -/
def forget (name : Octets) : Step Unit := do
  if name = "PATH".toList then modify fun s => { s with located := [] }

/-- Give a variable a value, or take it away. -/
def assign (name : Octets) (value : Option Octets) (marks : Marks) : Step Unit := do
  change (·.set name value marks)
  forget name

def valueOf (name : String) : Step (Option Octets) := do return (← get).vars.value? name.toList

/-- Cut a text that may assign to a variable. -/
def assignment (t : Octets) : Octets × Option Octets :=
  match t.dropWhile (· != '=') with
  | _ :: value => (t.takeWhile (· != '='), some value)
  | [] => (t, none)

/-- Hide a variable, or the switches, until the command or function ends. -/
def hide (t : Octets) (marks : Marks) : Step Unit := do
  let note (l : Local) : Step Unit := modify fun s =>
    match s.locals with
    | [] => s
    | top :: below => { s with locals := (l :: top) :: below }
  if t = ['-'] then note (.switches (← get).switches)
  else
    let (name, value) := assignment t
    match (← get).vars.hide name value marks with
    | .ok (h, vars) =>
      modify fun s => { s with vars }
      note (.variable h)
      if value.isSome then forget name
    | .error e => fail e.message

def setSwitches (switches : List Switch) : Step Unit := modify fun s =>
  { s with switches, vars := { s.vars with exportsAll := switches.contains .allexport } }

/-- Put back what was hidden. -/
def reveal : Local → Step Unit
  | .variable h => do
    change (·.reveal h)
    forget (match h with
      | .nothing name | .variable name _ => name)
  | .switches on => setSwitches on

/-- Put back what was hidden, until so many commands and functions are left. -/
def revealTo (count : Nat) : Step Unit := do
  let locals := (← get).locals
  (locals.take (locals.length - count)).forM fun top => do
    modify fun s => { s with locals := s.locals.drop 1 }
    top.forM reveal

end Step
end Caretaker.Script

import Caretaker.Text.Octets

/-!
# Signals

The names of signals and what they do to a process that neither catches nor ignores them. The
number zero is used for the end of a shell, on which something may be run as on a signal.
-/

namespace Caretaker.Script.Signal

/-- Signals are numbers below this. -/
def limit : Nat := 65

/-- The names of the signals that have one of their own, with what is said of a process that is
ended by them. -/
def named : List (Nat × String × String) :=
  [(1, "HUP", "Hangup"), (2, "INT", "Interrupt"), (3, "QUIT", "Quit"), (4, "ILL", "Illegal instruction"),
    (5, "TRAP", "Trace/breakpoint trap"), (6, "ABRT", "Aborted"), (7, "BUS", "Bus error"),
    (8, "FPE", "Floating point exception"), (9, "KILL", "Killed"), (10, "USR1", "User defined signal 1"),
    (11, "SEGV", "Segmentation fault"), (12, "USR2", "User defined signal 2"), (13, "PIPE", "Broken pipe"),
    (14, "ALRM", "Alarm clock"), (15, "TERM", "Terminated"), (16, "16", "Stack fault"),
    (17, "CHLD", "Child exited"), (18, "CONT", "Continued"), (19, "STOP", "Stopped (signal)"),
    (20, "TSTP", "Stopped"), (21, "TTIN", "Stopped (tty input)"), (22, "TTOU", "Stopped (tty output)"),
    (23, "URG", "Urgent I/O condition"), (24, "XCPU", "CPU time limit exceeded"),
    (25, "XFSZ", "File size limit exceeded"), (26, "VTALRM", "Virtual timer expired"),
    (27, "PROF", "Profiling timer expired"), (28, "WINCH", "Window changed"), (29, "IO", "I/O possible"),
    (30, "PWR", "Power failure"), (31, "SYS", "Bad system call")]

abbrev interrupt : Nat := 2
abbrev quit : Nat := 3
abbrev kill : Nat := 9
abbrev brokenPipe : Nat := 13
abbrev terminate : Nat := 15
abbrev child : Nat := 17

/-- The first and the last of the signals without a purpose. -/
def firstFree : Nat := 34
def lastFree : Nat := 64

/-- The name of a signal. -/
def name (n : Nat) : Octets :=
  let text := match named.find? (·.1 == n) with
    | some (_, name, _) => name
    | none =>
      if n = 0 then "EXIT"
      else if n = firstFree then "RTMIN"
      else if n = lastFree then "RTMAX"
      else if n < firstFree then toString n
      else if n ≤ firstFree + 15 then "RTMIN+" ++ toString (n - firstFree)
      else "RTMAX-" ++ toString (lastFree - n)
  text.toList

/-- What is said of a process that is ended by a signal. -/
def description (n : Nat) : Octets :=
  let text := match named.find? (·.1 == n) with
    | some (_, _, text) => text
    | none => if n < firstFree then "Unknown signal " ++ toString n else "Real-time signal " ++ toString (n - firstFree)
  text.toList

/-- The signal with a number. -/
def ofNumber? (t : Octets) : Option Nat :=
  if t.isEmpty || !t.all Char.isDigit then none
  else
    let n := t.foldl (fun n c => n * 10 + (c.toNat - '0'.toNat)) 0
    if n < limit then some n else none

/-- The signal with a number, or with a name in letters of any case, from a least number on. -/
def ofText? (least : Nat) (t : Octets) : Option Nat :=
  (ofNumber? t).or <| (List.range' least (limit - least)).find? fun n =>
    (name n).map Char.toUpper == t.map Char.toUpper

/-- What a signal does to a process that has not said anything else. -/
inductive Action where
  | nothing
  | stop
  | finish
deriving DecidableEq, Repr

/-- What a signal does to a process that has not said anything else. -/
def action (n : Nat) : Action :=
  if n ∈ [17, 18, 23, 28] then .nothing
  else if n ∈ [19, 20, 21, 22] then .stop
  else .finish

end Caretaker.Script.Signal

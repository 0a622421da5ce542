import Caretaker.Path
import Caretaker.Variables

/-!
# Starting scripts

What is handed to a child when it is started, and what its parent is told when it ends.
-/

namespace Caretaker

/-- A program and the arguments it receives. -/
structure Invocation where
  program : Path
  args : List Text
deriving DecidableEq, Repr

/-- An invocation and the variables that are layered over those of the parent. -/
structure Launch extends Invocation where
  bindings : Bindings
deriving DecidableEq, Repr

namespace Launch

/-- A null character ends a text for the operating system, so it cannot be part of a launch. -/
def holdsNul (l : Launch) : Bool :=
  l.program.text.contains '\x00' || l.args.any (·.contains '\x00') ||
    l.bindings.any fun (k, v) => k.contains '\x00' || v.contains '\x00'

end Launch

/-! ## How a child ends -/

/-- The word by which the operating system tells a parent that its child has changed state. -/
structure WaitStatus where
  word : Nat
deriving DecidableEq, Repr

namespace WaitStatus

/-- The word of a child that exits; only the low eight bits of its code are kept. -/
def exited (code : Nat) : WaitStatus := ⟨code % 256 * 256⟩

/-- The word of a child that a signal ends. -/
def signaled (signal : Nat) : WaitStatus := ⟨signal % 128⟩

/-- The exit code: the low seven bits are clear. -/
def code? (s : WaitStatus) : Option Nat :=
  if s.word % 128 = 0 then some (s.word / 256 % 256) else none

/-- The signal that ended the child: the low seven bits, neither all clear nor all set. -/
def signal? (s : WaitStatus) : Option Nat :=
  if s.word % 128 = 0 ∨ s.word % 128 = 127 then none else some (s.word % 128)

/-- A child has succeeded if the word is zero. -/
def success (s : WaitStatus) : Bool := s.word == 0

/-- The code to report for a child: its exit code, or `128 + n` for signal `n`, or else `1`. -/
def reportedCode (s : WaitStatus) : Int :=
  match s.code?, s.signal? with
  | some c, _ => c
  | none, some n => 128 + n
  | none, none => 1

/-- Of the code of an exit one byte is left. -/
theorem code?_exited (code : Nat) : (exited code).code? = some (code % 256) := by
  have h : code % 256 * 256 % 128 = 0 := by omega
  simp [code?, exited, h]

end WaitStatus
end Caretaker

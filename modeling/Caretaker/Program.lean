import Caretaker.FileSystem.Calls
import Caretaker.Fault
import Caretaker.Launch

/-!
# Programs over single calls

Whatever the dispatcher does to the world outside, it does by one call after the other, and another
process may act between any two of them. A program is therefore kept as the tree of its calls: the
next call, and how to go on for each reply. It can be run alone, step by step beside others, or
against a world that fails at any call.
-/

namespace Caretaker

/-- Where a program prints. -/
inductive Stream where
  | output
  | errors
deriving DecidableEq, Repr

/-- One call on the world outside. -/
inductive Call where
  | readLink (p : Path)
  /-- Whether an entry stands at the path, a link included. -/
  | standsAt (p : Path)
  | remove (p : Path)
  | makeLink (target p : Path)
  | isFile (p : Path)
  | isDir (p : Path)
  | readText (p : Path)
  | list (p : Path)
  | canonical (p : Path)
  /-- Start a child and wait for its end. -/
  | launch (l : Launch)
  /-- The variables of the process itself. -/
  | bindings
  | setVariable (name value : Text)
  /-- The directory that holds the running executable. -/
  | executableDir
  /-- Whether a stream is shown on a terminal. -/
  | isTerminal (s : Stream)
  | print (s : Stream) (t : Text)
deriving DecidableEq, Repr

/-- What a call is answered with. -/
abbrev Call.Reply : Call → Type
  | readLink _ | canonical _ => Except IoFault Path
  | standsAt _ | isFile _ | isDir _ | isTerminal _ => Bool
  | remove _ | makeLink .. => Except IoFault Unit
  | readText _ => Except IoFault Text
  | list _ => Except IoFault (List EntryName)
  | launch _ => Except IoFault WaitStatus
  | bindings => Bindings
  | executableDir => Path
  | setVariable .. | print .. => Unit

/-- A program: it has its result, or makes a call and goes on with the reply. -/
inductive Program (α : Type) : Type where
  | done (a : α)
  | call (c : Call) (next : c.Reply → Program α)

namespace Program

variable {α β σ : Type}

/-- Go on with the result of a program. -/
def bind : Program α → (α → Program β) → Program β
  | done a, f => f a
  | call c next, f => call c fun r => (next r).bind f

instance : Monad Program where
  pure := done
  bind := bind

/-- The program that makes one call. -/
def perform (c : Call) : Program c.Reply := call c done

@[simp] theorem pure_eq (a : α) : (pure a : Program α) = done a := rfl

@[simp] theorem done_bind (a : α) (f : α → Program β) : (done a >>= f) = f a := rfl

@[simp] theorem call_bind (c : Call) (next : c.Reply → Program α) (f : α → Program β) :
    (call c next >>= f) = call c fun r => next r >>= f := rfl

@[simp] theorem perform_bind (c : Call) (f : c.Reply → Program β) :
    (perform c >>= f) = call c f := rfl

theorem bind_done (p : Program α) : p.bind done = p := by
  induction p with
  | done a => rfl
  | call c next ih => exact congrArg (call c) (funext ih)

/-- It does not matter which two of three parts are put together first. -/
theorem bind_assoc {γ : Type} (p : Program α) (f : α → Program β) (g : β → Program γ) :
    (p.bind f).bind g = p.bind fun a => (f a).bind g := by
  induction p with
  | done a => rfl
  | call c next ih => exact congrArg (call c) (funext ih)

instance : LawfulMonad Program :=
  LawfulMonad.mk' Program bind_done (fun _ _ => rfl) bind_assoc

/-! ## Running a program alone -/

/-- Run a program against a world that answers each call and is changed by it. -/
def run (answer : (c : Call) → σ → c.Reply × σ) : Program α → σ → α × σ
  | done a, s => (a, s)
  | call c next, s => (next (answer c s).1).run answer (answer c s).2

@[simp] theorem run_done (answer : (c : Call) → σ → c.Reply × σ) (a : α) (s : σ) :
    (done a).run answer s = (a, s) := rfl

@[simp] theorem run_call (answer : (c : Call) → σ → c.Reply × σ) (c : Call)
    (next : c.Reply → Program α) (s : σ) :
    (call c next).run answer s = (next (answer c s).1).run answer (answer c s).2 := rfl

/-- The second part of a program runs from where the first one has led. -/
theorem run_bind (answer : (c : Call) → σ → c.Reply × σ) (p : Program α) (f : α → Program β)
    (s : σ) : (p >>= f).run answer s = (f (p.run answer s).1).run answer (p.run answer s).2 := by
  induction p generalizing s with
  | done a => rfl
  | call c next ih => exact ih _ _

end Program

/-! ## Programs that may end in a fault -/

/-- A program whose result may be a fault. -/
abbrev Action := ExceptT Fault Program

namespace Action

/-- Make a call that always succeeds. -/
def ask (c : Call) : Action c.Reply := ExceptT.lift (Program.perform c)

/-- Go on with what a call has answered, or end in the fault made of its failure. -/
def orFault {α : Type} (fault : IoFault → Fault) : Except IoFault α → Action α
  | .ok a => pure a
  | .error e => throw (fault e)

end Action
end Caretaker

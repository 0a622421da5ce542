import Caretaker.Machine
import Mathlib.Data.Nat.Notation

/-!
# Programs beside each other

Programs that run on one machine at once take turns, call by call, in any order: a schedule says
whose turn it is.
-/

namespace Caretaker

/-- Make the next call of a program, if it has one. -/
def Program.step {α : Type} (children : Children) (m : Machine) : Program α → Program α × Machine
  | .done a => (.done a, m)
  | .call c next => (next (Machine.answer children c m).1, (Machine.answer children c m).2)

lemma Program.step_call {α : Type} {children : Children} {m m' : Machine} {c : Call} {r : c.Reply}
    (next : c.Reply → Program α) (h : Machine.answer children c m = (r, m')) :
    (Program.call c next).step children m = (next r, m') := by
  rw [Program.step, h]

/-- A machine and the programs on it, each with the calls that it has yet to make. -/
structure Crew (α : Type) where
  machine : Machine
  programs : List (Program α)

namespace Crew

variable {α : Type} (children : Children)

/-- A number of copies of one program, none of which has made a call yet. -/
def copies (m : Machine) (n : ℕ) (p : Program α) : Crew α := ⟨m, List.replicate n p⟩

/-- A turn of one program. A program that is done, or that does not exist, lets it pass. -/
def turn (c : Crew α) (i : ℕ) : Crew α :=
  match c.programs[i]? with
  | some p => ⟨(p.step children c.machine).2, c.programs.set i (p.step children c.machine).1⟩
  | none => c

/-- The crew after the turns of a schedule. -/
def after (c : Crew α) (schedule : List ℕ) : Crew α := schedule.foldl (turn children) c

/-- All programs have their results. -/
def Finished (c : Crew α) : Prop := ∀ p ∈ c.programs, ∃ a, p = .done a

lemma after_append (c : Crew α) (s t : List ℕ) :
    c.after children (s ++ t) = (c.after children s).after children t := List.foldl_append ..

/-- A program on its own has each turn. -/
lemma turn_alone {m m' : Machine} {c : Call} {r : c.Reply} (next : c.Reply → Program α)
    (h : Machine.answer children c m = (r, m')) :
    (⟨m, [.call c next]⟩ : Crew α).turn children 0 = ⟨m', [next r]⟩ := by
  change (⟨_, [_]⟩ : Crew α) = _
  rw [Program.step_call next h]

lemma after_concat (c : Crew α) (s : List ℕ) (i : ℕ) :
    c.after children (s ++ [i]) = (c.after children s).turn children i := by
  rw [after_append]
  rfl

end Crew
end Caretaker

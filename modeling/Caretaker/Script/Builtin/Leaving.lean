import Caretaker.Script.Builtin.Basic

/-!
# Commands that leave

The commands that leave loops, functions and the shell itself, and the one that drops arguments.
-/

namespace Caretaker.Script.Builtin

open Step

/-- End the shell, with a status or with that of the last command. -/
def exit : Action := fun args => do
  if let t :: _ := args then
    let n ← number t
    modify fun s => { s with saved := some n }
  throw (.exit true)

/-- End a function or a file. -/
def «return» : Action := fun args => do
  match args with
  | [] =>
    modify fun s => { s with skip := some (.returns false) }
    return (← get).status
  | t :: _ =>
    let n ← number t
    modify fun s => { s with skip := some (.returns true) }
    return n

/-- Leave some loops, at most those there are. -/
def leaveLoops (skip : Nat → Skip) : Action := fun args => do
  let n ← match args with
    | [] => pure 1
    | t :: _ => do
      let n ← number t
      if n = 0 then illegalNumber t
      pure n
  let n := min n (← get).loops
  if n ≠ 0 then modify fun s => { s with skip := some (skip n) }
  return 0

/-- Drop the first arguments of the script or function. -/
def shift : Action := fun args => do
  let n ← match args with
    | [] => pure 1
    | t :: _ => number t
  let s ← get
  if s.args.length < n then failWith "can't shift that many"
  set { s with args := s.args.drop n, vars := { s.vars with position := .start } }
  return 0

end Caretaker.Script.Builtin

import Caretaker.Registry

/-!
# Finding the script of a name

A script that is to be run is given by a path, or by the name of a helper script or a task. The
first candidate that leads to a regular file is taken.
-/

namespace Caretaker.Layout

/-- The paths at which a script is looked for, in order. -/
def candidates (l : Layout) (name : Text) : List Path :=
  [l.root.join name, l.scriptsDir.join name, l.scriptsDir.join (name ++ scriptSuffix),
    l.tasksDir.join (name ++ scriptSuffix)]

/-- The first of some paths that leads to a regular file. -/
def firstFile? : List Path → Program (Option Path)
  | [] => return none
  | p :: rest => do if ← Program.perform (.isFile p) then return some p else firstFile? rest

/-- Find the script of a name. -/
def findScript (l : Layout) (name : Text) : Action Path := do
  match ← ExceptT.lift (firstFile? (l.candidates name)) with
  | some p => return p
  | none => throw (.scriptNotFound name (l.candidates name))

end Caretaker.Layout

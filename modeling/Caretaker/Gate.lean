import Caretaker.Program

/-!
# The gate

Upkeep can be skipped as a whole. A gated command runs only while the gate is open; that its script
exists is asked first, so a missing script is a fault even while upkeep is skipped.
-/

namespace Caretaker

/-- The switches that close the gate and open it again. -/
structure SkipFlags where
  skipUpkeep : Bool
  skipTasks : Bool
deriving DecidableEq, Repr

namespace SkipFlags

/-- Whether the gate is open. -/
def allowsUpkeep (f : SkipFlags) : Bool := !f.skipUpkeep || f.skipTasks

/-- A switch is on if its variable has a value that is not empty. -/
def ofLookup (find : Lookup) : SkipFlags :=
  let isOn (name : String) := (find name.toList).any (!·.isEmpty)
  ⟨isOn "SKIP_UPKEEP", isOn "SKIP_TASKS"⟩

/-- The switches in the variables of the process. -/
def ofProcess : Program SkipFlags := do
  return ofLookup (← Program.perform .bindings).processValue?

end SkipFlags

/-- Ask that a path leads to a regular file; `name` is the name of the script in the fault. -/
def requireFile (name : Text) (path : Path) : Action Unit := do
  if ← Action.ask (.isFile path) then return ()
  else throw (.scriptNotFound name [path])

/-- Whether a gated command may run. -/
def gate (name : Text) (path : Path) (flags : SkipFlags) : Action Bool := do
  requireFile name path
  return flags.allowsUpkeep

end Caretaker

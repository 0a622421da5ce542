import Caretaker.Environ.File
import Caretaker.Program

/-!
# Loading environ files

An environ file is loaded from a path. Where one may be missing, a missing one assigns nothing.
-/

namespace Caretaker.Environ

/-- The variables of the environ file at a path. -/
def load (path : Path) (base : Bindings) : Action Bindings := do
  let content ← Action.ask (.readText path) >>= Action.orFault .io
  let process ← Action.ask .bindings
  return parse process base content

/-- The variables of the environ file at a path, or none if there is no file. -/
def loadOptional (path : Path) (base : Bindings) : Action Bindings := do
  if ← Action.ask (.isFile path) then load path base else return []

end Caretaker.Environ

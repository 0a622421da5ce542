import Caretaker.Environ.Assignment
import Caretaker.Environ.Value

/-!
# Environ files

An environ file is a list of assignments in the syntax of the shell. It is read, not run: each
assignment is evaluated in the scope of those above it, and every other line is passed over.
-/

namespace Caretaker.Environ

/--
Where references are looked up while a file is read: among the variables assigned above, then
among the base variables, then in the process environment.
-/
def scope (process base vars : Bindings) : Lookup := fun name =>
  ((vars.value? name).orElse fun _ => base.value? name).orElse fun _ => process.processValue? name

/-- The variables after one line of a file. -/
def assignLine (process base vars : Bindings) (line : Text) : Bindings :=
  let line := Text.trim line
  if line.isEmpty || line.head? == some '#' then vars
  else
    match Assignment.ofLine? line with
    | none => vars
    | some a => vars.set a.name (evaluate (scope process base vars) (Text.trim a.raw))

/-- The variables that a file assigns, in the order of their first assignments. -/
def parse (process base : Bindings) (content : Text) : Bindings :=
  (Text.lines content).foldl (assignLine process base) []

end Caretaker.Environ

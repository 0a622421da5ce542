import Caretaker.Registry
import Caretaker.Route
import Caretaker.Screen

/-!
# Listing tasks

Tasks are listed for people, with their descriptions in a column, or for programs, one bare name to
a line.
-/

namespace Caretaker.Registry

/-- The width of the names: the most bytes that one of them takes. -/
def nameWidth (r : Registry) : Nat := (r.names.map Text.byteLength).foldl max 0

/-- The row of each task, in order. -/
def rows (r : Registry) (theme : Theme) : List Text :=
  r.tasks.map fun t => theme.taskRow t.name t.description r.nameWidth

/-- The lines that list the tasks of a directory. -/
def lines (r : Registry) (dir : Path) (theme : Theme) : ListFormat → List Line
  | .machine => r.names.map (⟨.raw, ·⟩)
  | .human =>
    if r.tasks.isEmpty then [⟨.hint, "No tasks found in ".toList ++ dir.text⟩]
    else (theme.header "Tasks:".toList :: r.rows theme).map (⟨.message, ·⟩)

end Caretaker.Registry

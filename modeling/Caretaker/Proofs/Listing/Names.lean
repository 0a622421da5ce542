import Caretaker.Proofs.Dispatch.Site
import Caretaker.Proofs.Listing.Printed

/-!
# Names on lines of their own

For other programs, tasks are listed by their bare names, one behind the other. The name of a task
may hold a line feed, as the name of a file may. It then takes several lines, and whoever reads the
list line by line finds the pieces of the name. All other names are read back as they are.
-/

namespace Caretaker

/-- What is read, line by line, from the bytes of a list of names. -/
structure Registry.Recovers (r : Registry) (b : Bytes) : Prop where
  /-- The names are read, cut at their line feeds, -/
  pieces : Text.readLines? b = some (r.names.flatMap (·.splitOn '\n'))
  /-- and for each line feed in a name there is one line more than there are names. -/
  surplus : ∀ lines, Text.readLines? b = some lines →
    lines.length = r.names.length + (r.names.map (·.count '\n')).sum
  /-- The names themselves are read exactly if none of them holds a line feed. -/
  whole : Text.readLines? b = some r.names ↔ ∀ name ∈ r.names, '\n' ∉ name

/-- What is printed for programs is the names, one behind the other. -/
lemma Registry.textOn_machine (r : Registry) (dir : Path) (theme : Theme) :
    Line.textOn theme .output (r.lines dir theme .machine) = Text.unlines r.names :=
  Line.textOn_map (fun _ => rfl) (fun _ => rfl) r.names

/-- The list for programs, as it is put together. -/
theorem Registry.recovers_unlines (r : Registry) :
    r.Recovers (Text.encode (Text.unlines r.names)) where
  pieces := Text.readLines?_unlines r.names
  surplus := by
    intro lines hlines
    rw [Text.readLines?_unlines] at hlines
    rw [← Option.some.inj hlines]
    exact Text.length_flatMap_splitOn r.names
  whole := by
    rw [Text.readLines?_unlines, Option.some.injEq]
    exact Text.flatMap_splitOn_eq_self_iff r.names

/-- For every command line that asks for the bare names, on every machine: if it is not refused, the
names of the registry are read back from its output, as far as they hold no line feeds. -/
theorem CommandLine.recovers_taskList (line : CommandLine) (rest : List Text) (theme : Theme)
    (m : Machine) (children : Children) :
    { line with command := some (.taskList rest) }.Outputs theme m children
      fun _ r added => r.Recovers added := by
  refine (outputs_of_resolve theme m children fun _ _ => rfl).mono ?_
  rintro l r added rfl
  rw [r.textOn_machine]
  exact r.recovers_unlines

/-- One task is listed like two. -/
example : ((Machine.holding
    [([.text "r".toList], .dir), ([.text "r".toList, .text "tasks".toList], .dir),
     ([.text "r".toList, .text "tasks".toList, .text "a\nb.sh".toList], .file [] false)]).run
      .absent (CommandLine.carryOut ⟨some ⟨"/r".toList⟩, false, false, some (.taskList [])⟩
        .plain)).2.bytesOn .output = Text.encode "a\nb\n".toList := by
  cbv

end Caretaker

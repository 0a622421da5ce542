import Caretaker.Text.Octets

/-!
# Quoted octets

A text in quotes, so that the shell reads it back as one word. Single quotes are put into double
ones.
-/

namespace Caretaker.Octets

/-- The stretches of single quotes and of other characters. -/
def quoteRuns : Nat → Octets → List Octets
  | 0, _ | _ + 1, [] => []
  | fuel + 1, c :: r =>
    let run := c :: r.takeWhile fun d => (d == '\'') == (c == '\'')
    run :: quoteRuns fuel ((c :: r).drop run.length)

/-- A text in quotes. It starts with a part in single quotes, even if that is empty. -/
def quoted (t : Octets) : Octets :=
  let runs := (quoteRuns (t.length + 1) t).map fun run =>
    if run.head? = some '\'' then '"' :: run ++ ['"'] else '\'' :: run ++ ['\'']
  (if t.isEmpty || t.head? = some '\'' then ['\'', '\''] else []) ++ runs.flatten

end Caretaker.Octets

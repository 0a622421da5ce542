import Caretaker.Environ.Template

/-!
# Assignments

A line assigns when it reads `NAME=value`, or `export NAME=value` with blanks after `export`. Any
other line is a comment or some logic of the shell, and is passed over.
-/

namespace Caretaker.Environ

/-- The two sides of an assignment; the right-hand side is as written. -/
structure Assignment where
  name : Text
  raw : Text
deriving DecidableEq, Repr

namespace Assignment

/-- Read `NAME=value`. -/
def ofPlain? (line : Text) : Option Assignment :=
  let name := line.takeWhile isNameChar
  match line.dropWhile isNameChar with
  | '=' :: raw => if isName name then some ⟨name, raw⟩ else none
  | _ => none

/-- What follows `export` and at least one blank. -/
def afterExport? (line : Text) : Option Text :=
  match "export".toList.isPrefixOf? line with
  | some (c :: r) => if Text.isBlank c then some (Text.trimStart r) else none
  | _ => none

/-- Read a line without blanks around it. -/
def ofLine? (line : Text) : Option Assignment :=
  ((afterExport? line).bind ofPlain?).orElse fun _ => ofPlain? line

end Assignment
end Caretaker.Environ

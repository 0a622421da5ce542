import Caretaker.Text.Octets

/-!
# Search paths

A search path names directories, with colons between them. A program is looked for in one of them
after the other.
-/

namespace Caretaker.SearchPath

/-- The directories of a search path. -/
def directories : Octets → List Octets
  | [] => [[]]
  | ':' :: r => [] :: directories r
  | c :: r =>
    match directories r with
    | [] => [[c]]
    | s :: ss => (c :: s) :: ss

/-- A name in a directory of a search path; in an empty one it is as it is. -/
def inDirectory (dir name : Octets) : Octets := if dir.isEmpty then name else dir ++ '/' :: name

/-- The paths that a name may have, with the numbers of their directories. -/
def candidates (path name : Octets) : List (Nat × Octets) :=
  (directories path).zipIdx.map fun (dir, n) => (n, inDirectory dir name)

end Caretaker.SearchPath

import Caretaker.SearchPath
import Caretaker.Script.Builtin.Basic

/-!
# The working directory

A shell keeps the name by which it has come to its working directory, in which dots have been
resolved without a look at links.
-/

namespace Caretaker.Script.Builtin

open Step

/-- Whether the name is wanted that does not go through links. -/
def isPhysical (found : List (Char × Octets)) : Bool := found.getLast?.any (·.1 == 'P')

/-- The name of a directory that is reached by a path from a directory of some name. Two slashes in
front are not the same as one. -/
def logicalPath (here path : Octets) : Octets :=
  let isAbsolute := path.head? = some '/'
  let twoSlashes (t : Octets) : Bool := match t with
    | '/' :: '/' :: c :: _ => c != '/'
    | ['/', '/'] => true
    | _ => false
  let base := if isAbsolute then path else here
  let root : Octets := if twoSlashes base then ['/', '/'] else ['/']
  let start := if isAbsolute then [] else (World.segments here).reverse
  let names := (World.segments path).foldl (fun names s =>
    if s = ['.'] then names else if s = ['.', '.'] then names.drop 1 else s :: names) start
  root ++ ['/'].intercalate names.reverse

/-- Set the variables that tell where the shell is. -/
def setDirectory (directory : Octets) (setsOld : Bool) : Step Unit := do
  let exported : Marks := ⟨true, false, false⟩
  let old := (← get).directory
  if setsOld then assign "OLDPWD".toList (some old) exported
  modify fun s => { s with directory }
  assign "PWD".toList (some directory) exported

/-- Go to a directory; whether there is one. -/
def goTo (physical : Bool) (path : Octets) : Step Bool := do
  let s ← get
  let target := if physical then path else logicalPath s.directory path
  match s.world.find s.cwd true target with
  | .ok (place, .dir) =>
    let located := s.located.map fun (name, l) => (name, ({ l with stale := true } : Located))
    set { s with cwd := place, located }
    setDirectory (if physical then World.pathOf place else target) true
    return true
  | _ => return false

/-- Whether a path says itself where it starts. -/
def startsHere (path : Octets) : Bool :=
  let first := path.takeWhile (· != '/')
  path.head? = some '/' || first = ['.'] || first = ['.', '.']

/-- Change the working directory. The directories in `CDPATH` are tried first. -/
def cd : Action := fun args => do
  let (found, args) ← options (flags "LP") args
  let physical := isPhysical found
  let (path, prints) ← match args with
    | [] => pure ((← valueOf "HOME").getD [], false)
    | ['-'] :: _ => pure ((← valueOf "OLDPWD").getD [], true)
    | path :: _ => pure (path, false)
  let path' := if path.isEmpty then ['.'] else path
  let dirs ← if startsHere path then pure [] else pure (((← valueOf "CDPATH").map SearchPath.directories).getD [])
  let s ← get
  match dirs.find? fun dir => s.world.isDir s.cwd (SearchPath.inDirectory dir path') with
  | some dir =>
    if !(← goTo physical (SearchPath.inDirectory dir path')) then fail ("can't cd to ".toList ++ path)
    if prints || !dir.isEmpty then printLine (← get).directory
  | none =>
    if !(← goTo physical path') then fail ("can't cd to ".toList ++ path)
    if prints then printLine (← get).directory
  return 0

/-- Print the working directory. -/
def pwd : Action := fun args => do
  let (found, _) ← options (flags "LP") args
  let s ← get
  printLine (if isPhysical found then World.pathOf s.cwd else s.directory)
  return 0

end Caretaker.Script.Builtin

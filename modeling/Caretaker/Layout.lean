import Caretaker.Settings.File

/-!
# Layouts

A layout is a root together with the places derived from it: by fixed names, by the settings, and in
one case by what exists at the moment of asking.
-/

namespace Caretaker

/-- A root and the places that the settings give it. -/
structure Layout where
  root : Path
  buildRoot : Path
  dependenciesRoot : Path
  overrideDir : Path
  standardEnviron : Path
  tasksDir : Path
  scriptsDir : Path
deriving DecidableEq, Repr

namespace Layout

/-! ## Places -/

/--
The layout of a root. A setting is joined to the root, or to the build root for dependencies and
overrides, so that an absolute one stands for itself; the result is normalized.
-/
def ofSettings (root : Path) (s : Settings) : Layout :=
  let buildRoot := (root.join s.buildRoot).normalize
  { root, buildRoot,
    dependenciesRoot := (buildRoot.join s.dependenciesRoot).normalize
    overrideDir := (buildRoot.join s.overrideDir).normalize
    standardEnviron := (root.join s.environSource).normalize
    tasksDir := (root.join s.tasksDir).normalize
    scriptsDir := (root.join s.scriptsDir).normalize }

/-- The script of the check action. -/
def checkScript (l : Layout) : Path := l.root.joinString "check.sh"

/-- The script of the force action. -/
def forceScript (l : Layout) : Path := l.root.joinString "force.sh"

/-- The script that executes tasks. -/
def taskExecutor (l : Layout) : Path := l.root.joinString "execute_task.sh"

/-- The managed link to the environ file. -/
def environLink (l : Layout) : Path := l.root.joinString "environ.sh"

/-- The environ file of the override directory. -/
def overrideEnviron (l : Layout) : Path := l.overrideDir.joinString "environ.sh"

/-- The environ file that the managed link should lead to. The override directory wins if it exists.
-/
def environSource (l : Layout) : Program Path := do
  return if ← Program.perform (.isDir l.overrideDir) then l.overrideEnviron else l.standardEnviron

/-- The variables that every script receives. -/
def exportedVariables (l : Layout) : Bindings :=
  [("BUILD_ROOT".toList, l.buildRoot.text),
   ("UPKEEP_ROOT".toList, l.root.text),
   ("DEPENDENCIES_ROOT".toList, l.dependenciesRoot.text)]

/-! ## Loading -/

/-- Load the layout of a root, which has to be a directory. -/
def load (root : Path) : Action Layout := do
  if ← Action.ask (.isDir root) then
    let root ← Action.ask (.canonical root) >>= Action.orFault .io
    return ofSettings root (← Settings.load root)
  else throw (.rootNotFound root)

end Layout

/-! ## Which root -/

/-- Where a root comes from. -/
inductive RootSource where
  | explicit
  | executable
deriving DecidableEq, Repr

def RootSource.describe : RootSource → String
  | explicit => "--root/UPKEEP_ROOT"
  | executable => "executable location"

/-- The root that is asked for; if none is, the directory that holds the executable. -/
def resolveRoot (asked : Option Path) : Program (Path × RootSource) :=
  match asked with
  | some root => return (root, .explicit)
  | none => return (← Program.perform .executableDir, .executable)

end Caretaker

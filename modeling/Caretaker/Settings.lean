import Caretaker.Text

/-!
# Settings

Six places can be configured, each by a path that is relative to a root. A settings file names some
of them; the others keep their defaults.
-/

namespace Caretaker

/-- The places that can be configured. -/
inductive Setting where
  | buildRoot
  | dependenciesRoot
  | overrideDir
  | environSource
  | tasksDir
  | scriptsDir
deriving DecidableEq, Repr

namespace Setting

/-- All settings, in the order in which messages list them. -/
def all : List Setting :=
  [buildRoot, dependenciesRoot, overrideDir, environSource, tasksDir, scriptsDir]

theorem mem_all (s : Setting) : s ∈ all := by cases s <;> decide

/-- The key of a setting in a settings file. -/
def key : Setting → String
  | buildRoot => "build_root"
  | dependenciesRoot => "dependencies_root"
  | overrideDir => "override_dir"
  | environSource => "environ_source"
  | tasksDir => "tasks_dir"
  | scriptsDir => "scripts_dir"

/-- The setting with a key. -/
def ofKey? (key : Text) : Option Setting := all.find? (·.key.toList == key)

/-- No two settings have the same key. -/
theorem ofKey?_key (s : Setting) : ofKey? s.key.toList = some s := by cases s <;> decide

theorem ofKey?_eq_some_iff {key : Text} {s : Setting} : ofKey? key = some s ↔ key = s.key.toList := by
  constructor
  · intro h
    have := List.find?_some h
    simpa using (beq_iff_eq.1 this).symm
  · rintro rfl
    exact ofKey?_key s

end Setting

/-- The six places, as configured. -/
structure Settings where
  buildRoot : Text
  dependenciesRoot : Text
  overrideDir : Text
  environSource : Text
  tasksDir : Text
  scriptsDir : Text
deriving DecidableEq, Repr

namespace Settings

/-- The places if nothing is configured. -/
def standard : Settings where
  buildRoot := ".".toList
  dependenciesRoot := "dependencies".toList
  overrideDir := "upkeep-overrides".toList
  environSource := "config/environ.sh".toList
  tasksDir := "tasks".toList
  scriptsDir := "scripts".toList

instance : Inhabited Settings := ⟨standard⟩

def value (s : Settings) : Setting → Text
  | .buildRoot => s.buildRoot
  | .dependenciesRoot => s.dependenciesRoot
  | .overrideDir => s.overrideDir
  | .environSource => s.environSource
  | .tasksDir => s.tasksDir
  | .scriptsDir => s.scriptsDir

def set (s : Settings) (place : Setting) (value : Text) : Settings :=
  match place with
  | .buildRoot => { s with buildRoot := value }
  | .dependenciesRoot => { s with dependenciesRoot := value }
  | .overrideDir => { s with overrideDir := value }
  | .environSource => { s with environSource := value }
  | .tasksDir => { s with tasksDir := value }
  | .scriptsDir => { s with scriptsDir := value }

/-- Two settings with the same six values are the same. -/
theorem ext_value {s t : Settings} (h : ∀ p, s.value p = t.value p) : s = t := by
  cases s
  cases t
  have h1 := h .buildRoot
  have h2 := h .dependenciesRoot
  have h3 := h .overrideDir
  have h4 := h .environSource
  have h5 := h .tasksDir
  have h6 := h .scriptsDir
  simp_all [value]

/-- Changing a setting does nothing to the others. -/
theorem value_set (s : Settings) (p q : Setting) (v : Text) :
    (s.set p v).value q = if p = q then v else s.value q := by
  cases p <;> cases q <;> rfl

/-- The defaults with some places configured. -/
def ofEntries (entries : List (Setting × Text)) : Settings :=
  entries.foldl (fun s (place, value) => s.set place value) standard

end Settings
end Caretaker

import Caretaker.Program
import Caretaker.Settings.Document

/-!
# The settings file

A root may hold a settings file. Without one, or with one that says nothing, the defaults hold.
-/

namespace Caretaker.Settings

/-- The settings file of a root. -/
def file (root : Path) : Path := root.joinString "upkeep.yml"

/-- Read the content of the settings file at `path`. -/
def parse (path : Path) (content : Text) : Except Fault Settings :=
  if (Text.trim content).isEmpty then .ok standard
  else
    match ofDocument (Yaml.Document.ofText content) with
    | .ok s => .ok s
    | .error flaw => .error (.settingsRejected path (flaw.value.messageAt flaw.mark))

/-- Load the settings of a root. -/
def load (root : Path) : Action Settings := do
  if ← Action.ask (.isFile (file root)) then
    let content ← Action.ask (.readText (file root)) >>= Action.orFault .io
    liftExcept (parse (file root) content)
  else return standard

end Caretaker.Settings

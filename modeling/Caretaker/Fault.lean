import Caretaker.IoFault
import Caretaker.Path

/-!
# Faults

What can go wrong on the way from a request to its outcome, apart from the failures of the scripts
themselves, whose exit codes are passed on. `Fault.message` is the wording.
-/

namespace Caretaker

inductive Fault where
  /-- No script exists for an action, for the task executor or for a `run` name. -/
  | scriptNotFound (name : Text) (searched : List Path)
  /-- The upkeep root is not a directory. -/
  | rootNotFound (path : Path)
  /-- The settings file was read and not understood. -/
  | settingsRejected (path : Path) (detail : String)
  /-- The managed link could not be repaired. -/
  | linkFailed (link target : Path) (cause : IoFault)
  /-- A script could not be started. -/
  | launchFailed (program : Path) (cause : IoFault)
  | io (cause : IoFault)
  /-- Anything else, described in words. -/
  | other (detail : String)
deriving DecidableEq, Repr

namespace Fault

/-- The fault as it is reported. -/
def message : Fault → String
  | scriptNotFound name _ => "No upkeep file found for '" ++ String.ofList name ++ "'"
  | rootNotFound path => "Upkeep root not found: " ++ path.display
  | settingsRejected path detail => "Failed to parse config at " ++ path.display ++ ": " ++ detail
  | linkFailed link target cause =>
    "Failed to link " ++ link.display ++ " -> " ++ target.display ++ ": " ++ cause.message
  | launchFailed program cause =>
    "Failed to execute " ++ program.display ++ ": " ++ cause.message
  | io cause => "IO error: " ++ cause.message
  | other detail => detail

/-- The failed call behind a fault. -/
def cause? : Fault → Option IoFault
  | linkFailed _ _ cause | launchFailed _ cause | io cause => some cause
  | _ => none

end Fault
end Caretaker

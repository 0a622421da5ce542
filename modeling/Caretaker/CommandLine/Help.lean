import Caretaker.Text.Escape
import Caretaker.Variables

/-!
# Help

The text of `help`. It shows the value that the environment gives to the root, which may hold escape
sequences of its own; they are taken out together with those that make the options bold.
-/

namespace Caretaker.CommandLine

def helpOpening : String :=
"Dispatcher for repository upkeep checks, tasks and helper scripts

Usage: upkeep [OPTIONS] [COMMAND]

Commands:
  force      Run the force action
  check      Run the check action (default if no command specified)
  help       Print this help
  tasks      List all registered tasks
  task-list  Print registered task names, one per line
  run        Run a named script or path, running check first unless upkeep is skipped

Options:
      --root <DIR>  Upkeep root (defaults to the directory holding this executable) [env: UPKEEP_ROOT="

/-- The name of an option, in bold. -/
def bold (name : String) : String := "\x1b[1m" ++ name ++ "\x1b[0m"

def helpOptions : String :=
  "]\n      " ++ bold "--debug" ++ "       Enable debug logging\n      " ++
    bold "--no-color" ++ "    Disable colored output\n  " ++
    bold "-h" ++ ", " ++ bold "--help" ++ "        Print help\n  " ++
    bold "-V" ++ ", " ++ bold "--version" ++ "     Print version\n"

def helpClosing : String :=
"
Any other COMMAND is treated as a task name and handed to execute_task.sh
together with its arguments.

Environment:
  SKIP_UPKEEP   Skip check, force and task execution (run still executes its script)
  SKIP_TASKS    Run gated commands even when SKIP_UPKEEP is set

Scripts receive BUILD_ROOT, UPKEEP_ROOT, DEPENDENCIES_ROOT and every
variable defined in environ.sh."

/-- The column in which the options are explained. -/
def helpColumn : Nat := 20

/-- A value inside the explanations: a line end in it is followed by indentation. -/
def indented (value : Text) : Text :=
  value.flatMap fun c => if c = '\n' then '\n' :: List.replicate helpColumn ' ' else [c]

/-- The help text, for the variables of the process. -/
def help (process : Bindings) (reading : Text.Escape.Reading) : Text :=
  let root := (process.processValue? "UPKEEP_ROOT".toList).getD []
  Text.Escape.strip reading
    (helpOpening.toList ++ indented root ++ helpOptions.toList ++ helpClosing.toList)

def version : Text := "upkeep 0.1.0".toList

end Caretaker.CommandLine

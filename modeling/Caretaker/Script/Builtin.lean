import Caretaker.Script.Builtin.Leaving
import Caretaker.Script.Builtin.Naming
import Caretaker.Script.Builtin.Output
import Caretaker.Script.Builtin.Setting
import Caretaker.Script.Builtin.Signalling
import Caretaker.Script.Builtin.Variable

/-!
# The commands of the shell by name

All commands of the shell but those that run other commands.
-/

namespace Caretaker.Script.Builtin

/-- The commands of the shell and what they do. -/
def actions : List (String × Action) :=
  [("echo", echo), ("printf", printf), ("test", condition), ("[", bracket), (":", fun _ => return 0),
    ("true", fun _ => return 0), ("false", fun _ => return 1), ("read", read), ("cd", cd), ("chdir", cd), ("pwd", pwd),
    ("set", set), ("shift", shift), ("export", «export»), ("readonly", readonly), ("local", «local»), ("unset", unset),
    ("break", leaveLoops .breaks), ("continue", leaveLoops .continues), ("return", «return»), ("exit", exit),
    ("trap", trap), ("kill", kill), ("wait", wait), ("jobs", jobs), ("fg", moveJob), ("bg", moveJob), ("alias", «alias»),
    ("unalias", unalias), ("command", command), ("type", type), ("hash", hash), ("getopts", getopts),
    ("umask", umask), ("ulimit", ulimit), ("times", times)]

/-- What a command of the shell does. -/
def action? (name : Octets) : Option Action := (actions.find? (·.1.toList == name)).map (·.2)

end Caretaker.Script.Builtin

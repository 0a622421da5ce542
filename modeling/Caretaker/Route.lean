import Caretaker.Finder
import Caretaker.Gate

/-!
# Routes

A request is resolved to a route before anything runs. The route depends on the request, the
layout, the switches and which scripts exist.
-/

namespace Caretaker

/-! ## Requests -/

/-- What is asked for. -/
inductive Request where
  /-- Nothing in particular. -/
  | default
  | help
  | check (args : List Text)
  | force (args : List Text)
  | tasks
  | taskList
  | run (name : Text) (args : List Text)
  /-- Any other word: a task, with the word itself as the first argument. -/
  | task (argv : List Text)
deriving DecidableEq, Repr

/-- The name of a request in messages. -/
def Request.label : Request → Text
  | default | check _ => "check".toList
  | force _ => "force".toList
  | help => "help".toList
  | tasks => "tasks".toList
  | taskList => "task-list".toList
  | run name _ => "run ".toList ++ name
  | task argv => argv.headD []

/-! ## Routes -/

/-- How tasks are listed. -/
inductive ListFormat where
  /-- Names with descriptions. -/
  | human
  /-- Bare names. -/
  | machine
deriving DecidableEq, Repr

/-- Scripts to run: perhaps a check, and the target if the check succeeds. -/
structure Plan where
  preCheck : Option Invocation
  target : Invocation
deriving DecidableEq, Repr

/-- What is to be done about a request. -/
inductive Route where
  | delegate (plan : Plan)
  /-- The gate is closed, and nothing runs. -/
  | skipped (command : Text)
  | list (format : ListFormat)
  | help
deriving DecidableEq, Repr

namespace Route

/-- The route of a gated command: its script alone, or nothing. -/
def gated (name : String) (script : Path) (args : List Text) (label : Text) (flags : SkipFlags) :
    Action Route := do
  if ← gate name.toList script flags then return .delegate ⟨none, ⟨script, args⟩⟩
  else return .skipped label

/-- The check in front of a script: none while the gate is closed. -/
def preCheck (l : Layout) (flags : SkipFlags) : Action (Option Invocation) := do
  if flags.allowsUpkeep then
    requireFile "check".toList l.checkScript
    return some ⟨l.checkScript, []⟩
  else return none

/-- Resolve a request. A script that is to be run is never gated, only the check in front of it. -/
def resolve (l : Layout) (flags : SkipFlags) (request : Request) : Action Route :=
  match request with
  | .default => gated "check" l.checkScript [] request.label flags
  | .check args => gated "check" l.checkScript args request.label flags
  | .force args => gated "force" l.forceScript args request.label flags
  | .task argv => gated "execute_task" l.taskExecutor argv request.label flags
  | .help => return .help
  | .tasks => return .list .human
  | .taskList => return .list .machine
  | .run name args => do
    let script ← l.findScript name
    return .delegate ⟨← preCheck l flags, ⟨script, args⟩⟩

end Route
end Caretaker

import Caretaker.Route

/-!
# The command line

Options come first, then a command with everything that belongs to it. A word that is no command
names a task. What belongs to a command is not looked at, except that a double dash right behind the
command is dropped.
-/

namespace Caretaker

/-- Why a command line is not carried out. -/
inductive UsageFault where
  | unknownArgument (argument : Text)
  /-- The root is missing or empty. -/
  | missingRoot
  | unwantedValue (option value : Text)
  | repeated (option : Text)
  | missingName
  /-- Help or the version is asked for. -/
  | wantsHelp
  | wantsVersion
deriving DecidableEq, Repr

namespace UsageFault

/-- How the option for the root is shown. -/
def rootOption : String := "--root <DIR>"

/-- A word in a message: yellow, between quotes. -/
def word (t : String) : String := "'\x1b[33m" ++ t ++ "\x1b[0m'"

/-- The first line of what is printed about a fault, for a terminal. -/
def message : UsageFault → String
  | unknownArgument a => "error: unexpected argument " ++ word (String.ofList a) ++ " found"
  | missingRoot => "error: a value is required for " ++ word rootOption ++ " but none was supplied"
  | unwantedValue o v =>
    "error: unexpected value " ++ word (String.ofList v) ++ " for " ++ word (String.ofList o) ++
      " found; no more were expected"
  | repeated o => "error: the argument " ++ word (String.ofList o) ++ " cannot be used multiple times"
  | missingName => "error: the following required arguments were not provided:"
  | wantsHelp | wantsVersion => ""

/-- The code to exit with. To ask for help is no error. -/
def exitCode : UsageFault → Nat
  | wantsHelp | wantsVersion => 0
  | _ => 2

end UsageFault

/-- A command with what belongs to it. -/
inductive Command where
  | force (args : List Text)
  | check (args : List Text)
  | help (rest : List Text)
  | tasks (rest : List Text)
  | taskList (rest : List Text)
  | run (script : Text) (args : List Text)
  /-- Any other word and what follows it. -/
  | task (argv : List Text)
deriving DecidableEq, Repr

/-- The request that a command stands for. -/
def Command.request : Option Command → Request
  | none => .default
  | some (.force args) => .force args
  | some (.check args) => .check args
  | some (.help _) => .help
  | some (.tasks _) => .tasks
  | some (.taskList _) => .taskList
  | some (.run script args) => .run script args
  | some (.task argv) => .task argv

/-- A command line as it is understood. -/
structure CommandLine where
  root : Option Path
  debug : Bool
  noColor : Bool
  command : Option Command
deriving DecidableEq, Repr

namespace CommandLine

/-! ## Commands -/

/-- Drop a double dash in front. -/
def dropDashes : List Text → List Text
  | ['-', '-'] :: rest => rest
  | rest => rest

/-- Whether a word looks like an option. A single dash does not. -/
def looksLikeOption : Text → Bool
  | '-' :: _ :: _ => true
  | _ => false

/-- The option that a word starts with: the name of a long one without its value, or the first
letter of a group of short ones. -/
def optionName : Text → Text
  | '-' :: '-' :: r => '-' :: '-' :: r.takeWhile (· != '=')
  | t => t.take 2

/-- Read what follows `run`: the name of a script, which must not look like an option unless it
stands behind a double dash, and arguments. -/
def readRun : List Text → Except UsageFault Command
  | [] => .error .missingName
  | ['-', '-'] :: [] => .error .missingName
  -- two dashes have been passed over already, so that the arguments keep those that they have
  | ['-', '-'] :: name :: args => .ok (.run name args)
  | name :: args =>
    if looksLikeOption name then .error (.unknownArgument (optionName name))
    else .ok (.run name (dropDashes args))

/-- How a command that is known by its name reads what follows it. -/
def reader? (name : Text) : Option (List Text → Except UsageFault Command) :=
  if name = "force".toList then some fun rest => .ok (.force (dropDashes rest))
  else if name = "check".toList then some fun rest => .ok (.check (dropDashes rest))
  else if name = "help".toList then some fun rest => .ok (.help (dropDashes rest))
  else if name = "tasks".toList then some fun rest => .ok (.tasks (dropDashes rest))
  else if name = "task-list".toList then some fun rest => .ok (.taskList (dropDashes rest))
  else if name = "run".toList then some readRun
  else none

/-! ## Options -/

/-- The options read so far. -/
structure Options where
  root : Option Text
  /-- An option for the root that is not settled yet, with its value if that has been read. -/
  pending : Option (Option Text)
  debug : Bool
  noColor : Bool
deriving DecidableEq, Repr

namespace Options

def none : Options := ⟨.none, .none, false, false⟩

/-- Take a root. There can be only one, and it must not be empty. -/
def takeRoot (o : Options) (root : Text) : Except UsageFault Options :=
  if o.root.isSome then .error (.repeated UsageFault.rootOption.toList)
  else if root.isEmpty then .error .missingRoot
  else .ok { o with root := some root }

/-- Settle the option for the root that is pending. -/
def settle (o : Options) : Except UsageFault Options :=
  match o.pending with
  | .none => .ok o
  | some .none => .error .missingRoot
  | some (some root) => { o with pending := .none }.takeRoot root

/-- Whether the next word is the root. -/
def awaitsRoot (o : Options) : Bool := o.pending == some .none

/-- Read an option with a long name. -/
def readLong (o : Options) (name : Text) (value : Option Text) : Except UsageFault Options :=
  let option := '-' :: '-' :: name
  let flag (act : Options → Except UsageFault Options) : Except UsageFault Options :=
    match value with
    | some v => .error (.unwantedValue option v)
    | .none => o.settle >>= act
  if name = "root".toList then do
    let o ← o.settle
    match value with
    | some v => o.takeRoot v
    | .none => .ok { o with pending := some .none }
  else if name = "debug".toList then
    flag fun o => if o.debug then .error (.repeated option) else .ok { o with debug := true }
  else if name = "no-color".toList then
    flag fun o => if o.noColor then .error (.repeated option) else .ok { o with noColor := true }
  else if name = "help".toList then flag fun _ => .error .wantsHelp
  else if name = "version".toList then flag fun _ => .error .wantsVersion
  else .error (.unknownArgument option)

/-- Read an option with a short name. Both of them end the reading. -/
def readShort (o : Options) (letter : Char) : UsageFault :=
  let ending (fault : UsageFault) : UsageFault :=
    match o.settle with
    | .ok _ => fault
    | .error e => e
  if letter = 'h' then ending .wantsHelp
  else if letter = 'V' then ending .wantsVersion
  else .unknownArgument ['-', letter]

end Options

/-- Cut an option with a long name into the name and the value behind an equals sign. -/
def cutValue (t : Text) : Text × Option Text :=
  match t.dropWhile (· != '=') with
  | [] => (t, none)
  | _ :: value => (t.takeWhile (· != '='), some value)

/-- Read options and then a command. -/
def readWords : List Text → Options → Except UsageFault (Options × Option Command)
  | [], o => .ok (o, none)
  | word :: rest, o =>
    -- right behind the option for it, even the name of a command is a root
    match (if o.awaitsRoot then none else reader? word) with
    | some read => (read rest).map fun command => (o, some command)
    | none =>
      match word with
      -- behind two dashes stands a task, also one with the name of a command
      | ['-', '-'] => .ok (o, if rest.isEmpty then none else some (.task rest))
      | '-' :: '-' :: option => do
        let (name, value) := cutValue option
        readWords rest (← o.readLong name value)
      | '-' :: letter :: _ => .error (o.readShort letter)
      | _ =>
        if o.awaitsRoot then readWords rest { o with pending := some (some word) }
        else .ok (o, some (.task (word :: rest)))

/-! ## The whole line -/

/-- Understand a command line. The environment gives the root if no option does. -/
def parse (process : Bindings) (args : List Text) : Except UsageFault CommandLine := do
  let (o, command) ← readWords args .none
  let o ← o.settle
  let o ←
    match o.root, process.processValue? "UPKEEP_ROOT".toList with
    | none, some root => o.takeRoot root
    | _, _ => .ok o
  .ok ⟨o.root.map (⟨·⟩), o.debug, o.noColor, command⟩

end CommandLine
end Caretaker

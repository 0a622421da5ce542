import Caretaker.Script.Builtin.Directory

/-!
# What names stand for

A name stands for a keyword, an alias, a function, a command of the shell, or a program in one of the
directories of the search path. Programs that have been found are kept, so that they need not be
looked for again.
-/

namespace Caretaker.Script

/-! ## Finding commands -/

/-- The commands of the shell that are not special. -/
def ordinaryCommands : List String :=
  ["[", "alias", "bg", "cd", "chdir", "command", "echo", "false", "fg", "getopts", "hash", "jobs", "kill", "printf",
    "pwd", "read", "test", "true", "type", "ulimit", "umask", "unalias", "wait"]

def isOrdinaryCommand (name : Octets) : Bool := ordinaryCommands.any (·.toList == name)

/-- The commands whose arguments may be assignments, in which tildes are replaced. -/
def assigningCommands : List String := ["alias", "export", "local", "readonly"]

/-- What a name stands for as a command. -/
inductive Found where
  | ofShell
  | function (body : Command)
  /-- A program in a directory of the search path with a number; nothing for a path. -/
  | program (directory : Option Nat)
  | unknown (e : IoFault)

namespace Lookup

/-- The directories in which programs are looked for if nothing else is said. -/
def standardPath : Octets := "/usr/local/sbin:/usr/local/bin:/usr/sbin:/usr/bin:/sbin:/bin".toList

/-- The search path of a shell. -/
def searchPath (s : Shell) : Octets := (s.vars.value? "PATH".toList).getD []

/-- Look for a program in one directory after the other. If there is none, the last reason counts that
is more than that nothing is there. -/
def search (s : Shell) : IoFault → List (Nat × Octets) → Except IoFault (Nat × Octets)
  | e, [] => .error e
  | e, (n, path) :: rest =>
    match s.world.find s.cwd true path with
    | .error .noEntry | .error .notDirectory => search s e rest
    | .error e => search s e rest
    | .ok _ => if s.world.isProgram s.cwd path then .ok (n, path) else search s .permissionDenied rest

/-- Find what a name stands for. Functions may be left out, and programs too; another search path
than that of the shell can be given. -/
def find (functions programs : Bool) (otherPath : Option Octets) (name : Octets) : Step Found := do
  let s ← get
  if name.contains '/' then return .program none
  match if functions then s.functions.find? (·.1 == name) else none with
  | some (_, body) => return .function body
  | none =>
    if isSpecialCommand name || isOrdinaryCommand name then return .ofShell
    if !programs then return .unknown .noEntry
    let path := otherPath.getD (searchPath s)
    let known := if otherPath.isSome then none else s.located.find? (·.1 == name)
    match known with
    | some (_, ⟨n, _, false⟩) => return .program (some n)
    | _ =>
      match search s .noEntry (SearchPath.candidates path name) with
      | .error e => return .unknown e
      | .ok (n, path) =>
        if otherPath.isNone then
          let located := s.located.filter (·.1 != name) ++ [(name, (⟨n, path, false⟩ : Located))]
          set { s with located }
        return .program (some n)

end Lookup

namespace Builtin

open Step

/-! ## Aliases -/

/-- The place of an alias in the order in which they are listed. -/
def aliasOrder (name : Octets) : Nat :=
  (name.foldl (fun n c => n + c.toNat) ((name.headD '\x00').toNat * 16)) % 39

def showAlias (name value : Octets) : Step Unit := printLine (name ++ '=' :: Octets.quoted value)

/-- Give names values, or show the values of names, or of all. -/
def «alias» : Action := fun args => do
  if args.isEmpty then
    let aliases := (← get).aliases
    (List.range 39).forM fun n =>
      (aliases.filter (aliasOrder ·.1 == n)).forM fun (name, value) => showAlias name value
    return 0
  else
    each (fun t => do
      let (name, value) := assignment (t.drop 1)
      let name := t.take 1 ++ name
      let aliases := (← get).aliases
      match value with
      | some value =>
        let changed := if aliases.any (·.1 == name)
          then aliases.map fun (k, old) => (k, if k = name then value else old)
          else aliases ++ [(name, value)]
        modify fun s => { s with aliases := changed }
        return true
      | none =>
        match aliases.find? (·.1 == name) with
        | some (_, value) =>
          showAlias name value
          return true
        | none =>
          report ("alias: ".toList ++ name ++ " not found".toList)
          return false) args

def unalias : Action := fun args => do
  let (all, args) ← oneOption 'a' args
  if all then
    modify fun s => { s with aliases := [] }
    return 0
  else
    each (fun name => do
      let aliases := (← get).aliases
      if aliases.any (·.1 == name) then
        modify fun s => { s with aliases := aliases.filter (·.1 != name) }
        return true
      report ("unalias: ".toList ++ name ++ " not found".toList)
      return false) args

/-! ## Describing names -/

/-- The path of a program in a directory of the search path with a number. -/
def pathOf (path name : Octets) (directory : Option Nat) : Octets :=
  match directory with
  | none => name
  | some n => ((SearchPath.candidates path name).find? (·.1 == n)).elim name (·.2)

/-- Say what a name stands for, in a sentence or as briefly as possible. -/
def describe (inSentence : Bool) (otherPath : Option Octets) (name : Octets) : Step Bool := do
  let s ← get
  let say (brief : Octets) (sentence : String) : Step Bool := do
    printLine (if inSentence then name ++ sentence.toList else brief)
    return true
  let unknown : Step Bool := do
    if inSentence then printLine (name ++ ": not found".toList)
    return false
  if (Keyword.ofSpelling? name).isSome then say name " is a shell keyword"
  else
    match s.aliases.find? (·.1 == name) with
    | some (_, value) =>
      if inSentence then printLine (name ++ " is an alias for ".toList ++ value)
      else
        print "alias ".toList
        showAlias name value
      return true
    | none =>
      let isTracked := otherPath.isNone && s.located.any (·.1 == name)
      let found ← Lookup.find true true otherPath name
      match found with
      | .ofShell =>
        say name (if isSpecialCommand name then " is a special shell builtin" else " is a shell builtin")
      | .function _ => say name " is a shell function"
      | .unknown _ => unknown
      | .program directory =>
        if directory.isNone && !(s.world.find s.cwd true name).isOk then unknown
        else
          let path := pathOf (otherPath.getD (Lookup.searchPath s)) name directory
          printLine (if inSentence then
            name ++ (if isTracked then " is a tracked alias for ".toList else " is ".toList) ++ path else path)
          return true

/-- The greatest status of descriptions, where an unknown name has one of its own. -/
def describeStatus (known : Bool) : Nat := if known then 0 else 127

def type : Action := fun args => do
  let results ← args.mapM (describe true none)
  return describeStatus (results.all id)

/-- What the command that runs other commands does with its options: it describes a name. -/
def command : Action := fun args => do
  let (found, args) ← options (flags "pvV") args
  let otherPath := if found.any (·.1 == 'p') then some Lookup.standardPath else none
  match args, found.any fun (c, _) => c == 'v' || c == 'V' with
  | name :: _, true => do return describeStatus (← describe (found.any (·.1 == 'V')) otherPath name)
  | _, _ => return 0

/-! ## Programs that have been found -/

/-- The place of a program in the order in which they are listed. -/
def programOrder (name : Octets) : Nat :=
  (name.foldl (fun n c => n + c.toNat) ((name.headD '\x00').toNat * 16)) % 31

/-- List programs that have been found, forget them, or find some. -/
def hash : Action := fun args => do
  let (found, args) ← options (flags "r") args
  if !found.isEmpty then
    modify fun s => { s with located := [] }
    return 0
  else if args.isEmpty then
    let located := (← get).located
    (List.range 31).forM fun n =>
      (located.filter (programOrder ·.1 == n)).forM fun (_, l) =>
        printLine (l.path ++ if l.stale then ['*'] else [])
    return 0
  else
    each (fun name => do
      modify fun s => { s with located := s.located.filter (·.1 != name) }
      match ← Lookup.find true true none name with
      | .unknown e =>
        complain (name ++ ": ".toList ++ Purpose.running.reason e)
        return false
      | _ => return true) args

end Builtin
end Caretaker.Script

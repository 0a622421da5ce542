import Caretaker.Script.Builtin
import Caretaker.Script.Call
import Caretaker.Script.Input
import Caretaker.Script.Process

/-!
# Running scripts

What the commands of a script do. The functions here call each other: a command may have others in
it, may call a function, and may run a text or a file as commands. How often they do so is bounded by
a fuel that no script uses up.
-/

namespace Caretaker.Script

/-- What the end of a command means for the shell. -/
structure Outlook where
  /-- Whether its status is looked at, so that a failure does not end the script. -/
  tested : Bool
  /-- Whether the shell ends with the command. -/
  exits : Bool

namespace Outlook

def plain : Outlook := ⟨false, false⟩

/-- What the end of the last part of a command means behind which something is left to do. -/
def within (o : Outlook) : Outlook := { o with exits := false }

/-- What the end of a test means. -/
def test : Outlook := ⟨true, false⟩

end Outlook

/-- How a loop goes on. -/
inductive Round where
  | goesOn
  /-- What is left of the round is left out. -/
  | next
  /-- The loop is left, maybe with the status of a function. -/
  | leaves (withStatus : Bool)
deriving DecidableEq

namespace Step

/-- The function calls that may be within each other. -/
def maxCalls : Nat := 1000

/-- After so many rounds of a loop, what is in the background is run. -/
def patientRounds : Nat := 1000

/-- Find out how a loop goes on. -/
def round : Step Round := do
  let skipTo (skip : Option Skip) (r : Round) : Step Round := do
    modify fun s => { s with skip }
    return r
  match (← get).skip with
  | none => return .goesOn
  | some (.breaks n) => skipTo (if n ≤ 1 then none else some (.breaks (n - 1))) (.leaves false)
  | some (.continues n) => if n ≤ 1 then skipTo none .next else skipTo (some (.continues (n - 1))) (.leaves false)
  | some (.returns hasStatus) => return .leaves hasStatus

/-- End what a return leaves. -/
def endReturn : Step Unit := modify fun s =>
  match s.skip with
  | some (.returns _) => { s with skip := none }
  | _ => s

def setLine (line : Nat) : Step Unit := modify fun s => { s with line }

/-- Count a loop while a step is taken. -/
def inLoop (step : Step Nat) : Step Nat := do
  modify fun s => { s with loops := s.loops + 1 }
  let status ← step
  modify fun s => { s with loops := s.loops - 1 }
  return status

/-- Define a function. -/
def define (name : Octets) (body : Command) : Step Unit := modify fun s =>
  { s with
    functions := (name, body) :: s.functions.filter (·.1 != name), located := s.located.filter (·.1 != name) }

/-- Let a word be matched by one of some patterns. -/
def matchesAny (capture : Capture) (t : Octets) : List Word → Step Bool
  | [] => return false
  | w :: ws => do
    if Pattern.isMatch (← Word.pattern capture w) t then return true
    matchesAny capture t ws

/-- The first branch that a text belongs to. -/
def branch? (capture : Capture) (t : Octets) : List (List Word × Option Command) → Step (Option Command)
  | [] => return none
  | (patterns, body) :: rest => do
    if ← matchesAny capture t patterns then return body
    branch? capture t rest

/-- What a variable shows in front of a command: its references are replaced, unless that fails. -/
def front (capture : Capture) (name : String) : Step Octets := do
  let s ← get
  let t := (s.vars.value? name.toList).getD []
  let expanded : Step Octets := do
    match Reader.wholeText (.start (.ofText t) s.aliases [] s.documents) with
    | .ok w _ => Word.document capture w
    | .error e r =>
      setLine r.source.line
      failWith e.message
  match expanded s with
  | .error .error s =>
    set s
    return t
  | .ok t s =>
    set s
    return t
  | .error e s =>
    set s
    throw e

/-- Show a command before it is run, on a descriptor as it was before redirections. -/
def trace (capture : Capture) (errors : Option Nat) (words : List Octets) : Step Unit := do
  let s ← get
  if s.isOn .xtrace && !s.tracing then
    modify fun s => { s with tracing := true }
    let t := (← front capture "PS4") ++ [' '].intercalate words ++ ['\n']
    modify fun s => { s with tracing := false }
    if let some file := errors then
      modify fun s => { s with world := (s.world.write file t).2 }

/-- Ask for a command, or for another line of it, if somebody is to be asked. -/
def ask (capture : Capture) (input : Input) (name : String) : Step Unit := do
  if input.patience ≠ 0 && (← get).isOn .interactive then
    let _ ← writeTo 2 (← front capture name)

/-- Print what a command of the shell has printed; a problem with that is one of the command. -/
def finishPrinting (status : Nat) : Step Unit := do
  if ← flush then setStatus status
  else
    complain ((← get).command.getD [] ++ ": I/O error".toList)
    setStatus (status ||| 1)

/-- The path of a file with commands, which is looked for in the search path. -/
def commandFile (name : Octets) : Step Octets := do
  if name.contains '/' then return name
  let s ← get
  match (SearchPath.candidates (Lookup.searchPath s) name).find? fun (_, path) => s.world.isFile s.cwd path with
  | some (_, path) => return path
  | none => fail (name ++ ": not found".toList)

end Step

/-- What a pipe can hold until it is read. -/
def pipeSize : Nat := 65536

/-- Whether a writer was stopped at a pipe whose reader then wanted more. -/
def World.isStarved (w : World) (pipe : Nat) : Bool := w.pipes[pipe]?.any fun p => p.stopped && p.drained

open Step

variable (execute : Execute)

mutual

/-- Run the commands of an input one after the other. -/
def runLines : Nat → Outlook → Input → (status : Nat) → Step Nat
  | 0, _, _, status => return status
  | fuel + 1, o, input, status => do
    ask (capture fuel) input "PS1"
    let (line, after) ← input.line manySteps
    -- each further line that the command takes is asked for
    ((input.passed after.source).filter (· == '\n')).tail.forM fun _ => ask (capture fuel) input "PS2"
    let input := after
    match line with
    | .finish =>
      match input.patience with
      | 0 => return status
      | n + 1 =>
        if (← get).isOn .ignoreeof then
          let _ ← writeTo 2 "\nUse \"exit\" to leave shell.\n".toList
          runLines fuel o { input with patience := n } status
        else
          if (← get).isOn .interactive then
            let _ ← writeTo 2 ['\n']
          return status
    | .command c isLast =>
      let status ← match c with
        | none => do
          answerSignals fuel
          pure status
        | some c => do
          let busy := (← get).busy
          -- aliases that are in use here stay so in texts that the command runs
          modify fun s => { s with busy := input.source.inUse ++ busy }
          let status ← runCommand fuel { o with exits := o.exits && isLast } c
          modify fun s => { s with busy }
          pure status
      if (← get).skip.isSome then return status
      runLines fuel o input status

/-- Run the commands of an input within those of another one. -/
def runInput : Nat → Outlook → Input → Step Nat
  | 0, _, _ => return 0
  | fuel + 1, o, input => do
    let s ← get
    thenAlways (runLines fuel o input 0) (modify fun t => { t with readLine := s.readLine, busy := s.busy })

/-- Run a text. -/
def runText : Nat → Outlook → Octets → Step Nat
  | 0, _, _ => return 0
  | fuel + 1, o, t => runInput fuel o (.ofText t)

/-- Run what is to be run on the signals that have arrived. -/
def answerSignals : Nat → Step Unit
  | 0 => return
  | fuel + 1 => do
    let s ← get
    if s.alerted then
      let status := s.saved.getD s.status
      -- each action starts from the status that the signals have come upon
      set { s with alerted := false, saved := some status }
      (List.range' 1 Signal.limit).forM (answerSignal fuel status)
      modify fun t => { t with saved := s.saved }

/-- Run what is to be run on a signal if it has arrived. -/
def answerSignal : Nat → (status signal : Nat) → Step Unit
  | 0, _, _ => return
  | fuel + 1, status, signal => do
    let s ← get
    if s.pending.contains signal then
      -- on the way out of a loop or a function, a signal has to wait
      if s.skip.isSome then set { s with alerted := true }
      else
        set { s with pending := s.pending.filter (· != signal) }
        if let some (_, action) := s.traps.find? (·.1 == signal) then
          let _ ← runText fuel .plain action
          if (← get).skip ≠ some (.returns true) then setStatus status

/-- Run a command and answer with its status. -/
def runCommand : Nat → Outlook → Command → Step Nat
  | 0, _, _ => return 0
  | fuel + 1, o, c => do
    let isChecked ← if (← get).isOn .noexec then pure false else do
      answerSignals fuel
      runKind fuel o c
    answerSignals fuel
    let s ← get
    if isChecked && !o.tested && s.status ≠ 0 && s.isOn .errexit then throw (.exit false)
    if o.exits then throw (.exit false)
    return s.status

/-- Run a command of any kind; whether its failure may end the script. -/
def runKind : Nat → Outlook → Command → Step Bool
  | 0, _, _ => return false
  | fuel + 1, o, c => do
    match c with
    | .simple line assignments words redirections =>
      setStatus (← runSimple fuel o line assignments words redirections)
      return true
    | .pipeline commands background =>
      setStatus (← runPipeline fuel o commands background)
      return true
    | .redirected line body redirections => do
      setLine line
      let redirects ← redirections.mapM (Redirect.prepare (capture fuel))
      let kept := Redirect.keep (← get) redirects
      let status ← thenAlways (do
        if ← Redirect.guarded (capture fuel) redirects then
          return some (← runCommand fuel o.within body)
        return none) (Redirect.putBack kept)
      setStatus (status.getD 2)
      return status.isNone
    | .background line body redirections =>
      setLine line
      let redirects ← redirections.mapM (Redirect.prepare (capture fuel))
      let processes ← takeProcesses 1
      let s ← get
      putInBackground processes fun world =>
        let (end_, world) := runChild fuel ({ s with world }.copied (processes.headD 0)) (·.inBackground true)
          (runRedirected fuel ⟨false, true⟩ redirects body)
        ([end_], world)
      setStatus 0
      return true
    | .subshell line body redirections =>
      setLine line
      let redirects ← redirections.mapM (Redirect.prepare (capture fuel))
      let run : Step Unit := runRedirected fuel { o with exits := true } redirects body
      let s ← get
      -- a shell that ends with this command needs no copy of itself
      if o.exits && !s.hasTraps then
        set { s with traps := s.traps.filter (·.2.isEmpty) }
        run
      else setStatus (← fork fuel run)
      return true
    | .negation body =>
      let status ← runCommand fuel .test body
      -- a command that leaves a loop or a function keeps its status
      setStatus (if (← get).skip.isSome then status else if status = 0 then 1 else 0)
      return false
    | .join junction first second =>
      let status ← runCommand fuel ⟨o.tested || junction ≠ .sequence, false⟩ first
      let isDecided := match junction with
        | .both => status ≠ 0
        | .either => status = 0
        | .sequence => false
      if !isDecided && (← get).skip.isNone then setStatus (← runCommand fuel o second)
      return false
    | .condition test yes no =>
      let status ← runCommand fuel .test test
      if (← get).skip.isNone then
        match if status = 0 then some yes else no with
        | some c => setStatus (← runCommand fuel o c)
        | none => setStatus 0
      return false
    | .loop inverted test body =>
      setStatus (← inLoop (runLoop fuel o.within inverted test body 0 0))
      return false
    | .each line name words body =>
      setLine line
      let fields ← words.mapM (Word.fields (capture fuel))
      setStatus (← inLoop (runEach fuel o.within name body fields.flatten 0))
      return false
    | .cases line word branches =>
      setLine line
      let t ← Word.joined (capture fuel) word
      match ← branch? (capture fuel) t branches with
      | some c => setStatus (← runCommand fuel o c)
      | none => setStatus 0
      return false
    | .function _ name body =>
      define name body
      setStatus 0
      return false

/-- Run the rounds of a loop. -/
def runLoop : Nat → Outlook → (inverted : Bool) → (test body : Command) → (rounds status : Nat) → Step Nat
  | 0, _, _, _, _, _, status => return status
  | fuel + 1, o, inverted, test, body, rounds, status => do
    -- a loop that waits for a job would go on for ever if the job never ran
    if rounds % patientRounds = patientRounds - 1 then settleJobs
    let tested ← runCommand fuel .test test
    match ← round with
    | .leaves withStatus => return if withStatus then tested else status
    | .next => runLoop fuel o inverted test body (rounds + 1) status
    | .goesOn =>
      if (tested = 0) = inverted then return status
      let status ← runCommand fuel o body
      match ← round with
      | .leaves _ => return status
      | _ => runLoop fuel o inverted test body (rounds + 1) status

/-- Run a body once for each word. -/
def runEach : Nat → Outlook → (name : Octets) → (body : Command) → List Octets → (status : Nat) → Step Nat
  | 0, _, _, _, _, status => return status
  | _, _, _, _, [], status => return status
  | fuel + 1, o, name, body, w :: ws, _ => do
    assign name (some w) .none
    let status ← runCommand fuel o body
    match ← round with
    | .leaves _ => return status
    | _ => runEach fuel o name body ws status

/-- Run a simple command. What is redirected is put back, unless the command is the one that keeps it.
-/
def runSimple : Nat → Outlook → (line : Nat) → (assignments words : List Word) → List Redirection → Step Nat
  | 0, _, _, _, _, _ => return 0
  | fuel + 1, o, line, assignments, words, redirections => do
    modify fun s => { s with line, captured := 0 }
    let call ← Call.ofWords (capture fuel) words
    let count := (← get).locals.length
    -- in front of a command that is not special, an assignment lasts as long as the command
    let hides := !call.words.isEmpty && !call.special
    if hides then modify fun s => { s with locals := [] :: s.locals }
    let redirects ← redirections.mapM (Redirect.prepare (capture fuel))
    let s ← get
    let kept := Redirect.keep s redirects
    let run : Step Nat := do
      if ← Redirect.guarded (capture fuel) redirects then
        runCall fuel o call hides (s.descriptor? 2) assignments
      else
        setStatus 2
        if call.special then throw .error
        return 2
    match run (← get) with
    | .ok status s =>
      set s
      if !call.isExec then Redirect.putBack kept
      revealTo count
      return status
    | .error e s =>
      set s
      Redirect.putBack kept
      throw e

/-- Run a command whose words have been replaced. -/
def runCall : Nat → Outlook → Call → (hides : Bool) → (errors : Option Nat) → (assignments : List Word) → Step Nat
  | 0, _, _, _, _, _ => return 0
  | fuel + 1, o, call, hides, errors, assignments => do
    let exported : Marks := ⟨true, false, false⟩
    let marks := if call.isExec && 1 < call.words.length then exported else Marks.none
    let assigned ← assignments.mapM fun w => do
      let t ← Word.assigned (capture fuel) w
      if hides then hide t exported
      else
        let (name, value) := assignment t
        assign name value marks
      return t
    trace (capture fuel) errors (assigned ++ call.passed ++ call.words)
    match call.words with
    | [] =>
      let status := (← get).captured
      setStatus status
      return status
    | name :: args =>
      match ← (if call.ofShell then pure .ofShell else Lookup.find call.functions true call.otherPath name) with
      | .unknown e =>
        complain (name ++ ": ".toList ++ Purpose.running.reason e)
        setStatus 127
        return 127
      | .program directory =>
        let paths ← programPaths call.otherPath name (directory.getD 0)
        -- the last command of a shell takes its place
        if o.exits && !(← get).hasTraps then becomeProgram execute paths (name :: args)
        else setStatus (← fork fuel (becomeProgram execute paths (name :: args)))
      | .function body => runFunction fuel o body args
      | .ofShell =>
        match runBuiltin fuel o name args (← get) with
        | .ok _ s => set s
        | .error e s =>
          set s
          if e ≠ .error || call.special then throw e
      return (← get).status

/-- Call a function. -/
def runFunction : Nat → Outlook → (body : Command) → (args : List Octets) → Step Unit
  | 0, _, _, _ => return
  | fuel + 1, o, body, args => do
    let s ← get
    modify fun t => { t with depth := t.depth + 1 }
    if maxCalls ≤ s.depth then
      fail ("Maximum function recursion depth (".toList ++ Octets.ofNat maxCalls ++ ") reached".toList)
    -- the loops around a call cannot be left from within the function
    modify fun t => { t with args, loops := 0, vars := { t.vars with position := .start } }
    thenAlways (do
        let _ ← runCommand fuel o.within body)
      (do
        modify fun t =>
          { t with
            args := s.args, loops := s.loops, depth := t.depth - 1,
            vars := { t.vars with position := s.vars.position } }
        endReturn)

/-- Carry out a command of the shell. -/
def runBuiltin : Nat → Outlook → (name : Octets) → (args : List Octets) → Step Unit
  | 0, _, _, _ => return
  | fuel + 1, o, name, args => do
    let outer := (← get).command
    modify fun s => { s with command := some name, printed := [] }
    let run : Step Nat :=
      if name = "eval".toList then
        if args.isEmpty then return 0 else runText fuel o.within ([' '].intercalate args)
      else if name = ['.'] then runFile fuel args
      else if name = "exec".toList then runExec fuel args
      else
        match Builtin.action? name with
        | some action => action args
        | none => return 0
    match run (← get) with
    | .ok status s =>
      set s
      finishPrinting status
      modify fun s => { s with command := outer }
    | .error e s =>
      set s
      if e = .error then
        let _ ← flush
      modify fun s => { s with command := outer, printed := [] }
      throw e

/-- Run a file as commands of the script. -/
def runFile : Nat → (args : List Octets) → Step Nat
  | 0, _ => return 0
  | fuel + 1, args => do
    match ← Builtin.withoutOptions args with
    | [] => return 0
    | name :: _ =>
      let path ← commandFile name
      let number ← Redirect.openFile .read path
      modify fun s => { s with command := some path }
      let status ← runInput fuel .plain (.ofFile number 0)
      endReturn
      return status

/-- Let a program take the place of the shell, or do nothing but keep redirections. -/
def runExec : Nat → (args : List Octets) → Step Nat
  | 0, _ => return 0
  | _ + 1, args => do
    if let name :: _ := args then
      setSwitches ((← get).switches.filter fun s => s != .interactive && s != .monitor)
      becomeProgram execute (← programPaths none name 0) args
    return 0

/-- Run commands with redirections, in a process that ends with them. -/
def runRedirected : Nat → Outlook → List Redirect → (body : Command) → Step Unit
  | 0, _, _, _ => return
  | fuel + 1, o, redirects, body => do
    redirects.forM (Redirect.follow (capture fuel) false)
    let _ ← runCommand fuel o body

/-- Run a step as a process, to the end of what it has put in the background. -/
def runChild : Nat → Shell → (setUp : Shell → Shell) → Step Unit → WaitStatus × World
  | 0, s, _, _ => (.exited 0, s.world)
  | fuel + 1, s, setUp, step =>
    match (receiveAll *> step) (setUp s) with
    | .ok _ s => endShell fuel s none
    | .error e s => endShell fuel s (some e)

/-- End a shell: run what is to be run at its end, and what it has put in the background. -/
def endShell : Nat → Shell → Option Ending → WaitStatus × World
  | 0, s, _ => (.exited s.status, s.world)
  | fuel + 1, s, e =>
    let leave (s : Shell) (end_ : WaitStatus) : WaitStatus × World :=
      (end_, s.unfinished.foldl (fun world j => (j.run world).2) s.world)
    match e with
    | some (.signaled n) => leave s (.signaled n)
    | some (.replaced end_) => leave s end_
    | some .error | some (.exit _) | none =>
      let s := s.settled (e = some (.exit true))
      match s.traps.find? (·.1 == 0) with
      | none => leave s (.exited s.status)
      | some (_, action) =>
        -- the action is taken off first, as it may end the shell itself
        let s := { s with saved := some s.status, traps := s.traps.filter (·.1 != 0) }
        match runText fuel .plain action s with
        | .ok _ s =>
          let s := { s with skip := some (.returns false) }.settled false
          leave s (.exited s.status)
        | .error (.signaled n) s => leave s (.signaled n)
        | .error (.replaced end_) s => leave s end_
        | .error e s =>
          let s := s.settled (e = .exit true)
          leave s (.exited s.status)

/-- Run a step as a process of its own, wait for its end, and answer with its status. -/
def fork : Nat → Step Unit → Step Nat
  | 0, _ => return 0
  | fuel + 1, step => do
    let _ ← takeJobNumber
    let processes ← takeProcesses 1
    let s ← get
    let (end_, world) := runChild fuel (s.copied (processes.headD 0)) id step
    noteEnds processes [end_] world

/-- Run a command, and take what it prints, without line ends behind it. -/
def capture : Nat → Capture
  | 0, _ => return []
  | _ + 1, none => return []
  | fuel + 1, some c => do
    let _ ← takeJobNumber
    let processes ← takeProcesses 1
    let s ← get
    let (reading, writing, world) := s.world.newPipe none
    let child := ({ s with world }.copied (processes.headD 0)).lead 1 (some writing)
    let (end_, world) := runChild fuel child id (do
      let _ ← runCommand fuel ⟨false, true⟩ c)
    let printed := (world.unread reading).toOption.getD []
    let captured ← noteEnds processes [end_] (world.advance reading printed.length false)
    modify fun s => { s with captured }
    return ((printed.filter (· != '\x00')).reverse.dropWhile (· == '\n')).reverse

/-- Run a pipeline, or put it in the background. -/
def runPipeline : Nat → Outlook → List Command → (background : Bool) → Step Nat
  | 0, _, _, _ => return 0
  | fuel + 1, o, commands, background => do
    let o := { o with exits := true }
    if !background then
      let _ ← takeJobNumber
    let processes ← takeProcesses commands.length
    let s ← get
    let stages := processes.zip commands
    if background then
      putInBackground processes fun world => runStages fuel o true pipeSize stages { s with world }
      return 0
    else
      let (ends, world) := runStages fuel o false pipeSize stages s
      noteEnds processes ends world

/-- Run the commands of a pipeline from the first one on. If a reader wants more than its pipe could
hold, the commands are run again with greater pipes. -/
def runStages : Nat → Outlook → (background : Bool) → (size : Nat) → List (Nat × Command) → Shell →
    List WaitStatus × World
  | 0, _, _, _, _, s => ([], s.world)
  | fuel + 1, o, background, size, stages, s =>
    let (ends, pipes, world) := runStagesFrom fuel o background size none true stages s
    if pipes.any world.isStarved then runStages fuel o background (size * 16) stages s else (ends, world)

/-- Run the commands of a pipeline, of which the first one reads from a file. The numbers of the pipes
between them come too. -/
def runStagesFrom : Nat → Outlook → (background : Bool) → (size : Nat) → (input : Option Nat) → (first : Bool) →
    List (Nat × Command) → Shell → List WaitStatus × List Nat × World
  | 0, _, _, _, _, _, _, s => ([], [], s.world)
  | _, _, _, _, _, _, [], s => ([], [], s.world)
  | fuel + 1, o, background, size, input, first, (process, c) :: rest, s =>
    let setUp : Shell → Shell := if background then (·.inBackground first) else id
    let run : Step Unit := do
      let _ ← runCommand fuel o c
    let start (s : Shell) : Shell :=
      match input with
      | some _ => s.lead 0 input
      | none => s
    if rest.isEmpty then
      let (end_, world) := runChild fuel (s.copied process) (fun s => start (setUp s)) run
      ([end_], [], world)
    else
      let pipe := s.world.pipes.size
      let (reading, writing, world) := s.world.newPipe (some size)
      let (end_, world) := runChild fuel ({ s with world }.copied process)
        (fun s => (start (setUp s)).lead 1 (some writing)) run
      let (ends, pipes, world) :=
        runStagesFrom fuel o background size (some reading) false rest { s with world }
      (end_ :: ends, pipe :: pipes, world)

end
end Caretaker.Script

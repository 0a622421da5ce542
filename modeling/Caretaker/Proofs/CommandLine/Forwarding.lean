import Caretaker.CommandLine.Run
import Caretaker.Proofs.Dispatch.Conduct

/-!
# Arguments that are forwarded

What stands behind a command on a command line is not looked at: it becomes the arguments of the
request, and whatever program the route of the request leads to receives them in the same order.
Only a double dash right behind a command that is known by its name does not arrive.
-/

namespace Caretaker

variable {children : Children} {m : Machine} {l : Layout} {flags : SkipFlags} {request : Request}

/-! ## From a request to its target -/

/-- The arguments that a request hands on to the program for it. -/
def Request.arguments : Request → List Text
  | check args | force args | run _ args => args
  | task argv => argv
  | default | help | tasks | taskList => []

lemma Route.eq_of_ofGate {label : Text} {script : Invocation} {plan : Plan}
    (h : Route.delegate plan = ofGate flags label script) : plan = ⟨none, script⟩ := by
  unfold ofGate at h
  split at h
  · exact Route.delegate.inj h
  · cases h

/-- The target of a plan gets the arguments of the request, and the check in front of it none. -/
lemma Request.LeadsTo.arguments_eq {plan : Plan} (h : request.LeadsTo l flags (.delegate plan)) :
    plan.target.args = request.arguments ∧
      ∀ check, plan.preCheck = some check → check.args = [] := by
  cases request with
  | help => cases h
  | tasks => cases h
  | taskList => cases h
  | run name args =>
    obtain ⟨script, -, h⟩ := h
    obtain rfl := Route.delegate.inj h
    -- only a script that is run by its name may have a check in front
    refine ⟨rfl, fun check hcheck => ?_⟩
    dsimp only at hcheck
    split_ifs at hcheck
    rw [← Option.some.inj hcheck]
  | _ =>
    obtain rfl := Route.eq_of_ofGate h
    exact ⟨rfl, nofun⟩

/-- Attempts to start children that are none at all, or those of a plan whose target gets the given
arguments. -/
def Delivers (args : List Text) (attempts : List Attempt) : Prop :=
  attempts = [] ∨ ∃ (plan : Plan) (added : Bindings), plan.Followed added attempts ∧
    plan.target.args = args ∧ ∀ check : Invocation, plan.preCheck = some check → check.args = []

/-- What a dispatch starts is delivered the arguments of the request. -/
lemma Layout.delivers_dispatch (theme : Theme) :
    Delivers request.arguments (m.attempts children (l.dispatch flags theme request)) := by
  rcases l.attempts_dispatch_eq_nil_or with hnil | ⟨plan, added, hresolved, -, hattempts⟩
  · exact Or.inl hnil
  · have hargs := (Route.leadsTo_of_resolve hresolved).arguments_eq
    rw [hattempts]
    exact Or.inr ⟨plan, added, plan.followed_execute children _ added, hargs⟩

namespace CommandLine

/-! ## From words to a request -/

/-- What a command line asks for, in an environment. -/
def requestOf (process : Bindings) (args : List Text) : Except UsageFault Request :=
  (parse process args).map fun line => Command.request line.command

/-- The words that name a command. -/
def commandNames : List Text :=
  ["force", "check", "help", "tasks", "task-list", "run"].map String.toList

lemma reader?_of_not_mem {word : Text} (h : word ∉ commandNames) : reader? word = none := by
  simp only [commandNames, List.map_cons, List.map_nil, List.mem_cons, List.not_mem_nil, or_false,
    not_or] at h
  obtain ⟨hforce, hcheck, hhelp, htasks, hlist, hrun⟩ := h
  rw [reader?, if_neg hforce, if_neg hcheck, if_neg hhelp, if_neg htasks, if_neg hlist, if_neg hrun]

/-- Nothing is dropped unless a double dash stands in front. -/
lemma dropDashes_eq_self_iff (rest : List Text) :
    dropDashes rest = rest ↔ rest.head? ≠ some ['-', '-'] := by
  fun_cases dropDashes rest with
  | case1 rest => simp
  | case2 rest h =>
    refine iff_of_true rfl fun hhead => ?_
    obtain ⟨behind, rfl⟩ := List.head?_eq_some_iff.mp hhead
    exact h behind rfl

section
variable {process : Bindings} {word name : Text} {rest args : List Text} {command : Command}

/-- A known command is read by its own reader, whatever stands behind it. -/
theorem readWords_of_reader {read : List Text → Except UsageFault Command}
    (hreader : reader? word = some read) (hread : read rest = .ok command) :
    readWords (word :: rest) .none = .ok (.none, some command) := by
  have hnext : (if Options.none.awaitsRoot then none else reader? word) = some read := hreader
  unfold readWords
  rw [hnext]
  dsimp only
  rw [hread]
  rfl

/-- Another word that is no option is a task, together with all that stands behind it. -/
lemma readWords_of_task (hreader : reader? word = none) (hdash : word.head? ≠ some '-') :
    readWords (word :: rest) .none = .ok (.none, some (.task (word :: rest))) := by
  have hnext : (if Options.none.awaitsRoot then none else reader? word) = none := hreader
  unfold readWords
  rw [hnext]
  dsimp only
  -- each of the other cases is that of a word with a dash in front
  split
  · exact absurd rfl hdash
  · exact absurd rfl hdash
  · exact absurd rfl hdash
  · rfl

/-- What follows the name of a script is forwarded, but for a double dash in front. -/
lemma readRun_of_name (hdash : name.head? ≠ some '-') :
    readRun (name :: rest) = .ok (.run name (dropDashes rest)) := by
  have hlooks : looksLikeOption name = false := by
    unfold looksLikeOption
    split
    · exact absurd rfl hdash
    · rfl
  have hdashes : name ≠ ['-', '-'] := by
    rintro rfl
    exact hdash rfl
  rw [readRun, hlooks, if_neg Bool.false_ne_true]
  · exact fun heq _ => hdashes heq
  · exact fun _ _ heq _ => hdashes heq

/-- Where no option gives a root, and the environment does not either, only the command counts. -/
lemma requestOf_of_readWords {request : Request}
    (hroot : process.processValue? "UPKEEP_ROOT".toList = none)
    (h : readWords args .none = .ok (.none, some command))
    (hrequest : Command.request (some command) = request) :
    requestOf process args = .ok request := by
  rw [requestOf, parse, h, hroot]
  exact congrArg Except.ok hrequest

end

/-! ## From words to children -/

section
variable {line : CommandLine} {args : List Text}

lemma only_print (theme : Theme) (shown : Line) : (shown.print theme).Only (¬ ·.starts) :=
  Program.only_perform Bool.false_ne_true

lemma only_report (theme : Theme) (result : Except Fault Answer) :
    (report theme result).Only (¬ ·.starts) := by
  rcases result with fault | ⟨outcome, lines⟩
  · exact (only_print theme _).bind fun _ => trivial
  · exact (Program.only_mapM (only_print theme)).bind fun _ => trivial

lemma only_ofProcess : Theme.ofProcess.Only (¬ ·.starts) :=
  ⟨Bool.false_ne_true, fun _ => ⟨Bool.false_ne_true, fun _ => trivial⟩⟩

lemma looks_loadSettings (root : Path) : Action.Only (·.looks) (Settings.load root) := by
  refine (Action.looks_ask rfl).bind fun found => ?_
  split
  · refine ((Action.looks_ask rfl).bind (Action.only_orFault .io)).bind fun content => ?_
    rcases Settings.parse (Settings.file root) content with fault | settings
    · exact Action.only_throw fault
    · exact Action.only_pure settings
  · exact Action.only_pure _

lemma looks_loadLayout (root : Path) : Action.Only (·.looks) (Layout.load root) := by
  refine (Action.looks_ask rfl).bind fun found => ?_
  split
  · refine ((Action.looks_ask rfl).bind (Action.only_orFault .io)).bind fun root => ?_
    exact (looks_loadSettings root).bind fun settings => Action.only_pure _
  · exact Action.only_throw _

lemma looks_prepare (line : CommandLine) : Action.Only (·.looks) line.prepare := by
  refine Action.Only.bind (Action.only_lift ?_) fun found => ?_
  · unfold resolveRoot
    split
    · trivial
    · exact ⟨rfl, fun _ => trivial⟩
  · refine (looks_loadLayout found.1).bind fun layout => ?_
    have hflags : SkipFlags.ofProcess.Only (·.looks) := ⟨rfl, fun _ => trivial⟩
    exact (Action.only_lift hflags).bind fun flags => Action.only_pure _

/-- What carrying out a command line starts is what the dispatch of its request starts. -/
lemma delivers_carryOut (line : CommandLine) (theme : Theme) :
    Delivers (Command.request line.command).arguments
      (m.attempts children (line.dispatch theme)) := by
  rw [dispatch, m.attempts_bind_of_looks children line.looks_prepare]
  rcases (m.runAction children line.prepare).1 with fault | ⟨l, flags⟩
  · exact Or.inl rfl
  · exact l.delivers_dispatch theme

/-- Carry out a command line and show what became of it. -/
def present (process : Bindings) (line : CommandLine) : Program Nat := do
  let theme ← Theme.ofProcess
  match line.command with
  | some (.help _) => printHelp process .lenient
  | _ => report theme (← (line.dispatch theme).run)

/-- What a command line starts is delivered the arguments of its request. -/
lemma delivers_present (process : Bindings) (line : CommandLine) :
    Delivers (Command.request line.command).arguments
      (m.attemptsOf children (line.present process)) := by
  rw [present, Machine.attemptsOf_bind, Machine.attemptsOf_of_only _ _ only_ofProcess,
    List.nil_append]
  generalize (m.run children Theme.ofProcess).1 = theme
  generalize (m.run children Theme.ofProcess).2 = m
  have hhelp : m.attemptsOf children (printHelp process .lenient) = [] :=
    m.attemptsOf_of_only children ⟨Bool.false_ne_true, fun _ => trivial⟩
  have hshown : m.attemptsOf children ((line.dispatch theme).run >>= report theme) =
      m.attempts children (line.dispatch theme) := by
    rw [Machine.attemptsOf_bind, Machine.attemptsOf_of_only _ _ (only_report theme _),
      List.append_nil]
    rfl
  split
  · exact Or.inl hhelp
  · rw [hshown]
    exact delivers_carryOut line theme

/-- Whatever a machine is like, the children that a command line starts on it are those of a plan
whose target gets the arguments of its request. -/
theorem delivers_run (hparse : parse m.bindings args = .ok line) :
    Delivers (Command.request line.command).arguments (m.attemptsOf children (run args)) := by
  have hanswer : (Machine.answer children .bindings m).1 = m.bindings := rfl
  rw [run, Program.perform_bind, Machine.attemptsOf, hanswer, hparse]
  dsimp only
  split
  · exact line.delivers_present m.bindings
  · exact line.delivers_present m.bindings

/-! ## The whole way -/

/-- The command line asks for the request, and whatever is started for it gets its arguments. -/
structure Reaches (children : Children) (m : Machine) (args : List Text) (request : Request) :
    Prop where
  asked : requestOf m.bindings args = .ok request
  /-- A route that delegates has the arguments for its target, wherever it is looked for, -/
  routed : ∀ (l : Layout) (flags : SkipFlags) (m' : Machine) (plan : Plan),
    (m'.runAction children (Route.resolve l flags request)).1 = .ok (.delegate plan) →
      plan.target.args = request.arguments
  /-- and so have the children that the command line starts. -/
  started : Delivers request.arguments (m.attemptsOf children (run args))

/-- Where no option gives a root, and the environment does not either, a command line reaches the
programs for its command. -/
lemma Reaches.of_readWords {command : Command}
    (hroot : m.bindings.processValue? "UPKEEP_ROOT".toList = none)
    (h : readWords args .none = .ok (.none, some command))
    (hrequest : Command.request (some command) = request) : Reaches children m args request where
  asked := requestOf_of_readWords hroot h hrequest
  routed _ _ _ _ hplan := (Route.leadsTo_of_resolve hplan).arguments_eq.1
  started := by
    have hparse : parse m.bindings args = .ok ⟨none, false, false, some command⟩ := by
      rw [parse, h, hroot]
      rfl
    rw [← hrequest]
    exact delivers_run hparse

/-- What becomes of words that stand behind a command. -/
structure Forwards (children : Children) (m : Machine) (rest : List Text) : Prop where
  check : Reaches children m ("check".toList :: rest) (.check (dropDashes rest))
  force : Reaches children m ("force".toList :: rest) (.force (dropDashes rest))
  run : ∀ name : Text, name.head? ≠ some '-' →
    Reaches children m ("run".toList :: name :: rest) (.run name (dropDashes rest))
  /-- A task gets all the words, its own name among them. -/
  task : ∀ name ∉ commandNames, name.head? ≠ some '-' →
    Reaches children m (name :: rest) (.task (name :: rest))
  help : requestOf m.bindings ("help".toList :: rest) = .ok .help
  tasks : requestOf m.bindings ("tasks".toList :: rest) = .ok .tasks
  taskList : requestOf m.bindings ("task-list".toList :: rest) = .ok .taskList
  /-- Only a double dash in front is lost. -/
  verbatim : dropDashes rest = rest ↔ rest.head? ≠ some ['-', '-']

/-- For all words behind a command, on every machine: they reach the program for the command as they
are, unless a double dash stands in front of them and the command is known by its name. -/
theorem forwards (hroot : m.bindings.processValue? "UPKEEP_ROOT".toList = none)
    (rest : List Text) : Forwards children m rest where
  check := .of_readWords hroot (readWords_of_reader rfl rfl) rfl
  force := .of_readWords hroot (readWords_of_reader rfl rfl) rfl
  run _ hdash := .of_readWords hroot (readWords_of_reader rfl (readRun_of_name hdash)) rfl
  task _ hname hdash :=
    .of_readWords hroot (readWords_of_task (reader?_of_not_mem hname) hdash) rfl
  help := requestOf_of_readWords hroot (readWords_of_reader rfl rfl) rfl
  tasks := requestOf_of_readWords hroot (readWords_of_reader rfl rfl) rfl
  taskList := requestOf_of_readWords hroot (readWords_of_reader rfl rfl) rfl
  verbatim := dropDashes_eq_self_iff rest

/-- A double dash behind the name of a script does not arrive. -/
theorem forwards_double_dash :
    Forwards .succeeding scriptMachine ["--".toList, "-x".toList] ∧
      parse [] ["run".toList, "x.sh".toList, "--".toList, "-x".toList] =
        .ok ⟨none, false, false, some (.run "x.sh".toList ["-x".toList])⟩ ∧
      (scriptMachine.attempts .succeeding
        (dispatch ⟨none, false, false, some (.run "x.sh".toList ["-x".toList])⟩ .plain)).map
          (·.launch.args) = [[], ["-x".toList]] := by
  have hprepare : (scriptMachine.runAction .succeeding
      (prepare ⟨none, false, false, some (.run "x.sh".toList ["-x".toList])⟩)).1 =
        .ok (.ofSettings ⟨"/r".toList⟩ .standard, ⟨false, false⟩) := by cbv
  have hparse : parse [] ["run".toList, "x.sh".toList, "--".toList, "-x".toList] =
      .ok ⟨none, false, false, some (.run "x.sh".toList ["-x".toList])⟩ := by
    rw [parse, readWords_of_reader rfl (readRun_of_name (by decide))]
    rfl
  refine ⟨forwards rfl _, hparse, ?_⟩
  rw [dispatch, Machine.attempts_bind_of_looks _ _ (looks_prepare _), hprepare]
  cbv

end
end CommandLine
end Caretaker

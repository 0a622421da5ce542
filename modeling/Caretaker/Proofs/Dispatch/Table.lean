import Caretaker.Proofs.Dispatch.Looking

/-!
# The table of routes

A request is resolved by asking which scripts are there, one path after the other. The table says
what each request comes to, and which paths have been asked for by then. Resolving a request agrees
with it, whoever answers.
-/

namespace Caretaker

/-! ## Programs whose calls are all answered at once -/

namespace Program

variable {α β : Type} (reply : (c : Call) → c.Reply)

/-- The calls that a program makes if each of them is answered by `reply`, and its result. -/
def transcript : Program α → List Call × α
  | done a => ([], a)
  | call c next => (c :: ((next (reply c)).transcript).1, ((next (reply c)).transcript).2)

lemma transcript_bind (p : Program α) (f : α → Program β) :
    (p >>= f).transcript reply =
      ((p.transcript reply).1 ++ ((f (p.transcript reply).2).transcript reply).1,
        ((f (p.transcript reply).2).transcript reply).2) := by
  induction p with
  | done a => rfl
  | call c next ih =>
    rw [call_bind, transcript, ih]
    rfl

lemma transcript_mapM (f : α → Program β) (l : List α) :
    ((l.mapM f).transcript reply).2 = l.map fun a => ((f a).transcript reply).2 := by
  induction l with
  | nil => rfl
  | cons a l ih =>
    rw [List.mapM_cons, transcript_bind, transcript_bind, List.map_cons, ← ih]
    rfl

end Program

/-- On a machine, a program that only looks gets the same answer to the same call at every time. -/
theorem Machine.run_eq_transcript {α : Type} (children : Children) (m : Machine) {p : Program α}
    (h : p.Only (·.looks)) :
    m.run children p = ((p.transcript fun c => (answer children c m).1).2, m) := by
  induction p with
  | done a => rfl
  | call c next ih =>
    have hanswer : answer children c m = ((answer children c m).1, m) :=
      Prod.ext rfl (answer_of_looks children m h.1)
    rw [m.run_call children next hanswer, ih _ (h.2 _)]
    rfl

namespace Action

variable {α β : Type} (reply : (c : Call) → c.Reply)

/-- The transcript of an action. -/
def transcript (a : Action α) : List Call × Except Fault α := a.run.transcript reply

lemma transcript_pure (x : α) : transcript reply (pure x) = ([], .ok x) := rfl

lemma transcript_lift (p : Program α) : transcript reply (ExceptT.lift p) =
    ((p.transcript reply).1, .ok (p.transcript reply).2) := by
  show Program.transcript reply (p >>= fun x => Program.done (Except.ok x)) = _
  rw [Program.transcript_bind]
  exact Prod.ext (List.append_nil _) rfl

lemma transcript_ask (c : Call) : transcript reply (ask c) = ([c], .ok (reply c)) := rfl

/-- An action in two parts makes the calls of the second part if the first one succeeds. -/
lemma transcript_bind (a : Action α) (f : α → Action β) :
    transcript reply (a >>= f) =
      match transcript reply a with
      | (calls, .ok x) => (calls ++ (transcript reply (f x)).1, (transcript reply (f x)).2)
      | (calls, .error e) => (calls, .error e) := by
  change (a.run >>= _).transcript reply = _
  rw [Program.transcript_bind, transcript]
  rcases a.run.transcript reply with ⟨calls, e | x⟩
  · exact Prod.ext (List.append_nil calls) rfl
  · rfl

end Action

/-! ## The table -/

/-- The requests that come down to one gated script: the name of the script in a fault, and how it
is called. -/
inductive Request.Acts (l : Layout) : Request → Text → Invocation → Prop where
  | default : Acts l .default "check".toList ⟨l.checkScript, []⟩
  | check (args : List Text) : Acts l (.check args) "check".toList ⟨l.checkScript, args⟩
  | force (args : List Text) : Acts l (.force args) "force".toList ⟨l.forceScript, args⟩
  | task (argv : List Text) : Acts l (.task argv) "execute_task".toList ⟨l.taskExecutor, argv⟩

/-- The rows of the table: the request, the paths that have been asked for, and the result. -/
inductive Resolves (l : Layout) (flags : SkipFlags) (isFile : Path → Bool) :
    Request → List Path → Except Fault Route → Prop where
  | help : Resolves l flags isFile .help [] (.ok .help)
  | tasks : Resolves l flags isFile .tasks [] (.ok (.list .human))
  | taskList : Resolves l flags isFile .taskList [] (.ok (.list .machine))
  /-- Whatever the switches are, a missing script is a fault. -/
  | missing {request : Request} {name : Text} {i : Invocation} (hacts : request.Acts l name i)
      (hmissing : ¬ isFile i.program) :
      Resolves l flags isFile request [i.program] (.error (.scriptNotFound name [i.program]))
  | passed {request : Request} {name : Text} {i : Invocation} (hacts : request.Acts l name i)
      (hfile : isFile i.program) (hopen : flags.allowsUpkeep) :
      Resolves l flags isFile request [i.program] (.ok (.delegate ⟨none, i⟩))
  | skipped {request : Request} {name : Text} {i : Invocation} (hacts : request.Acts l name i)
      (hfile : isFile i.program) (hclosed : ¬ flags.allowsUpkeep) :
      Resolves l flags isFile request [i.program] (.ok (.skipped request.label))
  /-- All candidates have been looked at. -/
  | notFound {name : Text} {args : List Text} (hnone : ∀ p ∈ l.candidates name, ¬ isFile p) :
      Resolves l flags isFile (.run name args) (l.candidates name)
        (.error (.scriptNotFound name (l.candidates name)))
  /-- The first candidate that is a file is run. While the gate is closed nothing else is asked. -/
  | unchecked {name : Text} {args : List Text} {before behind : List Path} {p : Path}
      (hcandidates : l.candidates name = before ++ p :: behind)
      (hbefore : ∀ q ∈ before, ¬ isFile q) (hfile : isFile p) (hclosed : ¬ flags.allowsUpkeep) :
      Resolves l flags isFile (.run name args) (before ++ [p]) (.ok (.delegate ⟨none, ⟨p, args⟩⟩))
  /-- While it is open, the script has the check in front of it. -/
  | checked {name : Text} {args : List Text} {before behind asked : List Path} {p : Path}
      {check : Plan} (hcandidates : l.candidates name = before ++ p :: behind)
      (hbefore : ∀ q ∈ before, ¬ isFile q) (hfile : isFile p) (hopen : flags.allowsUpkeep)
      (hcheck : Resolves l flags isFile (.check []) asked (.ok (.delegate check))) :
      Resolves l flags isFile (.run name args) (before ++ p :: asked)
        (.ok (.delegate ⟨some check.target, ⟨p, args⟩⟩))
  | uncheckable {name : Text} {args : List Text} {before behind asked : List Path} {p : Path}
      {f : Fault} (hcandidates : l.candidates name = before ++ p :: behind)
      (hbefore : ∀ q ∈ before, ¬ isFile q) (hfile : isFile p) (hopen : flags.allowsUpkeep)
      (hcheck : Resolves l flags isFile (.check []) asked (.error f)) :
      Resolves l flags isFile (.run name args) (before ++ p :: asked) (.error f)

variable {l : Layout} {flags : SkipFlags} {isFile : Path → Bool} {request : Request}
  {asked asked' : List Path} {result result' : Except Fault Route}

/-! ## What is asked -/

section
variable {reply : (c : Call) → c.Reply}

lemma transcript_findScript (name : Text) : Action.transcript reply (l.findScript name) =
    match (Layout.firstFile? (l.candidates name)).transcript reply with
    | (calls, some p) => (calls, .ok p)
    | (calls, none) => (calls, .error (.scriptNotFound name (l.candidates name))) := by
  rw [Layout.findScript, Action.transcript_bind, Action.transcript_lift]
  rcases (Layout.firstFile? (l.candidates name)).transcript reply with ⟨calls, _ | p⟩
  · exact Prod.ext (List.append_nil _) rfl
  · exact Prod.ext (List.append_nil _) rfl

/-- Where the gate is closed, the check is not looked for. -/
lemma transcript_preCheck_of_closed (hclosed : ¬ flags.allowsUpkeep) :
    Action.transcript reply (Route.preCheck l flags) = ([], .ok none) := by
  rw [Route.preCheck, if_neg hclosed]
  rfl

lemma transcript_run (name : Text) (args : List Text) :
    Action.transcript reply (Route.resolve l flags (.run name args)) =
      match Action.transcript reply (l.findScript name) with
      | (calls, .ok script) =>
        match Action.transcript reply (Route.preCheck l flags) with
        | (more, .ok check) => (calls ++ more, .ok (.delegate ⟨check, ⟨script, args⟩⟩))
        | (more, .error f) => (calls ++ more, .error f)
      | (calls, .error f) => (calls, .error f) := by
  rw [Route.resolve, Action.transcript_bind]
  rcases Action.transcript reply (l.findScript name) with ⟨calls, f | script⟩
  · rfl
  · dsimp only
    rw [Action.transcript_bind]
    -- the check is looked for behind the script, so its questions come behind those for the script
    rcases Action.transcript reply (Route.preCheck l flags) with ⟨more, f | check⟩
    · rfl
    · exact Prod.ext (congrArg (calls ++ ·) (List.append_nil more)) rfl

variable (hreply : ∀ p, reply (.isFile p) = isFile p)
include hreply

lemma transcript_requireFile (name : Text) (path : Path) :
    Action.transcript reply (requireFile name path) =
      ([.isFile path], if isFile path then .ok () else .error (.scriptNotFound name [path])) := by
  rw [requireFile, Action.transcript_bind, Action.transcript_ask]
  dsimp only
  rw [hreply]
  cases isFile path <;> rfl

/-- A gated command asks for its script, and runs it if the gate is open. -/
lemma transcript_gated (name : String) (script : Path) (args : List Text) (label : Text) :
    Action.transcript reply (Route.gated name script args label flags) =
      ([.isFile script],
        if isFile script then
          .ok (if flags.allowsUpkeep then .delegate ⟨none, ⟨script, args⟩⟩ else .skipped label)
        else .error (.scriptNotFound name.toList [script])) := by
  rw [Route.gated, gate, Action.transcript_bind, Action.transcript_bind,
    transcript_requireFile hreply]
  cases isFile script with
  | false => rfl
  | true => cases hopen : flags.allowsUpkeep <;> simp [Action.transcript_pure]

/-- A candidate that is no file leaves the question to the others. -/
lemma transcript_firstFile?_cons (p : Path) (rest : List Path) :
    (Layout.firstFile? (p :: rest)).transcript reply =
      if isFile p then ([.isFile p], some p)
      else (.isFile p :: ((Layout.firstFile? rest).transcript reply).1,
        ((Layout.firstFile? rest).transcript reply).2) := by
  show (Program.call (.isFile p) _).transcript reply = _
  rw [Program.transcript, hreply]
  cases isFile p <;> rfl

/-- The candidates are asked for up to the first that is a file, -/
lemma transcript_firstFile?_of_some {before behind : List Path} {p : Path}
    (hbefore : ∀ q ∈ before, ¬ isFile q) (hfile : isFile p) :
    (Layout.firstFile? (before ++ p :: behind)).transcript reply =
      ((before ++ [p]).map .isFile, some p) := by
  induction before with
  | nil =>
    show (Layout.firstFile? (p :: behind)).transcript reply = _
    rw [transcript_firstFile?_cons hreply, if_pos hfile]
    rfl
  | cons q before ih =>
    have hq := hbefore q (List.mem_cons_self ..)
    have hrest := ih fun r hr => hbefore r (List.mem_cons_of_mem _ hr)
    show (Layout.firstFile? (q :: (before ++ p :: behind))).transcript reply = _
    rw [transcript_firstFile?_cons hreply, if_neg hq, hrest]
    rfl

/-- or all of them. -/
lemma transcript_firstFile?_of_none {paths : List Path} (hnone : ∀ p ∈ paths, ¬ isFile p) :
    (Layout.firstFile? paths).transcript reply = (paths.map .isFile, none) := by
  induction paths with
  | nil => rfl
  | cons p paths ih =>
    have hp := hnone p (List.mem_cons_self ..)
    have hrest := ih fun r hr => hnone r (List.mem_cons_of_mem _ hr)
    rw [transcript_firstFile?_cons hreply, if_neg hp, hrest]
    rfl

/-- The check in front of a script is the target of the check on its own. -/
lemma transcript_preCheck_of_open (hopen : flags.allowsUpkeep) :
    Action.transcript reply (Route.preCheck l flags) =
      match Action.transcript reply (Route.resolve l flags (.check [])) with
      | (calls, .ok (.delegate check)) => (calls, .ok (some check.target))
      | (calls, .ok _) => (calls, .ok none)
      | (calls, .error f) => (calls, .error f) := by
  rw [Route.preCheck, if_pos hopen, Action.transcript_bind, transcript_requireFile hreply,
    Route.resolve, transcript_gated hreply, hopen]
  cases isFile l.checkScript <;> rfl

/-- Resolving a request agrees with each row of the table. -/
theorem Resolves.transcript_eq (h : Resolves l flags isFile request asked result) :
    Action.transcript reply (Route.resolve l flags request) = (asked.map .isFile, result) := by
  induction h with
  | help => rfl
  | tasks => rfl
  | taskList => rfl
  | missing hacts hmissing =>
    cases hacts <;> rw [Route.resolve, transcript_gated hreply, if_neg hmissing] <;> rfl
  | passed hacts hfile hopen =>
    cases hacts <;> rw [Route.resolve, transcript_gated hreply, if_pos hfile, if_pos hopen] <;> rfl
  | skipped hacts hfile hclosed =>
    cases hacts <;>
      rw [Route.resolve, transcript_gated hreply, if_pos hfile, if_neg hclosed] <;> rfl
  | notFound hnone =>
    rw [transcript_run, transcript_findScript, transcript_firstFile?_of_none hreply hnone]
  | unchecked hcandidates hbefore hfile hclosed =>
    rw [transcript_run, transcript_findScript, hcandidates,
      transcript_firstFile?_of_some hreply hbefore hfile, transcript_preCheck_of_closed hclosed]
    exact Prod.ext (List.append_nil _) rfl
  | checked hcandidates hbefore hfile hopen hcheck ih =>
    rw [transcript_run, transcript_findScript, hcandidates,
      transcript_firstFile?_of_some hreply hbefore hfile, transcript_preCheck_of_open hreply hopen,
      ih]
    simp
  | uncheckable hcandidates hbefore hfile hopen hcheck ih =>
    rw [transcript_run, transcript_findScript, hcandidates,
      transcript_firstFile?_of_some hreply hbefore hfile, transcript_preCheck_of_open hreply hopen,
      ih]
    simp

end

/-! ## Rows for all requests -/

/-- An action has a row in the table, -/
theorem Request.Acts.exists_resolves {name : Text} {i : Invocation} (hacts : request.Acts l name i)
    (flags : SkipFlags) (isFile : Path → Bool) :
    ∃ asked result, Resolves l flags isFile request asked result := by
  by_cases hfile : isFile i.program
  · by_cases hopen : flags.allowsUpkeep
    · exact ⟨_, _, .passed hacts hfile hopen⟩
    · exact ⟨_, _, .skipped hacts hfile hopen⟩
  · exact ⟨_, _, .missing hacts hfile⟩

/-- and so has a script, -/
lemma exists_resolves_run (l : Layout) (flags : SkipFlags) (isFile : Path → Bool) (name : Text)
    (args : List Text) : ∃ asked result, Resolves l flags isFile (.run name args) asked result := by
  cases hfind : (l.candidates name).find? isFile with
  | none => exact ⟨_, _, .notFound (List.find?_eq_none.mp hfind)⟩
  | some p =>
    obtain ⟨hfile, before, behind, hcandidates, hnot⟩ := List.find?_eq_some_iff_append.mp hfind
    have hbefore : ∀ q ∈ before, ¬ isFile q := fun q hq => by simpa using hnot q hq
    by_cases hopen : flags.allowsUpkeep
    · -- the check has the row of its own script
      by_cases hcheck : isFile l.checkScript
      · exact ⟨_, _, .checked hcandidates hbefore hfile hopen (.passed (.check []) hcheck hopen)⟩
      · exact ⟨_, _, .uncheckable hcandidates hbefore hfile hopen (.missing (.check []) hcheck)⟩
    · exact ⟨_, _, .unchecked hcandidates hbefore hfile hopen⟩

/-- and any request at all. -/
theorem exists_resolves (l : Layout) (flags : SkipFlags) (isFile : Path → Bool)
    (request : Request) : ∃ asked result, Resolves l flags isFile request asked result := by
  cases request with
  | default => exact Request.Acts.default.exists_resolves flags isFile
  | help => exact ⟨_, _, .help⟩
  | check args => exact (Request.Acts.check args).exists_resolves flags isFile
  | force args => exact (Request.Acts.force args).exists_resolves flags isFile
  | tasks => exact ⟨_, _, .tasks⟩
  | taskList => exact ⟨_, _, .taskList⟩
  | run name args => exact exists_resolves_run l flags isFile name args
  | task argv => exact (Request.Acts.task argv).exists_resolves flags isFile

/-- Whether a script is run is never a matter of the gate. -/
lemma Resolves.ne_skipped {name : Text} {args : List Text}
    (h : Resolves l flags isFile (.run name args) asked result) (command : Text) :
    result ≠ .ok (.skipped command) := by
  cases h with
  | skipped hacts => cases hacts
  | missing hacts => cases hacts
  | passed hacts => cases hacts
  | _ => exact nofun

/-! ## Resolving is looking up -/

/-- Answers that say which paths lead to files, and otherwise are those of a bare machine. -/
def answersOf (isFile : Path → Bool) : (c : Call) → c.Reply
  | .isFile p => isFile p
  | c => (Machine.answer .absent c (.holding [])).1

/-- A request has one row in the table. -/
theorem Resolves.unique (h : Resolves l flags isFile request asked result)
    (h' : Resolves l flags isFile request asked' result') : asked' = asked ∧ result' = result := by
  have heq : Action.transcript (answersOf isFile) (Route.resolve l flags request) =
      (asked.map .isFile, result) := h.transcript_eq fun _ => rfl
  have heq' : Action.transcript (answersOf isFile) (Route.resolve l flags request) =
      (asked'.map .isFile, result') := h'.transcript_eq fun _ => rfl
  have hboth := Prod.mk.inj (heq'.symm.trans heq)
  have hinjective : Function.Injective Call.isFile := fun p q hpq => Call.isFile.inj hpq
  exact ⟨List.map_injective_iff.mpr hinjective hboth.1, hboth.2⟩

/-- What a request is resolved to where `isFile` says which paths lead to files: its only row in the
table. -/
structure Tabled (l : Layout) (flags : SkipFlags) (isFile : Path → Bool) (request : Request)
    (asked : List Path) (result : Except Fault Route) : Prop where
  row : Resolves l flags isFile request asked result
  unique : ∀ asked' result', Resolves l flags isFile request asked' result' →
    asked' = asked ∧ result' = result
  /-- Whoever answers, nothing but the paths of the row is asked for, and its result is returned. -/
  transcript : ∀ reply : (c : Call) → c.Reply, (∀ p, reply (.isFile p) = isFile p) →
    Action.transcript reply (Route.resolve l flags request) = (asked.map .isFile, result)
  /-- It is returned on every machine with these files, and the machine stays as it is. -/
  run : ∀ (children : Children) (m : Machine), (∀ p, m.files.isFile m.cwd p = isFile p) →
    m.runAction children (Route.resolve l flags request) = (result, m)
  /-- Running a script is never skipped. -/
  script : ∀ name args command, request = .run name args → result ≠ .ok (.skipped command)

/-- Each request is resolved as the table says. -/
theorem exists_tabled (l : Layout) (flags : SkipFlags) (isFile : Path → Bool) (request : Request) :
    ∃ asked result, Tabled l flags isFile request asked result := by
  obtain ⟨asked, result, h⟩ := exists_resolves l flags isFile request
  refine ⟨asked, result, h, fun _ _ => h.unique, fun _ => h.transcript_eq, ?run, ?script⟩
  case run =>
    intro children m hfiles
    have heq : Action.transcript (fun c => (Machine.answer children c m).1)
        (Route.resolve l flags request) = (asked.map .isFile, result) := h.transcript_eq hfiles
    rw [Machine.runAction, m.run_eq_transcript children (Route.only_resolve l flags request)]
    exact Prod.ext (congrArg Prod.snd heq) rfl
  case script =>
    rintro name args command rfl
    exact h.ne_skipped command

end Caretaker

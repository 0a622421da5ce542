import Caretaker.Proofs.Dispatch.Looking
import Caretaker.Proofs.Dispatch.Plan
import Mathlib

/-!
# The conduct of a dispatch

All that dispatching a request does to the world is the repair of the managed link and then the
children of one plan. Whatever goes wrong before the first child keeps all of them from starting.
-/

namespace Caretaker

/-! ## The route of a request -/

/-- The route of a gated script: the script alone while the gate is open, else nothing. -/
def Route.ofGate (flags : SkipFlags) (label : Text) (script : Invocation) : Route :=
  if flags.allowsUpkeep then .delegate ⟨none, script⟩ else .skipped label

/-- The route that a request leads to, once its scripts are found. -/
def Request.LeadsTo (l : Layout) (flags : SkipFlags) (request : Request) (route : Route) : Prop :=
  match request with
  | .help => route = .help
  | .tasks => route = .list .human
  | .taskList => route = .list .machine
  | .default => route = .ofGate flags request.label ⟨l.checkScript, []⟩
  | .check args => route = .ofGate flags request.label ⟨l.checkScript, args⟩
  | .force args => route = .ofGate flags request.label ⟨l.forceScript, args⟩
  | .task argv => route = .ofGate flags request.label ⟨l.taskExecutor, argv⟩
  | .run name args => ∃ script ∈ l.candidates name, route = .delegate
    ⟨if flags.allowsUpkeep then some ⟨l.checkScript, []⟩ else none, ⟨script, args⟩⟩

variable {l : Layout} {m : Machine} {flags : SkipFlags} {children : Children}

lemma Route.eq_ofGate {name : String} {script : Path} {args : List Text} {label : Text}
    {route : Route}
    (h : (m.runAction children (gated name script args label flags)).1 = .ok route) :
    route = .ofGate flags label ⟨script, args⟩ := by
  obtain ⟨opened, hgate, hroute⟩ := Machine.exists_of_runAction_bind h
  obtain ⟨-, -, hopened⟩ := Machine.exists_of_runAction_bind hgate
  obtain rfl : flags.allowsUpkeep = opened := Except.ok.inj hopened
  rw [ofGate]
  cases hallows : flags.allowsUpkeep with
  | false =>
    rw [hallows] at hroute
    exact (Except.ok.inj hroute).symm
  | true =>
    rw [hallows] at hroute
    exact (Except.ok.inj hroute).symm

lemma Layout.mem_of_firstFile? {paths : List Path} {p : Path}
    (h : (m.run children (firstFile? paths)).1 = some p) : p ∈ paths := by
  induction paths with
  | nil => cases h
  | cons q paths ih =>
    have hanswer : Machine.answer children (.isFile q) m = (m.files.isFile m.cwd q, m) := rfl
    rw [firstFile?, Program.perform_bind, m.run_call children _ hanswer] at h
    cases hq : m.files.isFile m.cwd q with
    | false =>
      rw [hq] at h
      exact List.mem_cons_of_mem _ (ih h)
    | true =>
      rw [hq] at h
      rw [Option.some.inj h]
      exact List.mem_cons_self ..

/-- A script that is found is one of the candidates. -/
lemma Layout.mem_candidates_of_findScript {name : Text} {p : Path}
    (h : (m.runAction children (l.findScript name)).1 = .ok p) : p ∈ l.candidates name := by
  obtain ⟨found, hfound, hp⟩ := Machine.exists_of_runAction_bind h
  have hrun : (m.run children (firstFile? (l.candidates name))).1 = found := by
    change (m.run children (firstFile? (l.candidates name) >>= _)).1 = _ at hfound
    rw [Machine.run, Program.run_bind] at hfound
    exact Except.ok.inj hfound
  cases found with
  | none => cases hp
  | some q => exact mem_of_firstFile? (hrun.trans (congrArg some (Except.ok.inj hp)))

/-- A script is checked first exactly if the gate is open. -/
lemma Route.eq_of_preCheck {check : Option Invocation}
    (h : (m.runAction children (preCheck l flags)).1 = .ok check) :
    check = if flags.allowsUpkeep then some ⟨l.checkScript, []⟩ else none := by
  rw [preCheck] at h
  cases hallows : flags.allowsUpkeep with
  | false =>
    rw [hallows] at h
    exact (Except.ok.inj h).symm
  | true =>
    rw [hallows] at h
    obtain ⟨-, -, hcheck⟩ := Machine.exists_of_runAction_bind h
    exact (Except.ok.inj hcheck).symm

/-- A request that resolves comes to a route of its own. -/
lemma Route.leadsTo_of_resolve {request : Request} {route : Route}
    (h : (m.runAction children (resolve l flags request)).1 = .ok route) :
    request.LeadsTo l flags route := by
  cases request with
  | run name args =>
    obtain ⟨script, hscript, hrest⟩ := Machine.exists_of_runAction_bind h
    obtain ⟨check, hcheck, hroute⟩ := Machine.exists_of_runAction_bind hrest
    refine ⟨script, Layout.mem_candidates_of_findScript hscript, ?_⟩
    rw [← eq_of_preCheck hcheck]
    exact (Except.ok.inj hroute).symm
  | help => exact (Except.ok.inj h).symm
  | tasks => exact (Except.ok.inj h).symm
  | taskList => exact (Except.ok.inj h).symm
  | _ => exact eq_ofGate h

/-! ## Phases -/

/-- The repair that a dispatch begins with; help needs none. -/
def Layout.repairFor (l : Layout) (request : Request) : Action Unit := do
  if request ≠ .help then
    let _ ← LinkStatus.ensure l

lemma Layout.dispatch_eq (l : Layout) (flags : SkipFlags) (theme : Theme) (request : Request) :
    l.dispatch flags theme request = l.repairFor request >>= fun _ =>
      Route.resolve l flags request >>= fun route => route.execute l theme := by
  rw [dispatch, repairFor]
  split
  · simp
  · simp

lemma Layout.onFiles_repairFor (l : Layout) (request : Request) :
    Action.Only (·.onFiles) (l.repairFor request) := by
  rw [repairFor]
  split
  · exact (LinkStatus.onFiles_ensure l).bind fun _ => Action.only_pure _
  · exact Action.only_pure _

lemma Layout.only_repairFor (l : Layout) (request : Request) :
    Action.Only (¬ ·.starts) (l.repairFor request) :=
  (l.onFiles_repairFor request).mono fun _ => Call.not_starts_of_onFiles

/-- The run of a dispatch and its attempts, from what its phases come to: the repair of the link
(with the machine that it leaves), the route, and the variables for the children. -/
structure Conduct (l : Layout) (m : Machine) (flags : SkipFlags) (request : Request)
    (repaired : Except Fault Unit × Machine) (resolved : Except Fault Route)
    (prepared : Except Fault Bindings) (attempts : List Attempt)
    (result : Except Fault Answer × Machine) : Prop where
  help : request = .help → attempts = [] ∧ result.2 = m
  unrepaired : ∀ f, repaired.1 = .error f → attempts = [] ∧ result.1 = .error f
  right : request ≠ .help → repaired.1 = .ok () →
    Repair.IsRight (l.sourceOn m) l.environLink repaired.2
  /-- What was repaired is as it was when the first child starts, -/
  first : ∀ a ∈ attempts.head?, a.before = repaired.2
  /-- and in the end, if none does. -/
  still : attempts = [] → result.2 = repaired.2
  unresolved : repaired.1 = .ok () → ∀ f, resolved = .error f →
    attempts = [] ∧ result.1 = .error f
  route : ∀ route, resolved = .ok route → request.LeadsTo l flags route
  idle : ∀ route, resolved = .ok route → (∀ plan, route ≠ .delegate plan) → attempts = []
  unprepared : repaired.1 = .ok () → ∀ plan f, resolved = .ok (.delegate plan) →
    prepared = .error f → attempts = [] ∧ result.1 = .error f
  followed : repaired.1 = .ok () → ∀ plan bindings, resolved = .ok (.delegate plan) →
    prepared = .ok bindings → plan.Followed bindings attempts
  reported : attempts ≠ [] → (∀ a ∈ attempts, ∃ status, a.reply = .ok status) →
    ∃ outcome, result.1 = .ok (outcome, []) ∧ outcome.Reports attempts

variable {request : Request} {theme : Theme} {repaired : Except Fault Unit × Machine}
  {resolved : Except Fault Route} {prepared : Except Fault Bindings}

/-- Whatever is requested but help, the link is right behind the repair. -/
lemma Layout.isRight_of_repairFor (hrequest : request ≠ .help)
    (h : (m.runAction children (l.repairFor request)).1 = .ok ()) :
    Repair.IsRight (l.sourceOn m) l.environLink (m.runAction children (l.repairFor request)).2 := by
  rw [repairFor, if_pos hrequest] at h ⊢
  obtain ⟨status, hstatus, -⟩ := Machine.exists_of_runAction_bind h
  have hright := LinkStatus.isRight_of_ensure children hstatus
  rw [Machine.runAction_bind]
  rcases hrun : m.runAction children (LinkStatus.ensure l) with ⟨e | status', m'⟩
  · rw [hrun] at hstatus
    cases hstatus
  · rw [hrun] at hright
    exact hright

/-! ## From the repair to the plan -/

lemma Layout.runAction_dispatch : m.runAction children (l.dispatch flags theme request) =
    match m.runAction children (l.repairFor request) with
    | (.ok _, m') => m'.runAction children
      (Route.resolve l flags request >>= fun route => route.execute l theme)
    | (.error f, m') => (.error f, m') := by
  rw [dispatch_eq, Machine.runAction_bind]
  rcases m.runAction children (l.repairFor request) with ⟨_ | _, m'⟩ <;> rfl

lemma Layout.attempts_dispatch : m.attempts children (l.dispatch flags theme request) =
    match m.runAction children (l.repairFor request) with
    | (.ok _, m') => m'.attempts children
      (Route.resolve l flags request >>= fun route => route.execute l theme)
    | (.error _, _) => [] := by
  rw [dispatch_eq, Machine.attempts_bind, m.attempts_of_only children (l.only_repairFor request),
    List.nil_append]
  rcases m.runAction children (l.repairFor request) with ⟨_ | _, m'⟩ <;> rfl

lemma Route.runAction_delegate (plan : Plan) :
    m.runAction children ((Route.delegate plan).execute l theme) =
      match (m.runAction children l.childVariables).1 with
      | .ok bindings =>
        match m.runAction children (plan.execute bindings) with
        | (.ok outcome, m') => (.ok (outcome, []), m')
        | (.error f, m') => (.error f, m')
      | .error f => (.error f, m) := by
  rw [execute, m.runAction_bind_of_looks children l.only_childVariables]
  rcases (m.runAction children l.childVariables).1 with f | bindings
  · rfl
  · dsimp only
    rw [Machine.runAction_bind]
    rcases m.runAction children (plan.execute bindings) with ⟨_ | _, m'⟩ <;> rfl

lemma Route.attempts_delegate (plan : Plan) :
    m.attempts children ((Route.delegate plan).execute l theme) =
      match (m.runAction children l.childVariables).1 with
      | .ok bindings => m.attempts children (plan.execute bindings)
      | .error _ => [] := by
  rw [execute, m.attempts_bind_of_looks children l.only_childVariables]
  rcases (m.runAction children l.childVariables).1 with f | bindings
  · rfl
  · dsimp only
    rw [Machine.attempts_bind]
    rcases m.runAction children (plan.execute bindings) with ⟨_ | _, m'⟩ <;>
      exact List.append_nil _

/-- Either a dispatch starts nothing, or its attempts are those of the plan to which its route leads,
with the variables that are prepared for it. -/
theorem Layout.attempts_dispatch_eq_nil_or :
    m.attempts children (l.dispatch flags theme request) = [] ∨
    ∃ plan added,
      ((m.runAction children (l.repairFor request)).2.runAction children
        (Route.resolve l flags request)).1 = .ok (.delegate plan) ∧
      ((m.runAction children (l.repairFor request)).2.runAction children l.childVariables).1 =
        .ok added ∧
      m.attempts children (l.dispatch flags theme request) =
        (m.runAction children (l.repairFor request)).2.attempts children (plan.execute added) := by
  rw [attempts_dispatch]
  generalize m.runAction children (l.repairFor request) = repaired
  -- each phase may end the dispatch, and only a plan at the end of them starts children
  rcases repaired with ⟨f | ⟨⟩, m'⟩
  · exact Or.inl rfl
  dsimp only
  rw [m'.attempts_bind_of_looks children (Route.only_resolve l flags request)]
  generalize (m'.runAction children (Route.resolve l flags request)).1 = resolved
  rcases resolved with f | route
  · exact Or.inl rfl
  dsimp only
  rcases route.delegate_or_looks l theme with ⟨plan, rfl⟩ | hlooks
  · rw [Route.attempts_delegate]
    generalize (m'.runAction children l.childVariables).1 = prepared
    rcases prepared with f | added
    · exact Or.inl rfl
    · exact Or.inr ⟨plan, added, rfl, rfl, rfl⟩
  · exact Or.inl (m'.attempts_of_looks children hlooks)

/-- A dispatch that starts nothing, since it is at its end before that. -/
lemma Conduct.of_silent {result : Except Fault Answer × Machine}
    (hhelp : request = .help → repaired.2 = m)
    (hright : request ≠ .help → repaired.1 = .ok () →
      Repair.IsRight (l.sourceOn m) l.environLink repaired.2)
    (hroute : ∀ route, resolved = .ok route → request.LeadsTo l flags route)
    (hsame : result.2 = repaired.2)
    (hunrepaired : ∀ f, repaired.1 = .error f → result.1 = .error f)
    (hunresolved : repaired.1 = .ok () → ∀ f, resolved = .error f → result.1 = .error f)
    (hunprepared : repaired.1 = .ok () → ∀ plan, resolved = .ok (.delegate plan) →
      ∃ f, prepared = .error f ∧ result.1 = .error f) :
    Conduct l m flags request repaired resolved prepared [] result where
  help h := ⟨rfl, hsame.trans (hhelp h)⟩
  unrepaired f h := ⟨rfl, hunrepaired f h⟩
  right := hright
  first a ha := nomatch ha
  still _ := hsame
  unresolved hok f h := ⟨rfl, hunresolved hok f h⟩
  route := hroute
  idle _ _ _ := rfl
  unprepared hok plan f hplan hf := by
    obtain ⟨f', hf', hresult⟩ := hunprepared hok plan hplan
    exact ⟨rfl, by rw [hresult, ← Except.error.inj (hf'.symm.trans hf)]⟩
  followed hok plan b hplan hb := by
    obtain ⟨f, hf, -⟩ := hunprepared hok plan hplan
    cases hf.symm.trans hb
  reported hne := absurd rfl hne

/-- A dispatch that carries out a plan. -/
lemma Conduct.of_plan (hend : children.End) {m' : Machine} {plan : Plan} {bindings : Bindings}
    (hright : request ≠ .help → (Except.ok () : Except Fault Unit) = .ok () →
      Repair.IsRight (l.sourceOn m) l.environLink m')
    (hroute : ∀ route, (Except.ok (.delegate plan) : Except Fault Route) = .ok route →
      request.LeadsTo l flags route) :
    Conduct l m flags request (.ok (), m') (.ok (.delegate plan)) (.ok bindings)
      (m'.attempts children (plan.execute bindings))
      (match m'.runAction children (plan.execute bindings) with
        | (.ok outcome, m'') => (.ok (outcome, []), m'')
        | (.error f, m'') => (.error f, m'')) := by
  -- a plan comes at least to its first attempt, on the machine that the repair has left
  obtain ⟨a, rest, hattempts, hbefore⟩ := plan.exists_attempts_execute children m' bindings
  exact {
    help := by
      rintro rfl
      cases hroute _ rfl
    unrepaired := fun f hf => nomatch hf
    right := hright
    first := by
      rw [hattempts]
      intro b hb
      rw [← Option.some.inj hb]
      exact hbefore
    still := by
      rw [hattempts]
      exact fun hnil => nomatch hnil
    unresolved := fun _ f hf => nomatch hf
    route := hroute
    idle := fun route hr hidle => absurd (Except.ok.inj hr).symm (hidle plan)
    unprepared := fun _ plan f _ hf => nomatch hf
    followed := by
      intro _ plan' bindings' hplan hbindings
      obtain rfl := Route.delegate.inj (Except.ok.inj hplan)
      obtain rfl := Except.ok.inj hbindings
      exact plan.followed_execute children m' bindings
    reported := by
      intro _ hran
      obtain ⟨outcome, houtcome, hreports⟩ := Plan.exists_reports_execute hend hran
      refine ⟨outcome, ?_, hreports⟩
      rcases hrun : m'.runAction children (plan.execute bindings) with ⟨reply, m''⟩
      rw [hrun] at houtcome
      cases houtcome
      rfl }

/-- Whatever the request, the files and the children, if only the ends of children are told as the
operating system tells them: a dispatch starts the children of its plan after all else is done, and
none if anything fails before. -/
theorem conduct_dispatch (hend : children.End) (l : Layout) (m : Machine) (flags : SkipFlags)
    (theme : Theme) (request : Request) :
    Conduct l m flags request (m.runAction children (l.repairFor request))
      ((m.runAction children (l.repairFor request)).2.runAction children
        (Route.resolve l flags request)).1
      ((m.runAction children (l.repairFor request)).2.runAction children l.childVariables).1
      (m.attempts children (l.dispatch flags theme request))
      (m.runAction children (l.dispatch flags theme request)) := by
  have hright : request ≠ .help → (m.runAction children (l.repairFor request)).1 = .ok () →
      Repair.IsRight (l.sourceOn m) l.environLink (m.runAction children (l.repairFor request)).2 :=
    Layout.isRight_of_repairFor
  have hhelp : request = .help → (m.runAction children (l.repairFor request)).2 = m := by
    rintro rfl
    rfl
  rw [Layout.runAction_dispatch, Layout.attempts_dispatch]
  generalize m.runAction children (l.repairFor request) = repaired at *
  -- each phase may end the dispatch, and only the plan at the end of them starts children
  rcases repaired with ⟨f | ⟨⟩, m'⟩
  · refine .of_silent hhelp hright (fun route => Route.leadsTo_of_resolve) rfl
      (fun f' hf => by rw [← Except.error.inj hf]) (fun hok => nomatch hok) fun hok => nomatch hok
  · have hroute : ∀ route, (m'.runAction children (Route.resolve l flags request)).1 = .ok route →
        request.LeadsTo l flags route := fun route => Route.leadsTo_of_resolve
    dsimp only at hright hhelp ⊢
    rw [m'.runAction_bind_of_looks children (Route.only_resolve l flags request),
      m'.attempts_bind_of_looks children (Route.only_resolve l flags request)]
    generalize (m'.runAction children (Route.resolve l flags request)).1 = resolved at *
    rcases resolved with f | route
    · exact .of_silent hhelp hright hroute rfl (fun f' hf => nomatch hf)
        (fun _ f' hf => by rw [← Except.error.inj hf]) fun _ plan hplan => nomatch hplan
    · dsimp only
      -- a route without a plan only looks
      by_cases hidle : ∀ plan, route ≠ .delegate plan
      · have hlooks := Route.only_execute hidle l theme
        rw [m'.attempts_of_looks children hlooks, m'.runAction_of_looks children hlooks]
        exact .of_silent hhelp hright hroute rfl (fun f' hf => nomatch hf)
          (fun _ f' hf => nomatch hf) fun _ plan hplan => absurd (Except.ok.inj hplan) (hidle plan)
      · obtain ⟨plan, rfl⟩ : ∃ plan, route = .delegate plan := by
          by_contra hnone
          exact hidle fun plan heq => hnone ⟨plan, heq⟩
        rw [Route.attempts_delegate, Route.runAction_delegate]
        generalize (m'.runAction children l.childVariables).1 = prepared
        rcases prepared with f | bindings
        · exact .of_silent hhelp hright hroute rfl (fun f' hf => nomatch hf)
            (fun _ f' hf => nomatch hf) fun _ plan hplan => ⟨f, rfl, rfl⟩
        · exact .of_plan hend hright hroute

/-- Every child exits with a code of zero. -/
def Children.succeeding : Children := fun _ m => (.ok (.exited 0), m)

/-- A machine with a check and one script in its root. -/
def scriptMachine : Machine := .holding
  [([.text "r".toList], .dir), ([.text "r".toList, .text "check.sh".toList], .file [] true),
   ([.text "r".toList, .text "x.sh".toList], .file [] true)]

/-- The layout of its root. -/
def scriptLayout : Layout := .ofSettings ⟨"/r".toList⟩ .standard

/-- The machine once the managed link has been made. -/
def linkedMachine : Machine := { scriptMachine with
  files := scriptMachine.files.put [.text "r".toList, .text "environ.sh".toList]
    (.link "/r/config/environ.sh".toList) }

/-- The plan for running the script. -/
def scriptPlan : Plan where
  preCheck := some ⟨⟨"/r/check.sh".toList⟩, []⟩
  target := ⟨⟨"/r/x.sh".toList⟩, []⟩

/-- Running the script makes the link, plans the check and the script, finds no environ file, and
starts the two of them. -/
theorem conduct_run_script :
    Conduct scriptLayout scriptMachine ⟨false, false⟩ (.run "x.sh".toList [])
      (.ok (), linkedMachine) (.ok (.delegate scriptPlan)) (.ok scriptLayout.exportedVariables)
      (scriptMachine.attempts .succeeding
        (scriptLayout.dispatch ⟨false, false⟩ .plain (.run "x.sh".toList [])))
      (scriptMachine.runAction .succeeding
        (scriptLayout.dispatch ⟨false, false⟩ .plain (.run "x.sh".toList []))) ∧
    (scriptMachine.attempts .succeeding
      (scriptLayout.dispatch ⟨false, false⟩ .plain (.run "x.sh".toList []))).map (·.launch) =
        [⟨⟨⟨"/r/check.sh".toList⟩, []⟩, scriptLayout.exportedVariables⟩,
          ⟨scriptPlan.target, scriptLayout.exportedVariables⟩] := by
  have hend : Children.succeeding.End := by
    intro l m status hstatus
    obtain rfl : WaitStatus.exited 0 = status := Except.ok.inj hstatus
    exact ⟨0, .exited (by decide)⟩
  have hrepaired : scriptMachine.runAction .succeeding
      (scriptLayout.repairFor (.run "x.sh".toList [])) = (.ok (), linkedMachine) := by cbv
  have hresolved : (linkedMachine.runAction .succeeding
      (Route.resolve scriptLayout ⟨false, false⟩ (.run "x.sh".toList []))).1 =
        .ok (.delegate scriptPlan) := by cbv
  have hprepared : (linkedMachine.runAction .succeeding scriptLayout.childVariables).1 =
      .ok scriptLayout.exportedVariables := by cbv
  have hconduct := conduct_dispatch hend scriptLayout scriptMachine ⟨false, false⟩ .plain
    (.run "x.sh".toList [])
  rw [hrepaired] at hconduct
  dsimp only at hconduct
  rw [hresolved, hprepared] at hconduct
  exact ⟨hconduct, by cbv⟩

end Caretaker

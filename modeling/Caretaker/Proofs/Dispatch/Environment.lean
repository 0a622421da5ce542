import Caretaker.Proofs.Dispatch.Conduct
import Caretaker.Proofs.Environ.Handed
import Caretaker.Proofs.ManagedLink.Reading

/-!
# The environment of the children

All children of a dispatch are handed the same variables: the roots, and what the environ file behind
the managed link assigns. What a child finds under a name is what the environ file itself would find
behind its last line.
-/

namespace Caretaker

open FileSystem

/-! ## What is loaded -/

/-- The text of the environ file at a path, which is empty if there is none. -/
def Machine.environText (m : Machine) (path : Path) : Except IoFault Text :=
  if m.files.isFile m.cwd path then m.files.readText m.cwd path else .ok []

variable {children : Children} {m : Machine} {l : Layout} {flags : SkipFlags} {theme : Theme}
  {request : Request} {added : Bindings} {a : Attempt}

/-- What is loaded is parsed from the text at the path. -/
lemma Environ.exists_environText {path : Path} {base vars : Bindings}
    (h : loaded children m base path = .ok vars) :
    ∃ content, m.environText path = .ok content ∧ vars = parse m.bindings base content := by
  rw [loaded_eq] at h
  unfold Machine.environText
  by_cases hfile : m.files.isFile m.cwd path
  · rw [if_pos hfile] at h ⊢
    cases hread : m.files.readText m.cwd path with
    | error e =>
      rw [hread] at h
      cases h
    | ok content =>
      rw [hread] at h
      exact ⟨content, rfl, (Except.ok.inj h).symm⟩
  · rw [if_neg hfile] at h ⊢
    exact ⟨[], rfl, (Except.ok.inj h).symm⟩

/-- The variables for the children are the roots, and what the environ file assigns. -/
lemma Layout.exists_environText
    (h : (m.runAction children l.childVariables).1 = .ok added) :
    ∃ content, m.environText l.environLink = .ok content ∧
      added = l.exportedVariables ++ Environ.parse m.bindings l.exportedVariables content := by
  obtain ⟨vars, hvars, hadded⟩ := Machine.exists_of_runAction_bind h
  obtain ⟨content, hcontent, rfl⟩ := Environ.exists_environText hvars
  exact ⟨content, hcontent, (Except.ok.inj hadded).symm⟩

/-- The roots are exported under three different names. -/
lemma Layout.isEnvironment_exportedVariables (l : Layout) :
    l.exportedVariables.IsEnvironment := by
  have hnames : l.exportedVariables.names =
      ["BUILD_ROOT".toList, "UPKEEP_ROOT".toList, "DEPENDENCIES_ROOT".toList] := rfl
  constructor
  · rw [hnames]
    simp
  · rw [hnames]
    intro name hname
    simp only [List.mem_cons, List.not_mem_nil, or_false] at hname
    apply Bindings.isKey_of_isName
    rcases hname with rfl | rfl | rfl
    · decide
    · decide
    · decide

/-! ## What the children are handed -/

/-- Each attempt of a plan is handed the same variables. -/
lemma Plan.Followed.bindings_eq {plan : Plan} {attempts : List Attempt}
    (h : plan.Followed added attempts) (ha : a ∈ attempts) : a.launch.bindings = added := by
  unfold Followed at h
  split at h
  · obtain ⟨b, rfl, hlaunch⟩ := h
    rw [List.mem_singleton.mp ha, hlaunch]
  · rcases h with ⟨b, rfl, hlaunch, -⟩ | ⟨b, b', rfl, hlaunch, -, hlaunch'⟩
    · rw [List.mem_singleton.mp ha, hlaunch]
    · rcases List.mem_pair.mp ha with rfl | rfl
      · rw [hlaunch]
      · rw [hlaunch']

/-- Every child of a dispatch is handed the variables that are prepared behind the repair. -/
theorem Layout.childVariables_of_mem_attempts
    (ha : a ∈ m.attempts children (l.dispatch flags theme request)) :
    ((m.runAction children (l.repairFor request)).2.runAction children l.childVariables).1 =
      .ok a.launch.bindings := by
  rcases l.attempts_dispatch_eq_nil_or with hnil | ⟨plan, added, -, hprepared, hattempts⟩
  · rw [hnil] at ha
    cases ha
  · rw [hattempts] at ha
    rw [hprepared, (plan.followed_execute children _ added).bindings_eq ha]

/-- Whatever the environ file holds, and whatever the process has: each child of a dispatch finds
under a name what a reference to it would give behind the last line of the environ file, and finds
nothing where that looks it up in vain, unless the process alone binds the name, to different values.
-/
theorem agreement_of_mem_attempts
    (ha : a ∈ m.attempts children (l.dispatch flags theme request)) :
    ∃ content,
      (m.runAction children (l.repairFor request)).2.environText l.environLink = .ok content ∧
      Environ.Agreement m.bindings l.exportedVariables content a.launch.bindings := by
  have hprepared := Layout.childVariables_of_mem_attempts ha
  have hbindings : (m.runAction children (l.repairFor request)).2.bindings = m.bindings :=
    m.bindings_of_onFiles children (l.onFiles_repairFor request)
  obtain ⟨content, hcontent, hadded⟩ := Layout.exists_environText hprepared
  refine ⟨content, hcontent, ?_⟩
  rw [hadded, hbindings]
  apply Environ.agreement_parse l.isEnvironment_exportedVariables
  unfold Layout.exportedVariables
  simp

/-- A machine with a script and an environ file that has one line, and with variables of its process.
-/
def lineMachine (line : String) (bindings : Bindings) : Machine := { Machine.holding
  [([.text "r".toList], .dir), ([.text "r".toList, .text "x.sh".toList], .file [] true),
   ([.text "r".toList, .text "config".toList], .dir),
   ([.text "r".toList, .text "config".toList, .text "environ.sh".toList],
     .file (Text.encode line.toList) false)] with
  bindings }

/-- The layout of its root, with nothing configured. -/
def lineLayout : Layout := .ofSettings ⟨"/r".toList⟩ .standard

/-- What it is asked to do: run the script. -/
def runLine : Action Answer := lineLayout.dispatch ⟨true, false⟩ .plain (.run "x.sh".toList [])

/-- The environ file refers to one variable of the process and binds another one anew. -/
def shadowMachine : Machine :=
  lineMachine "A=$B" [("B".toList, "b".toList), ("A".toList, "a".toList)]

/-- The script finds the value that the environ file gives to `A`, and not the one of the process. -/
theorem agreement_of_shadowed : ∃ a ∈ shadowMachine.attempts .succeeding runLine,
    Environ.Agreement shadowMachine.bindings lineLayout.exportedVariables "A=$B".toList
      a.launch.bindings ∧
    Octets.Binds (childEnvironment shadowMachine.bindings a.launch.bindings) "A".toList
      "b".toList := by
  have hattempts : (shadowMachine.attempts .succeeding runLine).length = 1 := by cbv
  have htext : (shadowMachine.runAction .succeeding (lineLayout.repairFor
      (.run "x.sh".toList []))).2.environText lineLayout.environLink = .ok "A=$B".toList := by cbv
  obtain ⟨a, ha⟩ := List.length_eq_one_iff.mp hattempts
  have hmem := List.mem_singleton_self a
  rw [← ha] at hmem
  obtain ⟨content, hcontent, hagrees⟩ := agreement_of_mem_attempts hmem
  obtain rfl : "A=$B".toList = content := Except.ok.inj (htext.symm.trans hcontent)
  refine ⟨a, hmem, hagrees, ?_⟩
  rw [(hagrees.child _ (by decide)).mpr (Or.inl ?_)]
  · cbv
  · rw [hagrees.layers]
    decide +kernel

/-- The process binds `A` twice, and the environ file refers to it. -/
def doubledMachine : Machine :=
  lineMachine "B=$A" [("A".toList, "1".toList), ("A".toList, "2".toList)]

/-- Children and references do not always agree: where a process binds a name twice, its child has the
last value, and the environ file refers to the first one. -/
theorem exists_disagreement : ¬ ∀ (children : Children) (m : Machine) (l : Layout)
    (flags : SkipFlags) (theme : Theme) (request : Request) (a : Attempt) (content name : Text),
    a ∈ m.attempts children (l.dispatch flags theme request) →
    (m.runAction children (l.repairFor request)).2.environText l.environLink = .ok content →
    Environ.isName name → ∀ value,
      Octets.Binds (childEnvironment m.bindings a.launch.bindings) name value ↔
        (Environ.scope m.bindings l.exportedVariables
          (Environ.parse m.bindings l.exportedVariables content) name).map Octets.ofText =
            some value := by
  intro hall
  have hattempts : (doubledMachine.attempts .succeeding runLine).length = 1 := by cbv
  have htext : (doubledMachine.runAction .succeeding (lineLayout.repairFor
      (.run "x.sh".toList []))).2.environText lineLayout.environLink = .ok "B=$A".toList := by cbv
  have hvariables : ((doubledMachine.runAction .succeeding (lineLayout.repairFor
      (.run "x.sh".toList []))).2.runAction .succeeding lineLayout.childVariables).1 =
      .ok (lineLayout.exportedVariables ++ [("B".toList, "1".toList)]) := by cbv
  obtain ⟨a, ha⟩ := List.length_eq_one_iff.mp hattempts
  have hmem := List.mem_singleton_self a
  rw [← ha] at hmem
  have hbindings : lineLayout.exportedVariables ++ [("B".toList, "1".toList)] =
      a.launch.bindings :=
    Except.ok.inj (hvariables.symm.trans (Layout.childVariables_of_mem_attempts hmem))
  -- what the file assigns has the first value, which is the one that the reference comes upon
  have hscope : (Environ.scope doubledMachine.bindings lineLayout.exportedVariables
      (Environ.parse doubledMachine.bindings lineLayout.exportedVariables "B=$A".toList)
        "A".toList).map Octets.ofText = some "1".toList := by cbv
  have hfound := (hall .succeeding doubledMachine lineLayout _ _ _ a _ "A".toList hmem htext
    (by decide) "1".toList).mpr hscope
  -- among its texts, the name that is bound twice has the last value
  have henvironment : childEnvironment doubledMachine.bindings a.launch.bindings =
      ["A=2".toList, "B=1".toList, "BUILD_ROOT=/r".toList, "DEPENDENCIES_ROOT=/r/dependencies".toList,
        "UPKEEP_ROOT=/r".toList] := by
    rw [← hbindings]
    cbv
  rw [Octets.Binds, henvironment] at hfound
  exact absurd hfound (by decide)

end Caretaker

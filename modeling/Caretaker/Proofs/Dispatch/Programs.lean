import Caretaker.Proofs.Dispatch.Table
import Caretaker.Proofs.Environ.Handed
import Caretaker.Proofs.Layout.Derived

/-!
# The programs of a route

Whatever the settings and the name of a script say, the scripts of a route are looked for at paths
from the root, and each of them has been found there. So none of them is looked for in a search
path.
-/

namespace Caretaker

/-- What a plan starts: the check, if it has one, and the target. -/
def Plan.invocations (p : Plan) : List Invocation := p.preCheck.toList ++ [p.target]

/-- Whether starting a program executes the path that is given for it, whatever the variables of the
parent and of the child say: it is looked for nowhere else. -/
def StartsInPlace (i : Invocation) : Prop :=
  ∀ {α : Type} (run : (path : Octets) → (args environment : List Octets) → Except IoFault α)
    (process bindings : Bindings),
    startChild run process ⟨i, bindings⟩ =
      run (Octets.ofText i.program.text)
        (Octets.ofText i.program.text :: i.args.map Octets.ofText)
        (childEnvironment process bindings)

/-- A path from the root holds a slash. -/
lemma startsInPlace_of_isAbsolute {i : Invocation} (h : i.program.isAbsolute) :
    StartsInPlace i := by
  intro α run process bindings
  have hslash : (Octets.ofText i.program.text).contains '/' := by
    obtain ⟨r, hr⟩ := Path.exists_text_of_isAbsolute h
    have hoctets : Octets.ofText (['/'] ++ r) = ['/'] ++ Octets.ofText r := by
      rw [Octets.ofText_append]
      rfl
    rw [hr]
    show (Octets.ofText (['/'] ++ r)).contains '/'
    rw [hoctets]
    simp
  unfold startChild
  exact if_pos hslash

variable {root : Path} {s : Settings} {l : Layout} {flags : SkipFlags} {isFile : Path → Bool}
  {request : Request} {asked : List Path} {result : Except Fault Route} {plan : Plan}
  {m : Machine} {children : Children}

/-! ## Paths from the root -/

/-- Where the root is absolute, so is each candidate, -/
lemma Layout.isAbsolute_of_mem_candidates (hroot : root.isAbsolute) {name : Text} {p : Path}
    (h : p ∈ (ofSettings root s).candidates name) : p.isAbsolute := by
  have hscripts : (ofSettings root s).scriptsDir.isAbsolute :=
    isAbsolute_derived hroot s .scriptsDir
  have htasks : (ofSettings root s).tasksDir.isAbsolute := isAbsolute_derived hroot s .tasksDir
  simp only [candidates, List.mem_cons, List.not_mem_nil, or_false] at h
  rcases h with rfl | rfl | rfl | rfl
  · exact Path.isAbsolute_join hroot name
  · exact Path.isAbsolute_join hscripts name
  · exact Path.isAbsolute_join hscripts _
  · exact Path.isAbsolute_join htasks _

/-- and so is the program of each action. -/
lemma Request.Acts.isAbsolute (hroot : root.isAbsolute) {name : Text} {i : Invocation}
    (h : request.Acts (.ofSettings root s) name i) : i.program.isAbsolute := by
  cases h with
  | default => exact Path.isAbsolute_join hroot _
  | check args => exact Path.isAbsolute_join hroot _
  | force args => exact Path.isAbsolute_join hroot _
  | task argv => exact Path.isAbsolute_join hroot _

/-! ## What is found -/

/-- The programs of a row of the table are paths from the root, and files. -/
theorem Resolves.programs (hroot : root.isAbsolute)
    (h : Resolves (.ofSettings root s) flags isFile request asked result)
    (hresult : result = .ok (.delegate plan)) :
    ∀ i ∈ plan.invocations, i.program.isAbsolute ∧ isFile i.program := by
  induction h generalizing plan with
  | help => cases hresult
  | tasks => cases hresult
  | taskList => cases hresult
  | missing hacts hmissing => cases hresult
  | skipped hacts hfile hclosed => cases hresult
  | notFound hnone => cases hresult
  | uncheckable hcandidates hbefore hfile hopen hcheck ih => cases hresult
  | passed hacts hfile hopen =>
    cases hresult
    intro i hi
    rw [List.mem_singleton.mp hi]
    exact ⟨hacts.isAbsolute hroot, hfile⟩
  | unchecked hcandidates hbefore hfile hclosed =>
    cases hresult
    intro i hi
    rw [List.mem_singleton.mp hi]
    have hmem := hcandidates ▸ List.mem_append_right _ (List.mem_cons_self ..)
    exact ⟨Layout.isAbsolute_of_mem_candidates hroot hmem, hfile⟩
  | checked hcandidates hbefore hfile hopen hcheck ih =>
    cases hresult
    intro i hi
    rcases List.mem_append.mp hi with hi | hi
    · -- the check is the target of the row of its own
      rw [List.mem_singleton.mp hi]
      exact ih rfl _ (List.mem_append_right _ (List.mem_singleton_self _))
    · rw [List.mem_singleton.mp hi]
      have hmem := hcandidates ▸ List.mem_append_right _ (List.mem_cons_self ..)
      exact ⟨Layout.isAbsolute_of_mem_candidates hroot hmem, hfile⟩

/-- On a machine, resolving comes to the row of the files that are there, and changes nothing. -/
theorem Resolves.runAction_eq
    (h : Resolves l flags (m.files.isFile m.cwd) request asked result) :
    m.runAction children (Route.resolve l flags request) = (result, m) := by
  have htranscript : Action.transcript (fun c => (Machine.answer children c m).1)
      (Route.resolve l flags request) = (asked.map .isFile, result) := h.transcript_eq fun _ => rfl
  unfold Machine.runAction
  rw [m.run_eq_transcript children (Route.only_resolve l flags request)]
  exact Prod.ext (congrArg Prod.snd htranscript) rfl

/-- Each program of a resolved route is a path from the root to a regular file, and is started
there. -/
theorem programs_resolve (hroot : root.isAbsolute)
    (h : (m.runAction children (Route.resolve (.ofSettings root s) flags request)).1 =
      .ok (.delegate plan)) :
    ∀ i ∈ plan.invocations, i.program.isAbsolute ∧ m.files.isFile m.cwd i.program ∧
      StartsInPlace i := by
  obtain ⟨asked, result, hrow⟩ :=
    exists_resolves (.ofSettings root s) flags (m.files.isFile m.cwd) request
  rw [hrow.runAction_eq] at h
  intro i hi
  obtain ⟨habsolute, hfile⟩ := hrow.programs hroot h i hi
  exact ⟨habsolute, hfile, startsInPlace_of_isAbsolute habsolute⟩

/-- A site whose scripts are kept beside it. -/
def besideMachine : Machine := .holding
  [([.text "r".toList], .dir), ([.text "r".toList, .text "check.sh".toList], .file [] true),
   ([.text "s".toList], .dir), ([.text "s".toList, .text "x.sh".toList], .file [] true)]

/-- A setting that climbs out of the site leads to a path from the root as well. -/
theorem programs_resolve_beside :
    (⟨"/s/x.sh".toList⟩ : Path).isAbsolute ∧
      besideMachine.files.isFile besideMachine.cwd ⟨"/s/x.sh".toList⟩ ∧
      StartsInPlace ⟨⟨"/s/x.sh".toList⟩, []⟩ := by
  have hresolve : (besideMachine.runAction .absent
      (Route.resolve (.ofSettings ⟨"/r".toList⟩
        { Settings.standard with scriptsDir := "../s".toList }) ⟨false, false⟩
          (.run "x.sh".toList []))).1 =
      .ok (.delegate ⟨some ⟨⟨"/r/check.sh".toList⟩, []⟩, ⟨⟨"/s/x.sh".toList⟩, []⟩⟩) := by cbv
  exact programs_resolve (by decide) hresolve _
    (List.mem_append_right _ (List.mem_singleton_self _))

end Caretaker

import Caretaker.Proofs.ManagedLink.Repair

/-!
# What only looks

Before the first child is started, dispatching a request repairs the managed link and then only
looks: for the scripts of the route, for the tasks to list, for the variables of the environ file.
-/

namespace Caretaker

lemma Action.looks_ask {c : Call} (h : c.looks) : Only (·.looks) (ask c) := only_ask h

lemma only_requireFile (name : Text) (path : Path) :
    Action.Only (·.looks) (requireFile name path) := by
  refine (Action.looks_ask rfl).bind fun found => ?_
  split
  · exact Action.only_pure ()
  · exact Action.only_throw _

lemma only_gate (name : Text) (path : Path) (flags : SkipFlags) :
    Action.Only (·.looks) (gate name path flags) :=
  (only_requireFile name path).bind fun _ => Action.only_pure _

lemma Route.only_gated (name : String) (script : Path) (args : List Text) (label : Text)
    (flags : SkipFlags) : Action.Only (·.looks) (gated name script args label flags) := by
  refine (only_gate _ script flags).bind fun opened => ?_
  split
  · exact Action.only_pure _
  · exact Action.only_pure _

lemma Layout.only_firstFile? (paths : List Path) : (firstFile? paths).Only (·.looks) := by
  induction paths with
  | nil => trivial
  | cons p paths ih =>
    refine ⟨rfl, fun found => ?_⟩
    cases found with
    | false => exact ih
    | true => trivial

lemma Layout.only_findScript (l : Layout) (name : Text) :
    Action.Only (·.looks) (l.findScript name) := by
  refine (Action.only_lift (only_firstFile? _)).bind fun found => ?_
  cases found with
  | none => exact Action.only_throw _
  | some p => exact Action.only_pure p

lemma Route.only_preCheck (l : Layout) (flags : SkipFlags) :
    Action.Only (·.looks) (preCheck l flags) := by
  rw [preCheck]
  split
  · exact (only_requireFile _ _).bind fun _ => Action.only_pure _
  · exact Action.only_pure _

/-- To resolve a request is to look. -/
lemma Route.only_resolve (l : Layout) (flags : SkipFlags) (request : Request) :
    Action.Only (·.looks) (resolve l flags request) := by
  cases request with
  | run name args =>
    exact (l.only_findScript name).bind fun script =>
      (only_preCheck l flags).bind fun check => Action.only_pure _
  | help => exact Action.only_pure _
  | tasks => exact Action.only_pure _
  | taskList => exact Action.only_pure _
  | _ => exact only_gated ..

lemma Layout.only_childVariables (l : Layout) : Action.Only (·.looks) l.childVariables := by
  refine Action.Only.bind ?_ fun environ => Action.only_pure _
  refine (Action.looks_ask rfl).bind fun found => ?_
  split
  · refine ((Action.looks_ask rfl).bind (Action.only_orFault .io)).bind fun content => ?_
    exact (Action.looks_ask rfl).bind fun process => Action.only_pure _
  · exact Action.only_pure _

lemma Registry.only_task? (dir : Path) (entry : EntryName) :
    (task? dir entry).Only (·.looks) := by
  cases entry with
  | bytes _ => trivial
  | text file =>
    rw [task?]
    cases Task.nameOf? file with
    | none => trivial
    | some name =>
      refine ⟨rfl, fun found => ?_⟩
      cases found with
      | false => trivial
      | true => exact ⟨rfl, fun content => trivial⟩

lemma Registry.only_ofDir (dir : Path) : Action.Only (·.looks) (ofDir dir) := by
  refine (Action.looks_ask rfl).bind fun found => ?_
  split
  · refine ((Action.looks_ask rfl).bind (Action.only_orFault .io)).bind fun entries => ?_
    exact (Action.only_lift (Program.only_mapM (only_task? dir))).bind fun tasks =>
      Action.only_pure _
  · exact Action.only_pure _

/-- A route that starts no plan is carried out by looking. -/
lemma Route.only_execute {route : Route} (h : ∀ plan, route ≠ .delegate plan) (l : Layout)
    (theme : Theme) : Action.Only (·.looks) (route.execute l theme) := by
  cases route with
  | help => exact (Action.looks_ask rfl).bind fun process => Action.only_pure _
  | list format => exact (Registry.only_ofDir l.tasksDir).bind fun registry => Action.only_pure _
  | skipped command => exact Action.only_pure _
  | delegate plan => exact absurd rfl (h plan)

/-- A route starts a plan, or it is carried out by looking. -/
lemma Route.delegate_or_looks (route : Route) (l : Layout) (theme : Theme) :
    (∃ plan, route = .delegate plan) ∨ Action.Only (·.looks) (route.execute l theme) := by
  cases route with
  | delegate plan => exact Or.inl ⟨plan, rfl⟩
  | _ =>
    right
    apply only_execute
    exact nofun

end Caretaker

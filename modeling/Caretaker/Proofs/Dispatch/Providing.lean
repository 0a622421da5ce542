import Caretaker.Proofs.Dispatch.Conduct
import Caretaker.Proofs.Relying

/-!
# What a dispatch provides its children with

Once the repair is done, all that a dispatch lets its children know comes from two looks at the
managed link: whether it leads to a file, and what the file holds. If the second look can only find
the source, each child is provided with all that the source assigns, or with none of it, and the
latter only if the first look has found no file.
-/

namespace Caretaker

variable {l : Layout} {own : Bindings} {content : Text} {missed : Prop}

namespace Layout

/-- What a dispatch of a process with its own variables can be told: the managed link leads to no
file only if it has been `missed`, and nothing but the content is ever read through it. -/
def Tells (l : Layout) (own : Bindings) (content : Text) (missed : Prop) :
    (c : Call) → c.Reply → Prop
  | .isFile p, found => p = l.environLink → found = false → missed
  | .readText p, reply => p = l.environLink → ∀ t, reply = .ok t → t = content
  | .bindings, process => process = own
  | _, _ => True

/-- Variables for a child: the roots and all that the content assigns, or, if the link has been
`missed`, the roots alone. -/
def Provides (l : Layout) (own : Bindings) (content : Text) (missed : Prop) (added : Bindings) :
    Prop :=
  added = l.exportedVariables ++ Environ.parse own l.exportedVariables content ∨
    added = l.exportedVariables ∧ missed

/-- A call that only looks, or that starts a child with variables provided for it. -/
def Minds (l : Layout) (own : Bindings) (content : Text) (missed : Prop) : Call → Prop
  | .launch launch => l.Provides own content missed launch.bindings
  | c => c.looks

lemma minds_of_looks {c : Call} (h : c.looks) : l.Minds own content missed c := by
  cases c with
  | launch launch => cases h
  | _ => exact h

end Layout

/-- An action that relies on what a dispatch is told, and minds what it provides. -/
def Action.Provident {α : Type} (l : Layout) (own : Bindings) (content : Text) (missed : Prop)
    (Q : α → Prop) (a : Action α) : Prop :=
  a.Relies (l.Tells own content missed) (l.Minds own content missed) Q

namespace Action

variable {α β : Type} {a : Action α} {Q : α → Prop} {T : β → Prop}

lemma provident_pure {x : α} (h : Q x) :
    (pure x : Action α).Provident l own content missed Q := relies_pure h

lemma provident_ask {c : Call} (h : c.looks) :
    (ask c).Provident l own content missed (l.Tells own content missed c) :=
  relies_ask (Layout.minds_of_looks h)

lemma Provident.bind {f : α → Action β} (ha : a.Provident l own content missed Q)
    (hf : ∀ x, Q x → (f x).Provident l own content missed T) :
    (a >>= f).Provident l own content missed T := Relies.bind ha hf

lemma provident_of_looks (h : Only (·.looks) a) :
    a.Provident l own content missed fun _ => True := by
  have hminds : Only (l.Minds own content missed) a := Program.Only.mono h fun _ =>
    Layout.minds_of_looks
  exact hminds.relies

end Action

/-! ## The variables for the children -/

/-- What is loaded through the link is what the content assigns, -/
lemma Environ.provident_load : (load l.environLink l.exportedVariables).Provident l own content
    missed (· = parse own l.exportedVariables content) := by
  refine Action.Provident.bind (Q := (· = content)) ?_ fun t ht => ?_
  · refine (Action.provident_ask rfl).bind fun reply hreply => ?_
    exact Action.relies_orFault .io (hreply rfl)
  · refine (Action.provident_ask rfl).bind fun process hprocess => ?_
    change process = own at hprocess
    apply Action.provident_pure
    rw [ht, hprocess]

/-- or nothing, if the link has been missed. -/
lemma Environ.provident_loadOptional : (loadOptional l.environLink l.exportedVariables).Provident
    l own content missed
    fun vars => vars = parse own l.exportedVariables content ∨ vars = [] ∧ missed := by
  refine (Action.provident_ask rfl).bind fun found hfound => ?_
  cases found with
  | true =>
    have hload : (load l.environLink l.exportedVariables).Provident l own content missed
        (· = parse own l.exportedVariables content) := provident_load
    exact hload.mono fun _ => Or.inl
  | false => exact Action.provident_pure (Or.inr ⟨rfl, hfound rfl rfl⟩)

/-- So the variables for the children are provided. -/
lemma Layout.provident_childVariables :
    l.childVariables.Provident l own content missed (l.Provides own content missed) := by
  refine Environ.provident_loadOptional.bind fun vars hvars => ?_
  apply Action.provident_pure
  rcases hvars with rfl | ⟨rfl, hmissed⟩
  · exact Or.inl rfl
  · exact Or.inr ⟨List.append_nil _, hmissed⟩

/-! ## The children -/

variable {added : Bindings}

lemma Invocation.provident_delegate (i : Invocation) (h : l.Provides own content missed added) :
    (i.delegate added).Provident l own content missed fun _ => True := by
  refine (Action.relies_ask h).bind fun reply _ => ?_
  exact Action.relies_orFault _ fun _ _ => trivial

/-- A plan hands on what has been provided to each of its children. -/
theorem Plan.provident_execute (p : Plan) (h : l.Provides own content missed added) :
    (p.execute added).Provident l own content missed fun _ => True := by
  have htarget : (p.executeTarget added).Provident l own content missed fun _ => True :=
    (p.target.provident_delegate h).bind fun _ _ => Action.provident_pure trivial
  cases hcheck : p.preCheck with
  | none =>
    rw [execute_of_none added p hcheck]
    exact htarget
  | some check =>
    rw [execute_of_some added p hcheck]
    refine (check.provident_delegate h).bind fun status _ => ?_
    split
    · exact htarget
    · exact Action.provident_pure trivial

/-- Whatever the route is, carrying it out provides the children with what the content assigns, or
with nothing of it if the link has been missed. -/
theorem Route.provident_execute (route : Route) (theme : Theme) :
    (route.execute l theme).Provident l own content missed fun _ => True := by
  rcases route.delegate_or_looks l theme with ⟨plan, rfl⟩ | hlooks
  · refine Action.Relies.bind Layout.provident_childVariables fun added hadded => ?_
    exact (plan.provident_execute hadded).bind fun _ _ => Action.provident_pure trivial
  · exact Action.provident_of_looks hlooks

/-- What a dispatch does once its repair is done. -/
def Layout.proceed (l : Layout) (flags : SkipFlags) (theme : Theme) (request : Request) :
    Action Answer := Route.resolve l flags request >>= fun route => route.execute l theme

/-- So does all that a dispatch does once its repair is done. -/
theorem Layout.provident_proceed (flags : SkipFlags) (theme : Theme) (request : Request) :
    (l.proceed flags theme request).Provident l own content missed fun _ => True :=
  (Action.provident_of_looks (Route.only_resolve l flags request)).bind fun route _ =>
    route.provident_execute theme

end Caretaker

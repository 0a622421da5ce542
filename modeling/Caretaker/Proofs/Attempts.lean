import Caretaker.Machine
import Mathlib.Data.List.Basic

/-!
# Attempts to start children

Of all the calls that a program makes on a machine, those that start children are the ones that
matter most. This is the list of them, in order, each with the machine that it meets and the answer
that it gets.
-/

namespace Caretaker

/-! ## Programs that make some calls only -/

namespace Call

/-- A call that only looks. -/
def looks : Call → Bool
  | readLink _ | standsAt _ | isFile _ | isDir _ | readText _ | list _ | canonical _ | bindings
  | executableDir | isTerminal _ => true
  | remove _ | makeLink .. | launch _ | setVariable .. | print .. => false

/-- A call that starts a child. -/
def starts : Call → Bool
  | launch _ => true
  | _ => false

/-- A call that has to do with files only. -/
def onFiles : Call → Bool
  | readLink _ | standsAt _ | remove _ | makeLink .. | isFile _ | isDir _ | readText _ | list _
  | canonical _ => true
  | launch _ | bindings | setVariable .. | executableDir | isTerminal _ | print .. => false

lemma not_starts_of_looks {c : Call} (h : c.looks) : ¬ c.starts := by
  cases c <;> first | exact Bool.false_ne_true | cases h

lemma not_starts_of_onFiles {c : Call} (h : c.onFiles) : ¬ c.starts := by
  cases c <;> first | exact Bool.false_ne_true | cases h

end Call

namespace Program

variable {α β : Type} {P Q : Call → Prop}

/-- Whatever the answers are, a program makes calls of one kind and has a result of one kind. -/
def Conforms (P : Call → Prop) (R : α → Prop) : Program α → Prop
  | done a => R a
  | call c next => P c ∧ ∀ r, (next r).Conforms P R

/-- Whatever the answers are, a program makes calls of one kind only. -/
def Only (P : Call → Prop) (p : Program α) : Prop := p.Conforms P fun _ => True

/-- A program that conforms makes its calls of one kind. -/
lemma Conforms.only {p : Program α} {R : α → Prop} (h : p.Conforms P R) : p.Only P := by
  induction p with
  | done a => trivial
  | call c next ih => exact ⟨h.1, fun r => ih r (h.2 r)⟩

/-- A program in two parts makes calls of a kind if both parts do. -/
lemma Only.bind {p : Program α} {f : α → Program β} (hp : p.Only P) (hf : ∀ a, (f a).Only P) :
    (p >>= f).Only P := by
  induction p with
  | done a => exact hf a
  | call c next ih => exact ⟨hp.1, fun r => ih r (hp.2 r)⟩

lemma Only.mono {p : Program α} (hp : p.Only P) (h : ∀ c, P c → Q c) : p.Only Q := by
  induction p with
  | done a => trivial
  | call c next ih => exact ⟨h c hp.1, fun r => ih r (hp.2 r)⟩

lemma only_perform {c : Call} (h : P c) : (perform c).Only P := ⟨h, fun _ => trivial⟩

lemma only_mapM {l : List α} {f : α → Program β} (h : ∀ a, (f a).Only P) : (l.mapM f).Only P := by
  induction l with
  | nil => trivial
  | cons a l ih =>
    rw [List.mapM_cons]
    exact (h a).bind fun b => ih.bind fun bs => trivial

end Program

namespace Action

variable {α β : Type} {P : Call → Prop}

/-- An action that makes calls of one kind only. -/
def Only (P : Call → Prop) (a : Action α) : Prop := a.run.Only P

lemma only_pure (a : α) : Only P (pure a : Action α) := trivial

lemma only_throw (f : Fault) : Only P (throw f : Action α) := trivial

lemma only_lift {p : Program α} (h : p.Only P) : Only P (ExceptT.lift p) :=
  h.bind fun _ => trivial

lemma only_ask {c : Call} (h : P c) : Only P (ask c) := only_lift (Program.only_perform h)

/-- To turn a failure into a fault takes no call. -/
lemma only_orFault (fault : IoFault → Fault) (r : Except IoFault α) :
    Only P (orFault fault r) := by
  cases r <;> trivial

lemma Only.bind {a : Action α} {f : α → Action β} (ha : Only P a) (hf : ∀ x, Only P (f x)) :
    Only P (a >>= f) := by
  refine Program.Only.bind ha fun r => ?_
  cases r with
  | ok x => exact hf x
  | error e => trivial

end Action

/-! ## Attempts -/

/-- A child that was to be started: on which machine, and with which answer. -/
structure Attempt where
  launch : Launch
  before : Machine
  reply : Except IoFault WaitStatus

/-- The child ran, and it succeeded. -/
def Attempt.Succeeded (a : Attempt) : Prop := ∃ status, a.reply = .ok status ∧ status.success

namespace Machine

variable {α β : Type} (children : Children) (m : Machine)

/-- The attempt that a call makes, if it is one. -/
def attempt? : Call → Option Attempt
  | .launch l => some ⟨l, m, (m.start children l).1⟩
  | _ => none

/-- The attempts of a program, in order. -/
def attemptsOf (m : Machine) : Program α → List Attempt
  | .done _ => []
  | .call c next =>
    (m.attempt? children c).toList ++
      (answer children c m).2.attemptsOf (next (answer children c m).1)

/-- The attempts of an action, in order. -/
def attempts (a : Action α) : List Attempt := m.attemptsOf children a.run

/-- The attempts of the second part come behind those of the first. -/
lemma attemptsOf_bind (p : Program α) (f : α → Program β) : m.attemptsOf children (p >>= f) =
    m.attemptsOf children p ++
      (m.run children p).2.attemptsOf children (f (m.run children p).1) := by
  induction p generalizing m with
  | done a => rfl
  | call c next ih =>
    change _ ++ _ = (_ ++ _) ++ _
    rw [List.append_assoc]
    exact congrArg _ (ih _ _)

lemma attemptsOf_of_only {p : Program α} (h : p.Only (¬ ·.starts)) :
    m.attemptsOf children p = [] := by
  induction p generalizing m with
  | done a => rfl
  | call c next ih =>
    have hnone : m.attempt? children c = none := by
      cases c with
      | launch l => exact absurd rfl h.1
      | _ => rfl
    rw [attemptsOf, hnone, ih _ _ (h.2 _)]
    rfl

variable {m} in
/-- What each call of a kind keeps, a program of such calls keeps. -/
theorem run_of_only {P : Call → Prop} {I : Machine → Prop}
    (hstep : ∀ c m, P c → I m → I (answer children c m).2) {p : Program α} (hp : p.Only P)
    (hm : I m) : I (m.run children p).2 := by
  induction p generalizing m with
  | done a => exact hm
  | call c next ih => exact ih _ (hp.2 _) (hstep c m hp.1 hm)

lemma run_of_conforms {P : Call → Prop} {R : α → Prop} {p : Program α} (h : p.Conforms P R) :
    R (m.run children p).1 := by
  induction p generalizing m with
  | done a => exact h
  | call c next ih => exact ih _ _ (h.2 _)

/-- A call that only looks leaves the machine as it is. -/
lemma answer_of_looks {c : Call} (h : c.looks) : (answer children c m).2 = m := by
  cases c <;> first | rfl | cases h

/-- A program that only looks leaves the machine as it is. -/
lemma run_of_looks {p : Program α} (h : p.Only (·.looks)) : (m.run children p).2 = m := by
  refine run_of_only (I := (· = m)) children (fun c m' hc hm' => ?_) h rfl
  rw [answer_of_looks children m' hc, hm']

/-- A call that has to do with files changes nothing else. -/
lemma answer_of_onFiles {c : Call} (h : c.onFiles) : (answer children c m).2 =
    { m with files := (answer children c m).2.files } := by
  cases c with
  | remove p =>
    rw [answer]
    cases m.files.remove m.cwd p <;> rfl
  | makeLink target p =>
    rw [answer]
    cases m.files.makeLink m.cwd target p <;> rfl
  | _ => first | rfl | cases h

lemma run_of_onFiles {p : Program α} (h : p.Only (·.onFiles)) : (m.run children p).2 =
    { m with files := (m.run children p).2.files } := by
  refine run_of_only (I := fun m' => m' = { m with files := m'.files }) children
    (fun c m' hc hm' => ?_) h rfl
  rw [answer_of_onFiles children m' hc, hm']

lemma bindings_answer_of_onFiles {c : Call} (h : c.onFiles) :
    (answer children c m).2.bindings = m.bindings := by
  rw [answer_of_onFiles children m h]

/-- A program that has to do with files only leaves the variables of the process as they are. -/
theorem bindings_of_onFiles {p : Program α} (h : p.Only (·.onFiles)) :
    (m.run children p).2.bindings = m.bindings := by
  rw [m.run_of_onFiles children h]

/-- A program goes on with the reply, on the machine that the call leaves. -/
lemma run_call {c : Call} {r : c.Reply} {m' : Machine} (next : c.Reply → Program α)
    (h : answer children c m = (r, m')) :
    m.run children (.call c next) = m'.run children (next r) := by
  rw [run, Program.run_call, h]
  rfl

/-! ## Actions -/

lemma runAction_ask (c : Call) : m.runAction children (Action.ask c) =
    (.ok (answer children c m).1, (answer children c m).2) := rfl

lemma runAction_orFault (fault : IoFault → Fault) (r : Except IoFault α) :
    m.runAction children (Action.orFault fault r) = (r.mapError fault, m) := by
  cases r <;> rfl

/-- The second part of an action runs where the first has led, unless that has failed. -/
lemma runAction_bind (a : Action α) (f : α → Action β) : m.runAction children (a >>= f) =
    match m.runAction children a with
    | (.ok x, m') => m'.runAction children (f x)
    | (.error e, m') => (.error e, m') := by
  change m.run children (a.run >>= _) = _
  rw [run, Program.run_bind]
  rw [runAction, run]
  rcases Program.run (answer children) a.run m with ⟨_ | _, m'⟩ <;> rfl

variable {children m} in
/-- An action in two parts succeeds if both do. -/
lemma exists_of_runAction_bind {a : Action α} {f : α → Action β} {y : β}
    (h : (m.runAction children (a >>= f)).1 = .ok y) :
    ∃ x, (m.runAction children a).1 = .ok x ∧
      ((m.runAction children a).2.runAction children (f x)).1 = .ok y := by
  rw [runAction_bind] at h
  rcases hrun : m.runAction children a with ⟨e | x, m'⟩
  · rw [hrun] at h
    cases h
  · rw [hrun] at h
    exact ⟨x, rfl, h⟩

/-- The second part of an action attempts something only if the first has succeeded. -/
lemma attempts_bind (a : Action α) (f : α → Action β) : m.attempts children (a >>= f) =
    m.attempts children a ++
      match m.runAction children a with
      | (.ok x, m') => m'.attempts children (f x)
      | (.error _, _) => [] := by
  change m.attemptsOf children (a.run >>= _) = _
  rw [attemptsOf_bind]
  refine congrArg _ ?_
  rw [runAction]
  rcases m.run children a.run with ⟨_ | _, m'⟩ <;> rfl

lemma attempts_of_only {a : Action α} (h : Action.Only (¬ ·.starts) a) :
    m.attempts children a = [] := m.attemptsOf_of_only children h

lemma attempts_of_looks {a : Action α} (h : Action.Only (·.looks) a) :
    m.attempts children a = [] :=
  m.attempts_of_only children (h.mono fun _ => Call.not_starts_of_looks)

/-- An action that only looks leaves the machine as it is. -/
lemma runAction_of_looks {a : Action α} (h : Action.Only (·.looks) a) :
    m.runAction children a = ((m.runAction children a).1, m) :=
  Prod.ext rfl (m.run_of_looks children h)

/-- After an action that only looks, the machine is as it was. -/
lemma runAction_bind_of_looks {a : Action α} (h : Action.Only (·.looks) a) (f : α → Action β) :
    m.runAction children (a >>= f) =
      match (m.runAction children a).1 with
      | .ok x => m.runAction children (f x)
      | .error e => (.error e, m) := by
  rw [runAction_bind, m.runAction_of_looks children h]
  rcases (m.runAction children a).1 with _ | _ <;> rfl

lemma attempts_bind_of_looks {a : Action α} (h : Action.Only (·.looks) a) (f : α → Action β) :
    m.attempts children (a >>= f) =
      match (m.runAction children a).1 with
      | .ok x => m.attempts children (f x)
      | .error _ => [] := by
  rw [attempts_bind, m.attempts_of_looks children h, m.runAction_of_looks children h]
  rcases (m.runAction children a).1 with _ | _ <;> rfl

end Machine
end Caretaker

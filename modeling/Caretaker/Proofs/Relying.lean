import Caretaker.Proofs.Attempts

/-!
# Programs that rely on the replies they get

Beside other programs, a program cannot count on every call finding the machine as the last one left
it. What it does is therefore told from what it relies on about each reply: as long as all replies
are as it needs them, its calls are of one kind and its result is of one kind.
-/

namespace Caretaker

namespace Program

variable {α β : Type} {R : (c : Call) → c.Reply → Prop} {P : Call → Prop} {Q Q' : α → Prop}
  {T : β → Prop}

/-- As long as the replies satisfy `R`, the calls of a program satisfy `P`, and its result `Q`. -/
def Relies (R : (c : Call) → c.Reply → Prop) (P : Call → Prop) (Q : α → Prop) : Program α → Prop
  | done a => Q a
  | call c next => P c ∧ ∀ r, R c r → (next r).Relies R P Q

/-- The second part of a program may rely on what the first one ends in. -/
lemma Relies.bind {p : Program α} {f : α → Program β} (hp : p.Relies R P Q)
    (hf : ∀ a, Q a → (f a).Relies R P T) : (p >>= f).Relies R P T := by
  induction p with
  | done a => exact hf a hp
  | call c next ih => exact ⟨hp.1, fun r hr => ih r (hp.2 r hr)⟩

lemma Relies.mono {p : Program α} (hp : p.Relies R P Q) (h : ∀ a, Q a → Q' a) :
    p.Relies R P Q' := by
  induction p with
  | done a => exact h a hp
  | call c next ih => exact ⟨hp.1, fun r hr => ih r (hp.2 r hr)⟩

lemma Only.relies {p : Program α} (hp : p.Only P) : p.Relies R P fun _ => True := by
  induction p with
  | done a => trivial
  | call c next ih => exact ⟨hp.1, fun r _ => ih r (hp.2 r)⟩

end Program

namespace Action

variable {α β : Type} {R : (c : Call) → c.Reply → Prop} {P : Call → Prop} {Q Q' : α → Prop}
  {T : β → Prop}

/-- As long as the replies satisfy `R`, the calls of an action satisfy `P`, and what it gives unless
it ends in a fault satisfies `Q`. -/
def Relies (R : (c : Call) → c.Reply → Prop) (P : Call → Prop) (Q : α → Prop) (a : Action α) :
    Prop := a.run.Relies R P fun r => ∀ x, r = .ok x → Q x

lemma relies_pure {x : α} (h : Q x) : Relies R P Q (pure x : Action α) := by
  intro y hy
  rwa [← Except.ok.inj hy]

lemma relies_throw (f : Fault) : Relies R P Q (throw f : Action α) := nofun

/-- An action may rely on the reply to its call. -/
lemma relies_ask {c : Call} (h : P c) : Relies R P (R c) (ask c) := by
  refine ⟨h, fun r hr => ?_⟩
  intro x hx
  rwa [← Except.ok.inj hx]

lemma relies_orFault {T : α → Prop} (fault : IoFault → Fault) {r : Except IoFault α}
    (h : ∀ x, r = .ok x → T x) : Relies R P T (orFault fault r) := by
  cases r with
  | ok x => exact relies_pure (h x rfl)
  | error e => exact relies_throw _

lemma Relies.bind {a : Action α} {f : α → Action β} (ha : Relies R P Q a)
    (hf : ∀ x, Q x → Relies R P T (f x)) : Relies R P T (a >>= f) := by
  refine Program.Relies.bind ha fun r hr => ?_
  cases r with
  | ok x => exact hf x (hr x rfl)
  | error e => exact relies_throw e

lemma Relies.mono {a : Action α} (ha : Relies R P Q a) (h : ∀ x, Q x → Q' x) :
    Relies R P Q' a :=
  Program.Relies.mono ha fun _ hr x hx => h x (hr x hx)

lemma Only.relies {a : Action α} (ha : Only P a) : Relies R P (fun _ => True) a :=
  (Program.Only.relies ha).mono fun _ _ _ _ => trivial

end Action
end Caretaker

import Caretaker.Proofs.Dispatch.Providing
import Caretaker.Proofs.ManagedLink.Reading
import Caretaker.Proofs.ManagedLink.Gap

/-!
# Dispatches beside each other

Several processes may dispatch requests at once. They share the files, and take turns call by call in
any order, but each of them has its own variables. Seen from the managed link, each is at some stage
of its repair, or else past it.
-/

namespace Caretaker

open FileSystem Repair

/-! ## Sites -/

/-- Children as a process has them: whatever they do, its own variables stay as they are. -/
def Children.apart (children : Children) : Children := fun launch m =>
  ((children launch m).1, { (children launch m).2 with bindings := m.bindings })

/-- A process that carries out a dispatch: its own variables, and the calls it has yet to make. -/
structure Dispatcher where
  bindings : Bindings
  program : Program (Except Fault Answer)

/-- The machine as a process has it, with the variables of its own. -/
def Dispatcher.view (d : Dispatcher) (m : Machine) : Machine := { m with bindings := d.bindings }

/-- The next call of a process. -/
def Dispatcher.step (children : Children) (m : Machine) (d : Dispatcher) : Dispatcher × Machine :=
  let next := d.program.step children.apart (d.view m)
  (⟨next.2.bindings, next.1⟩, { next.2 with bindings := m.bindings })

/-- The next call of a program, if it has one to make. -/
def Program.next? {α : Type} : Program α → Option Call
  | .done _ => none
  | .call c _ => some c

/-- A machine, and the processes that carry out dispatches on it. -/
structure Site where
  machine : Machine
  dispatchers : List Dispatcher

namespace Site

variable (children : Children)

/-- A turn of one process. One that is done, or that does not exist, lets it pass. -/
def turn (s : Site) (i : ℕ) : Site :=
  match s.dispatchers[i]? with
  | some d => ⟨(d.step children s.machine).2, s.dispatchers.set i (d.step children s.machine).1⟩
  | none => s

/-- The site after the turns of a schedule. -/
def after (s : Site) (schedule : List ℕ) : Site := schedule.foldl (turn children) s

lemma after_concat (s : Site) (before : List ℕ) (i : ℕ) :
    s.after children (before ++ [i]) = (s.after children before).turn children i :=
  List.foldl_concat ..

/-- The call that a process makes on its next turn, if it has one to make. -/
def next? (s : Site) (i : ℕ) : Option Call := s.dispatchers[i]?.bind (·.program.next?)

variable {children} {s : Site} {i j : ℕ} {d : Dispatcher}

lemma next?_eq_some_iff {c : Call} : s.next? i = some c ↔
    ∃ d rest, s.dispatchers[i]? = some d ∧ d.program = .call c rest := by
  rw [next?, Option.bind_eq_some_iff]
  constructor
  · rintro ⟨⟨b, p⟩, hd, hnext⟩
    cases p with
    | done a => cases hnext
    | call c' rest =>
      obtain rfl := Option.some.inj hnext
      exact ⟨_, rest, hd, rfl⟩
  · rintro ⟨⟨b, p⟩, rest, hd, hprogram⟩
    refine ⟨_, hd, ?_⟩
    rw [hprogram]
    rfl

lemma turn_of_some (h : s.dispatchers[i]? = some d) : s.turn children i =
    ⟨(d.step children s.machine).2, s.dispatchers.set i (d.step children s.machine).1⟩ := by
  rw [turn, h]

lemma turn_of_none (h : s.dispatchers[i]? = none) : s.turn children i = s := by rw [turn, h]

/-- The processes after a turn, one by one: the one whose turn it was has made its call. -/
lemma dispatcher_of_turn (h : s.dispatchers[i]? = some d) {d' : Dispatcher}
    (hd : (s.turn children i).dispatchers[j]? = some d') :
    (j = i ∧ d' = (d.step children s.machine).1) ∨ (j ≠ i ∧ s.dispatchers[j]? = some d') := by
  rw [turn_of_some h] at hd
  by_cases hj : j = i
  · rw [hj, List.getElem?_set_self (List.getElem?_eq_some_iff.mp h).1, Option.some.injEq] at hd
    exact Or.inl ⟨hj, hd.symm⟩
  · rw [List.getElem?_set_ne (Ne.symm hj)] at hd
    exact Or.inr ⟨hj, hd⟩

end Site

/-! ## One turn -/

/-- A program in two parts makes the calls of the first part first. -/
lemma Program.step_bind {α β : Type} {children : Children} {m : Machine} {p : Program α}
    (f : α → Program β) (hp : ∀ a, p ≠ done a) :
    (p >>= f).step children m = ((p.step children m).1 >>= f, (p.step children m).2) := by
  cases p with
  | done a => exact absurd rfl (hp a)
  | call c next => rfl

/-- A call that has to do with files leaves the variables of its process alone. -/
lemma Program.bindings_step {α : Type} (children : Children) (m : Machine) {p : Program α}
    (hp : p.Only (·.onFiles)) : (p.step children m).2.bindings = m.bindings := by
  cases p with
  | done a => rfl
  | call c next => exact m.bindings_answer_of_onFiles children hp.1

/-- So does a child that is started apart. -/
lemma Machine.bindings_launch_apart (children : Children) (launch : Launch) (m : Machine) :
    (answer children.apart (.launch launch) m).2.bindings = m.bindings := by
  rw [answer, start]
  split
  · rfl
  · rfl

/-! ## Dispatches as repairs with something to follow -/

/-- A dispatch that is to be carried out by a process with variables of its own. -/
structure Errand where
  bindings : Bindings
  flags : SkipFlags
  theme : Theme
  request : Request

namespace Errand

/-- The process for an errand, which has not made a call yet. -/
def dispatcher (l : Layout) (e : Errand) : Dispatcher :=
  ⟨e.bindings, (l.dispatch e.flags e.theme e.request).run⟩

/-- What a dispatch does with the end of its repair. -/
def follow (l : Layout) (e : Errand) : Except Fault LinkStatus → Program (Except Fault Answer)
  | .ok _ => (l.proceed e.flags e.theme e.request).run
  | .error f => .done (.error f)

/-- A dispatch is a repair, with the rest of it to follow. -/
lemma run_dispatch (l : Layout) (e : Errand) (h : e.request ≠ .help) :
    (l.dispatch e.flags e.theme e.request).run = (LinkStatus.ensure l).run >>= e.follow l := by
  have hdispatch : l.dispatch e.flags e.theme e.request =
      LinkStatus.ensure l >>= fun _ => l.proceed e.flags e.theme e.request := by
    rw [Layout.dispatch, if_pos h]
    rfl
  rw [hdispatch, ExceptT.run_bind]
  congr 1
  funext r
  cases r <;> rfl

end Errand

/-- A number of errands on one layout, none of which has been begun. -/
def Layout.site (l : Layout) (m : Machine) (errands : List Errand) : Site :=
  ⟨m, errands.map (·.dispatcher l)⟩

/-! ## What a stage leaves to do -/

namespace Repair.Stage

variable {l : Layout} {source : Path} {content : Text} {e : Errand} {missed missed' : Prop}
  {s : Stage} {p : Program (Except Fault Answer)}

/-- What a dispatch has yet to do when its repair is at a stage. Once it is past it, all that counts
is what it provides for its children, and that it may come to miss the link later on. -/
def Leaves (l : Layout) (source : Path) (content : Text) (e : Errand) (missed : Prop) :
    Stage → Program (Except Fault Answer) → Prop
  | returned (.ok _), p => ∀ later : Prop, (missed → later) →
    p.Relies (l.Tells e.bindings content later) (l.Minds e.bindings content later) fun _ => True
  | s, p => p = s.program l source >>= e.follow l

/-- What follows a repair at a stage is what the stage leaves. -/
lemma leaves_follow (s : Stage) :
    s.Leaves l source content e missed (s.program l source >>= e.follow l) := by
  cases s with
  | returned result =>
    cases result with
    | error f => exact rfl
    | ok status =>
      intro later _
      exact Program.Relies.mono (Layout.provident_proceed e.flags e.theme e.request)
        fun _ _ => trivial
  | _ => exact rfl

/-- As long as its repair has not succeeded, a dispatch has the rest of it left to do first. -/
lemma Leaves.program_eq (h : s.Leaves l source content e missed p)
    (hnot : ∀ status, s ≠ returned (.ok status)) : p = s.program l source >>= e.follow l := by
  cases s with
  | returned result =>
    cases result with
    | error f => exact h
    | ok status => exact absurd rfl (hnot status)
  | _ => exact h

lemma Leaves.mono (h : s.Leaves l source content e missed p) (hmissed : missed → missed') :
    s.Leaves l source content e missed' p := by
  cases s with
  | returned result =>
    cases result with
    | error f => exact h
    | ok status => exact fun later hlater => h later fun hm => hlater (hmissed hm)
  | _ => exact h

lemma onFiles_program (l : Layout) (source : Path) (s : Stage) :
    (s.program l source).Only (·.onFiles) := by
  cases s with
  | asking => exact LinkStatus.onFiles_ensure l
  | reading => exact only_read source l.environLink
  | looking previous => exact (conforms_look source l.environLink previous).only
  | clearing previous => exact (conforms_clear source l.environLink previous).only
  | making previous => exact (conforms_make source l.environLink previous).only
  | checking previous => exact ⟨rfl, fun _ => trivial⟩
  | returned result => trivial

end Repair.Stage
end Caretaker

import Caretaker.Proofs.Interleaving
import Caretaker.Proofs.ManagedLink.Entry

/-!
# The repair protocol

A call of `LinkStatus.ensure` comes through a few stages, at each of which it makes one call on the
machine. Seen from the managed link, a machine with several such calls on it is no more than the
entry and the stage of each call, and a turn of one of them is one step of this small system.
-/

namespace Caretaker.Repair

open FileSystem LinkStatus

/-! ## The calls that repair makes -/

section
variable (source link : Path) (previous : Option Path)

/-- After the link could not be made since it was there: see whether it is the right one. -/
def checkAgain : Program (Except Fault LinkStatus) :=
  .call (.readLink link) fun r =>
    .done (if leadsTo source r.toOption then .ok (.repaired previous)
      else .error (.linkFailed link source .alreadyExists))

/-- Make the link. -/
def make : Program (Except Fault LinkStatus) :=
  .call (.makeLink source link) fun
    | .ok () => .done (.ok (.repaired previous))
    | .error e =>
      if e = .alreadyExists then checkAgain source link previous
      else .done (.error (.linkFailed link source e))

/-- Remove the stale entry, then make the link. -/
def clear : Program (Except Fault LinkStatus) :=
  .call (.remove link) fun
    | .ok () => make source link previous
    | .error e =>
      if e = .noEntry then make source link previous
      else .done (.error (.linkFailed link source e))

/-- Look whether an entry has to be removed. -/
def look : Program (Except Fault LinkStatus) :=
  .call (.standsAt link) fun stands =>
    if stands then clear source link previous else make source link previous

/-- Read the link, which may be right. -/
def read : Program (Except Fault LinkStatus) :=
  .call (.readLink link) fun r =>
    if leadsTo source r.toOption then .done (.ok .current) else look source link r.toOption

/-- The code that makes the link makes these calls, -/
lemma run_makeAnew : (do
    ExceptT.lift (makeAnew source link) >>= Action.orFault (.linkFailed link source)
    return .repaired previous : Action LinkStatus).run = make source link previous := by
  refine congrArg (Program.call _) (funext fun r => ?_)
  rcases r with e | ⟨⟩
  · dsimp only [Program.bind]
    by_cases he : e = .alreadyExists
    · rw [if_pos he, if_pos he]
      refine congrArg (Program.call _) (funext fun r => ?_)
      dsimp only [Program.bind, Program.pure_eq]
      by_cases hr : leadsTo source r.toOption
      · rw [if_pos hr, if_pos hr]
        rfl
      · rw [if_neg hr, if_neg hr, he]
        rfl
    · rw [if_neg he, if_neg he]
      rfl
  · rfl

/-- so does the code that removes a stale entry first, -/
lemma run_removeStale : (do
    ExceptT.lift (removeStale link) >>= Action.orFault (.linkFailed link source)
    ExceptT.lift (makeAnew source link) >>= Action.orFault (.linkFailed link source)
    return .repaired previous : Action LinkStatus).run = clear source link previous := by
  refine congrArg (Program.call _) (funext fun r => ?_)
  rcases r with e | ⟨⟩
  · dsimp only [Program.bind]
    by_cases he : e = .noEntry
    · rw [if_pos he, if_pos he]
      exact run_makeAnew source link previous
    · rw [if_neg he, if_neg he]
      rfl
  · exact run_makeAnew source link previous

/-- and so does repair, once the source is settled. -/
lemma run_ensureAt : (ensureAt source link).run = read source link := by
  refine congrArg (Program.call _) (funext fun r => ?_)
  dsimp only [Program.bind, Program.pure_eq, Function.comp_apply, ExceptT.bindCont]
  by_cases hr : leadsTo source r.toOption
  · rw [if_pos hr, if_pos hr]
    rfl
  · rw [if_neg hr, if_neg hr]
    refine congrArg (Program.call _) (funext fun stands => ?_)
    cases stands with
    | false => exact run_makeAnew source link _
    | true => exact run_removeStale source link _

/-- Which source is the right one is asked before anything else. -/
lemma run_ensure (l : Layout) : (ensure l).run = .call (.isDir l.overrideDir) fun found =>
    read (if found then l.overrideEnviron else l.standardEnviron) l.environLink := by
  refine congrArg (Program.call _) (funext fun found => ?_)
  exact run_ensureAt _ l.environLink

end

/-! ## Stages -/

/-- How far a call of `LinkStatus.ensure` has come. -/
inductive Stage where
  /-- It asks which source is the right one. -/
  | asking
  | reading
  | looking (previous : Option Path)
  | clearing (previous : Option Path)
  | making (previous : Option Path)
  /-- It reads the link once more. -/
  | checking (previous : Option Path)
  | returned (result : Except Fault LinkStatus)

namespace Stage

/-- What is left to do at a stage. -/
def program (l : Layout) (source : Path) : Stage → Program (Except Fault LinkStatus)
  | asking => (ensure l).run
  | reading => read source l.environLink
  | looking previous => look source l.environLink previous
  | clearing previous => clear source l.environLink previous
  | making previous => make source l.environLink previous
  | checking previous => checkAgain source l.environLink previous
  | returned result => .done result

/-- The stage after the next call, which finds the entry `e`, and the entry that the call leaves. -/
def advance (l : Layout) (source : Path) (e : Option Entry) : Stage → Stage × Option Entry
  | asking => (reading, e)
  | reading =>
    (if Layout.leadsTo source e then returned (.ok .current)
      else looking (Layout.linkReply e).toOption, e)
  | looking previous => (if e.isSome then clearing previous else making previous, e)
  | clearing previous => (making previous, none)
  | making previous =>
    match linkText source, e with
    | .error refusal, e => (returned (.error (.linkFailed l.environLink source refusal)), e)
    | .ok _, some e => (checking previous, some e)
    | .ok text, none => (returned (.ok (.repaired previous)), some (.link text))
  | checking previous =>
    (returned (if Layout.leadsTo source e then .ok (.repaired previous)
      else .error (.linkFailed l.environLink source .alreadyExists)), e)
  | returned result => (returned result, e)

variable {l : Layout} {m : Machine} {source : Path} (children : Children)

/-- Making the link has three ends: the text is refused, the link is there already, or it is made.
-/
lemma advance_making (l : Layout) (source : Path) (e : Option Entry) (previous : Option Path) :
    (∃ refusal, linkText source = .error refusal ∧ (making previous).advance l source e =
      (returned (.error (.linkFailed l.environLink source refusal)), e)) ∨
    (linkText source = .ok source.text ∧ e ≠ none ∧
      (making previous).advance l source e = (checking previous, e)) ∨
    (linkText source = .ok source.text ∧ e = none ∧ (making previous).advance l source e =
      (returned (.ok (.repaired previous)), some (.link source.text))) := by
  cases ht : linkText source with
  | error refusal => exact Or.inl ⟨refusal, rfl, by simp only [advance, ht]⟩
  | ok text =>
    obtain rfl := text_of_linkText ht
    cases e with
    | none => exact Or.inr (Or.inr ⟨rfl, rfl, by simp only [advance, ht]⟩)
    | some e => exact Or.inr (Or.inl ⟨rfl, by simp, by simp only [advance, ht]⟩)

/-- A call that is made at a stage is one step of the stage on the entry of the managed link, and
leaves the root as it stands. -/
def Follows (l : Layout) (source : Path) (m : Machine) (s : Stage) : Prop :=
  ∃ m', (s.program l source).step children m =
      ((s.advance l source (l.entry m)).1.program l source, m') ∧
    l.entry m' = (s.advance l source (l.entry m)).2 ∧ l.Rooted m'

/-- The entry is removed, unless a directory stands there. -/
lemma follows_clearing (hroot : l.Rooted m) (hdir : l.entry m ≠ some .dir)
    (previous : Option Path) : (clearing previous).Follows children l source m := by
  have hanswer := hroot.answer_remove children
  cases he : l.entry m with
  | none =>
    rw [he] at hanswer
    refine ⟨m, ?_, he, hroot⟩
    rw [program, clear, Program.step_call _ hanswer]
    rfl
  | some e =>
    have hcleared : Machine.answer children (.remove l.environLink) m =
        (.ok (), l.setEntry m none) := by
      rw [hanswer, he]
      cases e with
      | dir => exact absurd he hdir
      | file content executable => rfl
      | link target => rfl
    obtain ⟨hroot', hentry⟩ := hroot.setEntry hdir (e := none) (by simp)
    refine ⟨l.setEntry m none, ?_, hentry, hroot'⟩
    rw [program, clear, Program.step_call _ hcleared]
    rfl

/-- The link is made as the stage has it. -/
lemma follows_making (hroot : l.Rooted m) (previous : Option Path) :
    (making previous).Follows children l source m := by
  have hanswer := hroot.answer_makeLink children source
  cases ht : linkText source with
  | error refusal =>
    rw [ht] at hanswer
    refine ⟨m, ?_, by simp only [advance, ht], hroot⟩
    rw [program, make, Program.step_call _ hanswer]
    simp only [advance, ht]
    exact congrArg (·, m) (if_neg (Layout.ne_alreadyExists_of_linkText ht))
  | ok text =>
    cases he : l.entry m with
    | none =>
      rw [ht, he] at hanswer
      obtain ⟨hroot', hentry⟩ :=
        hroot.setEntry (by simp [he]) (e := some (.link text)) (by simp)
      refine ⟨l.setEntry m (some (.link text)), ?_, ?_, hroot'⟩
      · rw [program, make, Program.step_call _ hanswer]
        simp only [advance, ht, he]
        rfl
      · simp only [advance, ht, he]
        exact hentry
    | some e =>
      rw [ht, he] at hanswer
      refine ⟨m, ?_, by simp only [advance, ht, he], hroot⟩
      rw [program, make, Program.step_call _ hanswer]
      simp only [advance, ht, he]
      rfl

/-- Every call of a repair is one step of its stage, while the root stands, the source stays the
same, and no directory is in the place of the link. -/
theorem follows (hroot : l.Rooted m) (hsource : l.sourceOn m = source)
    (hdir : l.entry m ≠ some .dir) (s : Stage) : s.Follows children l source m := by
  cases s with
  | asking =>
    refine ⟨m, ?_, rfl, hroot⟩
    rw [program, run_ensure, Program.step_call _ rfl]
    -- which source it is, is settled by this call for the rest of the repair
    change (read (l.sourceOn m) l.environLink, m) = _
    rw [hsource]
    rfl
  | reading =>
    refine ⟨m, ?_, rfl, hroot⟩
    rw [program, read, Program.step_call _ (hroot.answer_readLink children)]
    cases hl : leadsTo source (Layout.linkReply (l.entry m)).toOption with
    | true =>
      simp only [advance, Layout.leadsTo, hl, if_true]
      rfl
    | false =>
      simp only [advance, Layout.leadsTo, hl, Bool.false_eq_true, if_false]
      rfl
  | looking previous =>
    refine ⟨m, ?_, rfl, hroot⟩
    rw [program, look, Program.step_call _ (hroot.answer_standsAt children)]
    simp only [advance]
    split <;> rfl
  | clearing previous => exact follows_clearing children hroot hdir previous
  | making previous => exact follows_making children hroot previous
  | checking previous =>
    refine ⟨m, ?_, rfl, hroot⟩
    rw [program, checkAgain, Program.step_call _ (hroot.answer_readLink children)]
    rfl
  | returned result => exact ⟨m, rfl, rfl, hroot⟩

end Stage

end Caretaker.Repair

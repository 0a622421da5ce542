import Caretaker.Proofs.Attempts
import Caretaker.Proofs.ManagedLink.Protocol

/-!
# What a repair achieves

A repair that succeeds leaves a link that leads to the source, on any machine whatever: either it
has read the link and found it right, and then it has touched nothing, or it has made it.
-/

namespace Caretaker

open FileSystem

namespace Repair

/-- A link can be read, and it has the components of a source. -/
def IsRight (source link : Path) (m : Machine) : Prop :=
  ∃ text, m.files.readLink m.cwd link = .ok text ∧ text.same source

/-! ## Calls and results -/

section
variable (source link : Path) (previous : Option Path)

/-- Once the link has been found wrong, repairing has to do with files only, and does not end as if
it had been right. -/
lemma conforms_make :
    (make source link previous).Conforms (·.onFiles) (· ≠ .ok .current) := by
  have hagain : (checkAgain source link previous).Conforms (·.onFiles) (· ≠ .ok .current) := by
    refine ⟨rfl, fun r => ?_⟩
    change (if _ then _ else _) ≠ _
    split <;> exact nofun
  refine ⟨rfl, fun r => ?_⟩
  rcases r with e | _
  · dsimp only
    split
    · exact hagain
    · exact nofun
  · exact nofun

/-- So does clearing the entry, -/
lemma conforms_clear :
    (clear source link previous).Conforms (·.onFiles) (· ≠ .ok .current) := by
  refine ⟨rfl, fun r => ?_⟩
  rcases r with e | _
  · dsimp only
    split
    · exact conforms_make source link previous
    · exact nofun
  · exact conforms_make source link previous

/-- and looking whether it is to be cleared. -/
lemma conforms_look :
    (look source link previous).Conforms (·.onFiles) (· ≠ .ok .current) := by
  refine ⟨rfl, fun stands => ?_⟩
  cases stands with
  | false => exact conforms_make source link previous
  | true => exact conforms_clear source link previous

lemma only_read : (read source link).Only (·.onFiles) := by
  refine ⟨rfl, fun r => ?_⟩
  dsimp only
  split
  · trivial
  · exact (conforms_look source link _).only

end

/-! ## The link that is left -/

section
variable {source link : Path} {previous : Option Path} {m : Machine} {status : LinkStatus}
  (children : Children)

/-- A link that was right has been left alone. -/
theorem eq_of_current (h : (m.run children (read source link)).1 = .ok .current) :
    (m.run children (read source link)).2 = m := by
  have hanswer : Machine.answer children (.readLink link) m =
      (m.files.readLink m.cwd link, m) := rfl
  rw [read, m.run_call children _ hanswer] at h ⊢
  split_ifs at h ⊢
  · rfl
  · exact absurd h (m.run_of_conforms children (conforms_look source link _))

lemma isRight_of_leadsTo
    (h : LinkStatus.leadsTo source (m.files.readLink m.cwd link).toOption) :
    IsRight source link m := by
  cases hr : m.files.readLink m.cwd link with
  | error e =>
    rw [hr] at h
    cases h
  | ok text =>
    rw [hr] at h
    exact ⟨text, hr, h⟩

lemma isRight_of_checkAgain
    (h : (m.run children (checkAgain source link previous)).1 = .ok status) :
    IsRight source link (m.run children (checkAgain source link previous)).2 := by
  refine isRight_of_leadsTo ?_
  change (if LinkStatus.leadsTo source (m.files.readLink m.cwd link).toOption then _ else _) = _
    at h
  split at h
  · assumption
  · cases h

lemma isRight_of_make (h : (m.run children (make source link previous)).1 = .ok status) :
    IsRight source link (m.run children (make source link previous)).2 := by
  cases hmake : m.files.makeLink m.cwd source link with
  | ok files =>
    have hanswer : Machine.answer children (.makeLink source link) m =
        (.ok (), { m with files := files }) := by rw [Machine.answer, hmake, Machine.change]
    rw [make, m.run_call children _ hanswer]
    exact ⟨source, readLink_of_makeLink hmake, beq_self_eq_true source.components⟩
  | error e =>
    have hanswer : Machine.answer children (.makeLink source link) m = (.error e, m) := by
      rw [Machine.answer, hmake, Machine.change]
    rw [make, m.run_call children _ hanswer] at h ⊢
    dsimp only at h ⊢
    -- the link can be there already although none was found before
    split_ifs at h ⊢ with he
    · exact isRight_of_checkAgain children h
    · cases h

lemma isRight_of_clear (h : (m.run children (clear source link previous)).1 = .ok status) :
    IsRight source link (m.run children (clear source link previous)).2 := by
  rcases hanswer : Machine.answer children (.remove link) m with ⟨_ | _, m'⟩
  all_goals
    rw [clear, m.run_call children _ hanswer] at h ⊢
    dsimp only at h ⊢
  · split_ifs at h ⊢ with he
    · exact isRight_of_make children h
    · cases h
  · exact isRight_of_make children h

lemma isRight_of_look (h : (m.run children (look source link previous)).1 = .ok status) :
    IsRight source link (m.run children (look source link previous)).2 := by
  rcases hanswer : Machine.answer children (.standsAt link) m with ⟨_ | _, m'⟩
  all_goals rw [look, m.run_call children _ hanswer] at h ⊢
  · exact isRight_of_make children h
  · exact isRight_of_clear children h

/-- A repair that succeeds from its first look leaves the link right. -/
lemma isRight_of_read (h : (m.run children (read source link)).1 = .ok status) :
    IsRight source link (m.run children (read source link)).2 := by
  have hanswer : Machine.answer children (.readLink link) m =
      (m.files.readLink m.cwd link, m) := rfl
  rw [read, m.run_call children _ hanswer] at h ⊢
  split_ifs at h ⊢ with hright
  · exact isRight_of_leadsTo hright
  · exact isRight_of_look children h

end
end Repair

lemma LinkStatus.onFiles_ensure (l : Layout) : Action.Only (·.onFiles) (ensure l) := by
  rw [Action.Only, Repair.run_ensure]
  exact ⟨rfl, fun found => Repair.only_read _ _⟩

lemma LinkStatus.only_ensure (l : Layout) : Action.Only (¬ ·.starts) (ensure l) :=
  (onFiles_ensure l).mono fun _ => Call.not_starts_of_onFiles

/-- A link that was right has been left alone, and everything else too. -/
theorem LinkStatus.eq_of_current {l : Layout} {m : Machine} (children : Children)
    (h : (m.runAction children (ensure l)).1 = .ok .current) :
    (m.runAction children (ensure l)).2 = m := by
  rw [Machine.runAction, Repair.run_ensure] at h ⊢
  exact Repair.eq_of_current children h

/-- A repair that succeeds leaves the link right. -/
theorem LinkStatus.isRight_of_ensure {l : Layout} {m : Machine} {status : LinkStatus}
    (children : Children) (h : (m.runAction children (ensure l)).1 = .ok status) :
    Repair.IsRight (l.sourceOn m) l.environLink (m.runAction children (ensure l)).2 := by
  rw [Machine.runAction, Repair.run_ensure] at h ⊢
  exact Repair.isRight_of_read children h

end Caretaker

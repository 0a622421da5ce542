import Caretaker.Proofs.ManagedLink.Concurrency
import Caretaker.Proofs.ManagedLink.Course

/-!
# Repairs in a world that fails

Any call that a repair makes may fail, and then it has done nothing. A repair that ends in an error
leaves everything as it was, unless it has already removed a wrong entry: there is no way back from
that.
-/

namespace Caretaker

open FileSystem

/-! ## Calls that fail -/

/-- How a call is answered that fails: with the failure, or with a no where it asks a question. A
call that does not go to the operating system does not fail. -/
def Call.failed? (e : IoFault) : (c : Call) → Option c.Reply
  | readLink _ => some (.error e)
  | standsAt _ => some false
  | remove _ => some (.error e)
  | makeLink .. => some (.error e)
  | isFile _ => some false
  | isDir _ => some false
  | readText _ => some (.error e)
  | list _ => some (.error e)
  | canonical _ => some (.error e)
  | launch _ => some (.error e)
  | bindings => none
  | setVariable .. => none
  | executableDir => none
  | isTerminal _ => none
  | print .. => none

namespace Machine

variable {α : Type} (children : Children) (faults : ℕ → Option IoFault)

/-- Answer a call on a machine on which so many calls have been made, where some of the calls fail.
A call that fails changes nothing. -/
def answerFailing (c : Call) (s : Machine × ℕ) : c.Reply × (Machine × ℕ) :=
  match (faults s.2).bind fun e => c.failed? e with
  | some r => (r, s.1, s.2 + 1)
  | none => ((answer children c s.1).1, (answer children c s.1).2, s.2 + 1)

/-- Run a program on a machine on which so many calls have been made, where some calls fail. -/
def runFailing (m : Machine) (k : ℕ) (p : Program α) : α × (Machine × ℕ) :=
  p.run (answerFailing children faults) (m, k)

variable (m : Machine) (k : ℕ)

lemma runFailing_call (c : Call) (next : c.Reply → Program α) :
    m.runFailing children faults k (.call c next) =
      (answerFailing children faults c (m, k)).2.1.runFailing children faults (k + 1)
        (next (answerFailing children faults c (m, k)).1) := by
  have hcount : (answerFailing children faults c (m, k)).2.2 = k + 1 := by
    rw [answerFailing]
    split <;> rfl
  rw [runFailing, Program.run_call, runFailing, ← hcount]

/-- A call that is not to fail is answered by the machine, -/
lemma answerFailing_of_none {c : Call} (h : faults k = none) :
    answerFailing children faults c (m, k) =
      ((answer children c m).1, (answer children c m).2, k + 1) := by
  rw [answerFailing, h]
  rfl

/-- and one that is to fail leaves the machine as it is. -/
lemma answerFailing_of_some {c : Call} {e : IoFault} {r : c.Reply} (h : faults k = some e)
    (hr : c.failed? e = some r) : answerFailing children faults c (m, k) = (r, m, k + 1) := by
  rw [answerFailing, h]
  dsimp only [Option.bind_some]
  rw [hr]

/-- Where no call fails, a program runs as it does on the machine alone. -/
theorem exists_runFailing_eq (p : Program α) : ∃ calls,
    m.runFailing children (fun _ => none) k p =
      ((m.run children p).1, (m.run children p).2, calls) := by
  induction p generalizing m k with
  | done a => exact ⟨k, rfl⟩
  | call c next ih =>
    rw [runFailing_call, answerFailing_of_none children _ m k rfl]
    exact ih _ _ _

/-- A call that only looks changes nothing, whether it fails or not. -/
lemma answerFailing_of_looks {c : Call} (hc : c.looks) :
    (answerFailing children faults c (m, k)).2.1 = m := by
  rw [answerFailing]
  split
  · rfl
  · exact answer_of_looks children m hc

lemma change_of_error {r : Except IoFault FileSystem} {e : IoFault}
    (h : (m.change r).1 = .error e) : (m.change r).2 = m := by
  cases r with
  | ok files => cases h
  | error e' => rfl

/-- A link that is not made changes nothing. -/
lemma answerFailing_makeLink_of_error {target link : Path} {e : IoFault}
    (h : (answerFailing children faults (.makeLink target link) (m, k)).1 = .error e) :
    (answerFailing children faults (.makeLink target link) (m, k)).2.1 = m := by
  cases hf : faults k with
  | some e' => rw [answerFailing_of_some children faults m k hf rfl]
  | none =>
    rw [answerFailing_of_none children faults m k hf] at h ⊢
    exact change_of_error m h

end Machine

/-! ## Repairs that end in an error -/

namespace Repair

variable {l : Layout} {m : Machine} {source link : Path} {previous : Option Path} {f : Fault}
  (children : Children) (faults : ℕ → Option IoFault) (k : ℕ)

lemma eq_of_checkAgain :
    (m.runFailing children faults k (checkAgain source link previous)).2.1 = m := by
  rw [checkAgain, Machine.runFailing_call]
  exact Machine.answerFailing_of_looks children faults m k rfl

/-- A repair that does not make the link leaves it at that. -/
lemma eq_of_make_error
    (h : (m.runFailing children faults k (make source link previous)).1 = .error f) :
    (m.runFailing children faults k (make source link previous)).2.1 = m := by
  rw [make, Machine.runFailing_call] at h ⊢
  cases hreply : (Machine.answerFailing children faults (.makeLink source link) (m, k)).1 with
  | ok _ =>
    rw [hreply] at h
    cases h
  | error e =>
    have hsame := Machine.answerFailing_makeLink_of_error children faults m k hreply
    rw [hreply] at h
    rw [hsame] at h ⊢
    dsimp only at h ⊢
    split_ifs at h ⊢ with he
    -- the second look at what is there already changes nothing
    · exact eq_of_checkAgain children faults (k + 1)
    · rfl

/-- What a repair has removed by then stays removed. -/
lemma eq_of_clear_error
    (h : (m.runFailing children faults k (clear source link previous)).1 = .error f) :
    (m.runFailing children faults k (clear source link previous)).2.1 =
      (Machine.answerFailing children faults (.remove link) (m, k)).2.1 := by
  rw [clear, Machine.runFailing_call] at h ⊢
  cases hreply : (Machine.answerFailing children faults (.remove link) (m, k)).1 with
  | ok _ =>
    rw [hreply] at h
    exact eq_of_make_error children faults (k + 1) h
  | error e =>
    rw [hreply] at h
    dsimp only at h ⊢
    split_ifs at h ⊢ with he
    -- an entry that is gone already counts as removed, and the repair goes on
    · exact eq_of_make_error children faults (k + 1) h
    · rfl

/-- A repair removes an entry only if it has seen one. -/
lemma eq_of_look_error
    (h : (m.runFailing children faults k (look source link previous)).1 = .error f) :
    (m.runFailing children faults k (look source link previous)).2.1 =
      if (Machine.answerFailing children faults (.standsAt link) (m, k)).1 then
        (Machine.answerFailing children faults (.remove link) (m, k + 1)).2.1
      else m := by
  rw [look, Machine.runFailing_call] at h ⊢
  rw [Machine.answerFailing_of_looks children faults m k rfl] at h ⊢
  split_ifs at h ⊢ with hstands
  · exact eq_of_clear_error children faults (k + 1) h
  · exact eq_of_make_error children faults (k + 1) h

/-- A repair that fails leaves what its removal of the entry has left, if it came to one, -/
lemma eq_of_read_error
    (h : (m.runFailing children faults k (read source link)).1 = .error f) :
    (m.runFailing children faults k (read source link)).2.1 =
      if (Machine.answerFailing children faults (.standsAt link) (m, k + 1)).1 then
        (Machine.answerFailing children faults (.remove link) (m, k + 2)).2.1
      else m := by
  rw [read, Machine.runFailing_call] at h ⊢
  rw [Machine.answerFailing_of_looks children faults m k rfl] at h ⊢
  split_ifs at h with hright
  · cases h
  · rw [if_neg hright]
    exact eq_of_look_error children faults (k + 1) h

/-- and so does one that has asked for the source first. -/
lemma eq_of_ensure_error
    (h : (m.runFailing children faults 0 (LinkStatus.ensure l).run).1 = .error f) :
    (m.runFailing children faults 0 (LinkStatus.ensure l).run).2.1 =
      if (Machine.answerFailing children faults (.standsAt l.environLink) (m, 2)).1 then
        (Machine.answerFailing children faults (.remove l.environLink) (m, 3)).2.1
      else m := by
  rw [run_ensure, Machine.runFailing_call] at h ⊢
  rw [Machine.answerFailing_of_looks children faults m 0 rfl] at h ⊢
  exact eq_of_read_error children faults 1 h

/-! ## What is lost -/

/-- The removal of a wrong entry has been carried out: neither the third call of the repair, which
sees the entry, nor the fourth, which removes it, has failed. -/
def Removes (faults : ℕ → Option IoFault) (l : Layout) (m : Machine) : Prop :=
  faults 2 = none ∧ faults 3 = none ∧ ∃ e, l.entry m = some e ∧ e ≠ .dir

/-- The machine that is left by a repair which has failed. -/
structure Remnant (faults : ℕ → Option IoFault) (l : Layout) (m m' : Machine) : Prop where
  /-- Either everything is as it was, -/
  kept : ¬ Removes faults l m → m' = m
  /-- or the entry is gone, and nothing else. -/
  lost : Removes faults l m → l.entry m' = none ∧ ∃ place,
    m.files.locate m.cwd false l.environLink = .ok place ∧
      m' = { m with files := m.files.clear place }

lemma answerFailing_standsAt :
    (Machine.answerFailing children faults (.standsAt l.environLink) (m, k)).1 =
      ((faults k).isNone && (l.entry m).isSome) := by
  cases hf : faults k with
  | some e =>
    rw [Machine.answerFailing_of_some children faults m k hf rfl]
    rfl
  | none =>
    rw [Machine.answerFailing_of_none children faults m k hf, Machine.answer,
      Layout.standsAt_environLink]
    rfl

/-- The machine after a call to remove the entry: the entry is gone, unless the call has failed or a
directory stands there. -/
lemma answerFailing_remove {place : Place} {e : Entry}
    (hplace : m.files.locate m.cwd false l.environLink = .ok place)
    (he : m.files.get? place = some e) :
    (Machine.answerFailing children faults (.remove l.environLink) (m, k)).2.1 =
      if faults k = none ∧ e ≠ .dir then { m with files := m.files.clear place } else m := by
  cases hf : faults k with
  | some refusal =>
    rw [Machine.answerFailing_of_some children faults m k hf rfl, if_neg (by simp)]
  | none =>
    rw [Machine.answerFailing_of_none children faults m k hf, Machine.answer, FileSystem.remove,
      find_eq_ok_iff.mpr ⟨hplace, he⟩]
    cases e <;> rfl

/-- The entry is removed if neither the look at it nor its removal fails, and it is no directory. -/
lemma removes_iff {e : Entry} (he : l.entry m = some e) :
    Removes faults l m ↔ faults 2 = none ∧ faults 3 = none ∧ e ≠ .dir := by
  simp [Removes, he]

/-- Whichever calls fail, and whatever the layout and the entry are: a repair that ends in an error
has changed nothing, or it has removed the entry and nothing else. -/
theorem remnant_of_error
    (h : (m.runFailing children faults 0 (LinkStatus.ensure l).run).1 = .error f) :
    Remnant faults l m (m.runFailing children faults 0 (LinkStatus.ensure l).run).2.1 := by
  have hsame : ¬ Removes faults l m → Remnant faults l m m :=
    fun hnot => ⟨fun _ => rfl, fun hremoves => absurd hremoves hnot⟩
  rw [eq_of_ensure_error children faults h, answerFailing_standsAt]
  cases hentry : l.entry m with
  | none =>
    rw [Option.isSome_none, Bool.and_false, if_neg Bool.false_ne_true]
    refine hsame ?_
    rintro ⟨-, -, e, he, -⟩
    cases hentry.symm.trans he
  | some e =>
    obtain ⟨place, hplace, hget⟩ := Layout.exists_of_entry hentry
    have hiff := removes_iff faults hentry
    rw [answerFailing_remove children faults 3 hplace hget]
    -- the entry goes if it has been seen and the removal has been carried out
    split_ifs with hseen hcarried
    · have hlooks : faults 2 = none := by simpa using hseen
      have hgone := (Layout.Clears.removed hplace hget hcarried.2).entry_eq
      refine ⟨fun hnot => ?_, fun _ => ⟨hgone, place, hplace, rfl⟩⟩
      exact absurd (hiff.mpr ⟨hlooks, hcarried⟩) hnot
    · exact hsame fun hremoves => hcarried (hiff.mp hremoves).2
    · exact hsame fun hremoves => hseen (by simp [(hiff.mp hremoves).1])

/-- The device is full just when the link is to be made, and the old link is lost. -/
theorem remnant_of_full_device :
    (staleMachine.runFailing .absent (fun k => if k = 4 then some (.os 28) else none) 0
        (LinkStatus.ensure (staleLayout "new.sh")).run).1 =
      .error (.linkFailed ⟨"/r/environ.sh".toList⟩ ⟨"/r/new.sh".toList⟩ (.os 28)) ∧
    Remnant (fun k => if k = 4 then some (.os 28) else none) (staleLayout "new.sh") staleMachine
      (staleMachine.runFailing .absent (fun k => if k = 4 then some (.os 28) else none) 0
        (LinkStatus.ensure (staleLayout "new.sh")).run).2.1 ∧
    Removes (fun k => if k = 4 then some (.os 28) else none) (staleLayout "new.sh")
      staleMachine := by
  have herror : (staleMachine.runFailing .absent (fun k => if k = 4 then some (.os 28) else none) 0
        (LinkStatus.ensure (staleLayout "new.sh")).run).1 =
      .error (.linkFailed ⟨"/r/environ.sh".toList⟩ ⟨"/r/new.sh".toList⟩ (.os 28)) := by cbv
  have hentry : (staleLayout "new.sh").entry staleMachine =
      some (.link "/old/environ.sh".toList) := by cbv
  exact ⟨herror, remnant_of_error .absent _ herror, rfl, rfl, _, hentry, by simp⟩

/-- Even where no call fails on its own account: a source that may not be the text of a link is
refused only after the old link has been removed. -/
theorem exists_half_done :
    (staleLayout "a\x00b").entry staleMachine = some (.link "/old/environ.sh".toList) ∧
    staleMachine.runAction .absent (LinkStatus.ensure (staleLayout "a\x00b")) =
      (.error (.linkFailed ⟨"/r/environ.sh".toList⟩ ⟨"/r/a\x00b".toList⟩ .nulInPath),
        .holding [([.text "r".toList], .dir)]) ∧
    (staleLayout "a\x00b").entry (.holding [([.text "r".toList], .dir)]) = none :=
  ⟨by cbv, by cbv, by cbv⟩

end Repair
end Caretaker

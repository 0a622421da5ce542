import Caretaker.Proofs.ManagedLink.Concurrency
import Caretaker.Proofs.ManagedLink.Gap

/-!
# What a repair puts up with

No repair waits for another one: each of them returns by its sixth turn. A repair that could not
make the link looks at it again, and fails only if another one has taken the right link away in
between. So the other one had found a stale link before, and somebody else had made the right one:
it takes three repairs for one to fail, and the two others succeed.
-/

namespace Caretaker.Repair

open FileSystem LinkStatus

variable {l : Layout} {source : Path} {e : Option Entry} {s : Stage}

/-! ## Calls that are left -/

namespace Stage

/-- How many calls a repair has yet to make at most. -/
def callsLeft : Stage → ℕ
  | asking => 6
  | reading => 5
  | looking _ => 4
  | clearing _ => 3
  | making _ => 2
  | checking _ => 1
  | returned _ => 0

lemma callsLeft_advance (s : Stage) (e : Option Entry) :
    (s.advance l source e).1.callsLeft ≤ s.callsLeft - 1 := by
  cases s with
  | asking => exact Nat.le_refl _
  | reading =>
    simp only [advance]
    split
    · exact Nat.zero_le _
    · exact Nat.le_refl _
  | looking previous =>
    simp only [advance]
    split
    · exact Nat.le_refl _
    · exact Nat.le_succ _
  | clearing previous => exact Nat.le_refl _
  | making previous =>
    rcases advance_making l source e previous with ⟨_, -, h⟩ | ⟨-, -, h⟩ | ⟨-, -, h⟩ <;> rw [h]
    · exact Nat.zero_le _
    · exact Nat.le_refl _
    · exact Nat.zero_le _
  | checking previous => exact Nat.le_refl _
  | returned result => exact Nat.le_refl _

lemma exists_returned_of_callsLeft (h : s.callsLeft = 0) : ∃ result, s = returned result := by
  cases s with
  | returned result => exact ⟨result, rfl⟩
  | _ => cases h

end Stage

namespace Race

variable {r : Race} {i : ℕ}

/-- A turn of a repair takes one of the calls that it has left. -/
lemma callsLeft_turn {k : ℕ} (h : (r.turn l source k).stages[i]? = some s) :
    ∃ t, r.stages[i]? = some t ∧ s.callsLeft ≤ t.callsLeft - [k].count i := by
  rcases exists_stage_of_turn h with ⟨rfl, t, hk, rfl⟩ | ⟨hik, h⟩
  · rw [List.count_singleton_self]
    exact ⟨t, hk, t.callsLeft_advance r.entry⟩
  · rw [List.count_singleton, if_neg (by simpa using hik.symm)]
    exact ⟨s, h, Nat.le_refl _⟩

/-- Whatever the others do, after six turns no call is left. -/
lemma callsLeft_after (n : ℕ) {schedule : List ℕ}
    (h : (after l source ⟨e, List.replicate n .asking⟩ schedule).stages[i]? = some s) :
    s.callsLeft ≤ 6 - schedule.count i := by
  induction schedule using List.reverseRecOn generalizing s with
  | nil =>
    rw [stage_start h]
    exact Nat.le_refl _
  | append_singleton before k ih =>
    rw [after_append] at h
    obtain ⟨t, ht, hstep⟩ := callsLeft_turn h
    have hbefore := ih ht
    rw [List.count_append]
    omega

lemma returned_after {result : Except Fault LinkStatus}
    (h : r.stages[i]? = some (.returned result)) (schedule : List ℕ) :
    (r.after l source schedule).stages[i]? = some (.returned result) := by
  refine after_of_turn (P := (·.stages[i]? = some (Stage.returned result))) (fun r j h => ?_) h
    schedule
  by_cases hj : j = i
  · rw [hj, stages_turn_self h]
    rfl
  · rwa [stages_turn_of_ne (Ne.symm hj)]

/-! ## Repairs that have made the link -/

/-- Where the link was wrong and is right in the end, a repair has succeeded that had not returned
before. -/
lemma exists_maker {schedule : List ℕ} (hwrong : ¬ Layout.leadsTo source r.entry)
    (hright : Layout.leadsTo source (r.after l source schedule).entry) :
    ∃ (k : ℕ) (status : LinkStatus),
      (r.after l source schedule).stages[k]? = some (.returned (.ok status)) ∧
      ∀ result, r.stages[k]? ≠ some (.returned result) := by
  induction schedule using List.reverseRecOn with
  | nil => exact absurd hright hwrong
  | append_singleton before k ih =>
    rw [after_append] at hright ⊢
    by_cases hbefore : Layout.leadsTo source (r.after l source before).entry
    · obtain ⟨j, status, hj, hfresh⟩ := ih hbefore
      exact ⟨j, status, returned_after hj [k], hfresh⟩
    change Layout.leadsTo source (turn l source _ k).entry at hright
    cases hk : (r.after l source before).stages[k]? with
    | none =>
      rw [turn_of_none hk] at hright
      exact absurd hright hbefore
    | some s =>
      rw [entry_turn hk] at hright
      obtain ⟨status, hreturned⟩ := Stage.returned_of_right hbefore hright
      refine ⟨k, status, ?_, fun result hk' => ?_⟩
      · exact (stages_turn_self hk).trans (congrArg some hreturned)
      · -- a repair that had returned would not have changed the entry
        obtain rfl : Stage.returned result = s :=
          Option.some.inj ((returned_after hk' before).symm.trans hk)
        exact hbefore hright

/-! ## Repairs that are overtaken -/

/-- How a repair is overtaken by another one, in a history that says for each sequence of turns
whether it waits to look at the link again, and which entry stands there. The right link stands
first, the other repair takes it away, and there is none when the time has come to look. -/
structure Overtakes (source : Path) (waits : List ℕ → Prop) (entry : List ℕ → Option Entry)
    (i j : ℕ) (before between : List ℕ) : Prop where
  other : j ≠ i
  waiting : waits before
  right : Layout.leadsTo source (entry before)
  taken : entry (before ++ [j]) = none
  waited : waits (before ++ j :: between)
  gone : entry (before ++ j :: between) = none

/-- The history of a repair in a race. -/
def Overtaken (l : Layout) (source : Path) (r : Race) (i j : ℕ) (previous : Option Path)
    (before between : List ℕ) : Prop :=
  Overtakes source
    (fun turns => (r.after l source turns).stages[i]? = some (Stage.checking previous))
    (fun turns => (r.after l source turns).entry) i j before between

variable {initial : Option Entry}

/-- A repair that waits to look at the link again finds the right one or none. -/
lemma Sound.eq_none_of_checking (h : Sound l source initial r) {previous : Option Path}
    (hi : r.stages[i]? = some (.checking previous)) (hwrong : ¬ Layout.leadsTo source r.entry) :
    r.entry = none := by
  refine (h.gone i _ hi trivial).resolve_right fun he => hwrong ?_
  rw [he]
  exact Layout.leadsTo_link_self source

/-- A repair that waits to look at the link again after a turn has found the right one in that turn,
or has waited before it. -/
lemma Sound.checking_of_turn (h : Sound l source initial r) {k : ℕ} {previous : Option Path}
    (hi : (r.turn l source k).stages[i]? = some (.checking previous)) :
    Layout.leadsTo source (r.turn l source k).entry ∨
      (k ≠ i ∧ r.stages[i]? = some (.checking previous)) := by
  rcases exists_stage_of_turn hi with ⟨rfl, s, hk, hs⟩ | ⟨hik, hbefore⟩
  · obtain ⟨rfl, hsome, hsame⟩ := Stage.checking_advance hs.symm
    rw [entry_turn hk, hsame]
    exact Or.inl (h.right_of_making hk hsome)
  · exact Or.inr ⟨hik.symm, hbefore⟩

/-- While a repair waits to look at the link again, the link is right unless the repair has been
overtaken. -/
lemma exists_overtaken_of_checking (hsound : Sound l source initial r)
    (hstart : ∀ previous, r.stages[i]? ≠ some (.checking previous)) {schedule : List ℕ}
    {previous : Option Path}
    (hi : (r.after l source schedule).stages[i]? = some (.checking previous))
    (hwrong : ¬ Layout.leadsTo source (r.after l source schedule).entry) :
    ∃ before j between, schedule = before ++ j :: between ∧
      Overtaken l source r i j previous before between := by
  induction schedule using List.reverseRecOn with
  | nil => exact absurd hi (hstart previous)
  | append_singleton before k ih =>
    have hnone := (hsound.after (before ++ [k])).eq_none_of_checking hi hwrong
    have hturn : r.after l source (before ++ [k]) = (r.after l source before).turn l source k :=
      after_append before [k]
    have hwaited := hi
    rw [hturn] at hwaited hwrong
    obtain ⟨hki, hbefore⟩ := ((hsound.after before).checking_of_turn hwaited).resolve_left hwrong
    by_cases hright : Layout.leadsTo source (r.after l source before).entry
    · exact ⟨before, k, [], rfl, hki, hbefore, hright, hnone, hi, hnone⟩
    · obtain ⟨b, j, between, rfl, h⟩ := ih hbefore hright
      rw [List.append_assoc, List.cons_append] at hi hnone
      exact ⟨b, j, between ++ [k], by simp, h.other, h.waiting, h.right, h.taken, hi, hnone⟩

/-- A repair fails only if it has been overtaken, unless the text of the link is refused. -/
theorem exists_overtaken_of_fault (hsound : Sound l source initial r)
    (hstart : ∀ s, r.stages[i]? = some s → s = .asking)
    (haccepted : linkText source = .ok source.text) {schedule : List ℕ} {f : Fault}
    (hi : (r.after l source schedule).stages[i]? = some (.returned (.error f))) :
    ∃ before j between rest previous, schedule = before ++ j :: (between ++ i :: rest) ∧
      Overtaken l source r i j previous before between := by
  induction schedule using List.reverseRecOn with
  | nil => cases hstart _ hi
  | append_singleton before k ih =>
    have hturn : r.after l source (before ++ [k]) = (r.after l source before).turn l source k :=
      after_append before [k]
    -- a repair that had failed already was overtaken then
    have hold (h : (r.after l source before).stages[i]? = some (.returned (.error f))) :
        ∃ b j between rest previous, before ++ [k] = b ++ j :: (between ++ i :: rest) ∧
          Overtaken l source r i j previous b between := by
      obtain ⟨b, j, between, rest, previous, rfl, hover⟩ := ih h
      exact ⟨b, j, between, rest ++ [k], previous, by simp, hover⟩
    rw [hturn] at hi
    rcases exists_stage_of_turn hi with ⟨rfl, s, hk, hs⟩ | ⟨-, hbefore⟩
    · rcases Stage.fault_advance hs.symm with
        rfl | ⟨refusal, hrefused, -⟩ | ⟨⟨previous, rfl⟩, hwrong, -⟩
      · exact hold hk
      · cases haccepted.symm.trans hrefused
      · obtain ⟨b, j, between, rfl, hover⟩ := exists_overtaken_of_checking hsound
          (fun previous h => nomatch hstart _ h) hk hwrong
        exact ⟨b, j, between, [], previous, by simp, hover⟩
    · exact hold hbefore

/-- The right link that is taken away had been made by one repair, and it is made again by another
one if it stands in the end. -/
theorem Overtaken.exists_two_won {j : ℕ} {previous : Option Path} {before between later : List ℕ}
    (h : Overtaken l source r i j previous before between) (hsound : Sound l source r.entry r)
    (hend : Layout.leadsTo source (r.after l source (before ++ j :: later)).entry) :
    ∃ (k k' : ℕ) (status status' : LinkStatus), k ≠ k' ∧
      (r.after l source (before ++ j :: later)).stages[k]? = some (.returned (.ok status)) ∧
      (r.after l source (before ++ j :: later)).stages[k']? = some (.returned (.ok status')) := by
  have hwrong : ¬ Layout.leadsTo source r.entry := fun hright =>
    ((hsound.after before).right hright).2 i _ h.waiting
  have hsplit : r.after l source (before ++ j :: later) =
      (r.after l source (before ++ [j])).after l source later := by
    rw [← after_append, List.append_assoc]
    rfl
  -- one repair has made the link in front of the gap, and another one makes it behind it
  obtain ⟨k, status, hk, -⟩ := exists_maker hwrong h.right
  have hk' : (r.after l source (before ++ [j])).stages[k]? = some (.returned (.ok status)) := by
    rw [after_append]
    exact returned_after hk [j]
  have hgap : ¬ Layout.leadsTo source (r.after l source (before ++ [j])).entry := by
    rw [h.taken]
    exact not_leadsTo_none
  rw [hsplit] at hend ⊢
  obtain ⟨k', status', hmade, hfresh⟩ := exists_maker hgap hend
  refine ⟨k, k', status, status', ?_, returned_after hk' later, hmade⟩
  rintro rfl
  exact hfresh _ hk'

end Race

/-! ## Repairs on a machine -/

variable {m : Machine} {n i : ℕ} {schedule : List ℕ} (children : Children)

/-- A repair that has a result has returned it in the race, -/
lemma Shows.stage_of_program {c : Crew (Except Fault LinkStatus)} {r : Race}
    (h : Shows l source c r) {result : Except Fault LinkStatus}
    (hi : c.programs[i]? = some (.done result)) : r.stages[i]? = some (.returned result) := by
  rw [h.programs, List.getElem?_map, Option.map_eq_some_iff] at hi
  obtain ⟨s, hs, hdone⟩ := hi
  rw [hs, Stage.eq_returned_of_program hdone]

/-- and the program of each stage is what is left to do. -/
lemma Shows.program_of_stage {c : Crew (Except Fault LinkStatus)} {r : Race}
    (h : Shows l source c r) (hi : r.stages[i]? = some s) :
    c.programs[i]? = some (s.program l source) := by
  rw [h.programs, List.getElem?_map, hi]
  rfl

/-- A repair that looks at the link again and finds none fails. -/
lemma Shows.failed_of_gone {c : Crew (Except Fault LinkStatus)} {r : Race}
    (h : Shows l source c r) {previous : Option Path}
    (hi : c.programs[i]? = some (checkAgain source l.environLink previous))
    (hgone : l.entry c.machine = none) : (c.turn children i).programs[i]? =
      some (.done (.error (.linkFailed l.environLink source .alreadyExists))) := by
  have hanswer := h.rooted.answer_readLink children
  rw [hgone] at hanswer
  have hlength := (List.getElem?_eq_some_iff.mp hi).1
  rw [Crew.turn, hi]
  dsimp only
  rw [checkAgain, Program.step_call _ hanswer]
  exact List.getElem?_set_self hlength

/-- The history of a repair that is overtaken on a machine. -/
def Overtaken (l : Layout) (m : Machine) (n i j : ℕ) (previous : Option Path)
    (before between : List ℕ) : Prop :=
  Race.Overtakes (l.sourceOn m)
    (fun turns => ((repairs l m n).after children turns).programs[i]? =
      some (checkAgain (l.sourceOn m) l.environLink previous))
    (fun turns => l.entry ((repairs l m n).after children turns).machine) i j before between

section
variable (hshows : ∀ before, before <+: schedule → Shows l (l.sourceOn m)
  ((repairs l m n).after children before) ((race l m n).after l (l.sourceOn m) before))
include hshows

/-- A repair has a result once it has had six turns. -/
lemma exists_result_of_count (hi : i < n) (hcount : 6 ≤ schedule.count i) :
    ∃ result, ((repairs l m n).after children schedule).programs[i]? = some (.done result) := by
  have hlt : i < ((race l m n).after l (l.sourceOn m) schedule).stages.length := by
    rw [Race.length_stages_after]
    simpa [race] using hi
  have hsome := List.getElem?_eq_getElem hlt
  have hleft := Race.callsLeft_after n hsome
  have hnone : Stage.callsLeft _ = 0 := Nat.le_zero.mp (hleft.trans (by omega))
  obtain ⟨result, hreturned⟩ := Stage.exists_returned_of_callsLeft hnone
  rw [hreturned] at hsome
  exact ⟨result, (hshows schedule List.prefix_rfl).program_of_stage hsome⟩

/-- Up to two repairs do not fail. -/
lemma three_le_of_fault (haccepted : linkText (l.sourceOn m) = .ok (l.sourceOn m).text)
    {f : Fault}
    (hi : ((repairs l m n).after children schedule).programs[i]? = some (.done (.error f))) :
    3 ≤ n := by
  by_contra hfew
  have hlength : (race l m n).stages.length ≤ 2 := by
    simp only [race, List.length_replicate]
    omega
  have hpaired : Race.Paired (l.sourceOn m) (l.entry m)
      ((race l m n).after l (l.sourceOn m) schedule) :=
    (Race.paired_start n).after (Race.sound_start n) haccepted hlength schedule
  exact hpaired.calm i f ((hshows schedule List.prefix_rfl).stage_of_program hi)

/-- A repair that is overtaken in the race is overtaken on the machine. -/
lemma overtaken_of_race {j : ℕ} {previous : Option Path} {before between rest : List ℕ}
    (hschedule : schedule = before ++ j :: (between ++ i :: rest))
    (h : Race.Overtaken l (l.sourceOn m) (race l m n) i j previous before between) :
    Overtaken children l m n i j previous before between := by
  subst hschedule
  have hbefore := hshows before ⟨_, rfl⟩
  have htaken := hshows (before ++ [j]) ⟨between ++ i :: rest, by simp⟩
  have hwaited := hshows (before ++ j :: between) ⟨i :: rest, by simp⟩
  exact
    { other := h.other
      waiting := hbefore.program_of_stage h.waiting
      right := hbefore.entry ▸ h.right
      taken := htaken.entry.trans h.taken
      waited := hwaited.program_of_stage h.waited
      gone := hwaited.entry.trans h.gone }

/-- A repair that has been overtaken fails in its next turn. -/
lemma Overtaken.failed {j : ℕ} {previous : Option Path} {before between rest : List ℕ}
    (h : Overtaken children l m n i j previous before between)
    (hschedule : schedule = before ++ j :: (between ++ i :: rest)) :
    ((repairs l m n).after children schedule).programs[i]? =
      some (.done (.error (.linkFailed l.environLink (l.sourceOn m) .alreadyExists))) := by
  have hturns : schedule = before ++ j :: between ++ [i] ++ rest := by simp [hschedule]
  subst hturns
  have hwaited := hshows (before ++ j :: between) ⟨[i] ++ rest, by simp⟩
  have hlooked := hshows (before ++ j :: between ++ [i]) ⟨rest, rfl⟩
  have hlast := hshows _ List.prefix_rfl
  have hfailed := hwaited.failed_of_gone children h.waited h.gone
  rw [← Crew.after_concat] at hfailed
  rw [Race.after_append] at hlast
  -- what has been returned stays returned for the rest of the turns
  exact hlast.program_of_stage (Race.returned_after (hlooked.stage_of_program hfailed) rest)

end

/-- What repairs beside each other put up with, in whichever order they make their calls. -/
structure Tolerates (l : Layout) (m : Machine) (n : ℕ) (schedule : List ℕ) : Prop where
  /-- A repair returns by its sixth turn. -/
  returns : ∀ i < n, 6 ≤ schedule.count i →
    ∃ result, ((repairs l m n).after children schedule).programs[i]? = some (.done result)
  /-- Where the link is right at first, every repair finds it right. -/
  current : Layout.leadsTo (l.sourceOn m) (l.entry m) → ∀ (i : ℕ) result,
    ((repairs l m n).after children schedule).programs[i]? = some (.done result) →
    result = .ok .current
  /-- A repair fails only as one of three or more, -/
  fault : linkText (l.sourceOn m) = .ok (l.sourceOn m).text → ∀ (i : ℕ) f,
    ((repairs l m n).after children schedule).programs[i]? = some (.done (.error f)) →
    3 ≤ n ∧ f = .linkFailed l.environLink (l.sourceOn m) .alreadyExists
  /-- and exactly if another one has taken the right link away while it waited to look at it again.
  -/
  overtaken : linkText (l.sourceOn m) = .ok (l.sourceOn m).text → ∀ i : ℕ,
    (∃ f, ((repairs l m n).after children schedule).programs[i]? = some (.done (.error f))) ↔
    ∃ before j between rest previous, schedule = before ++ j :: (between ++ i :: rest) ∧
      Overtaken children l m n i j previous before between
  /-- Where one has failed, two others succeed. -/
  company : linkText (l.sourceOn m) = .ok (l.sourceOn m).text → ∀ (i : ℕ) f,
    ((repairs l m n).after children schedule).programs[i]? = some (.done (.error f)) →
    ((repairs l m n).after children schedule).Finished →
    ∃ (k k' : ℕ) (status status' : LinkStatus), k ≠ k' ∧
      ((repairs l m n).after children schedule).programs[k]? = some (.done (.ok status)) ∧
      ((repairs l m n).after children schedule).programs[k']? = some (.done (.ok status'))
  /-- If no link may have the text of the source, a repair returns this refusal unless it finds the
  first link right. -/
  refused : ∀ refusal, linkText (l.sourceOn m) = .error refusal → ∀ (i : ℕ) result,
    ((repairs l m n).after children schedule).programs[i]? = some (.done result) →
    result = .error (.linkFailed l.environLink (l.sourceOn m) refusal) ∨
    result = .ok .current ∧ Layout.leadsTo (l.sourceOn m) (l.entry m)

/-- Any number of repairs of one managed link tolerate each other, if its root stands and does not
depend on the link, if no directory is in its place, and if nothing decides anew which source is the
right one; up to those that are overtaken between two calls. -/
theorem tolerates_repairs (hroot : l.Rooted m) (hdir : l.entry m ≠ some .dir) (n : ℕ)
    (schedule : List ℕ) (hsteady : Steady children l (repairs l m n) schedule) :
    Tolerates children l m n schedule := by
  have hshows := shows_of_prefix children hroot hdir n hsteady
  have hlast := hshows schedule List.prefix_rfl
  have hsound : Race.Sound l (l.sourceOn m) (l.entry m) (race l m n) := Race.sound_start n
  have hstart : ∀ (k : ℕ) s, (race l m n).stages[k]? = some s → s = .asking :=
    fun k s => Race.stage_start
  refine ⟨fun i => exists_result_of_count children hshows, ?current, ?fault, ?overtaken, ?company,
    ?refused⟩
  case current =>
    intro hright i result hi
    have huntouched := ((hsound.after schedule).right hright).2 i _ (hlast.stage_of_program hi)
    rcases result with f | ⟨⟩ | previous
    · cases huntouched
    · rfl
    · cases huntouched
  case fault =>
    intro haccepted i f hi
    refine ⟨three_le_of_fault children hshows haccepted hi, ?_⟩
    rcases (hsound.after schedule).fault i f (hlast.stage_of_program hi) with
      hfault | ⟨refusal, hrefused, -⟩
    · exact hfault
    · cases haccepted.symm.trans hrefused
  case overtaken =>
    intro haccepted i
    constructor
    · rintro ⟨f, hi⟩
      obtain ⟨before, j, between, rest, previous, hschedule, h⟩ :=
        Race.exists_overtaken_of_fault hsound (hstart i) haccepted (hlast.stage_of_program hi)
      exact ⟨before, j, between, rest, previous, hschedule,
        overtaken_of_race children hshows hschedule h⟩
    · rintro ⟨before, j, between, rest, previous, hschedule, h⟩
      exact ⟨_, h.failed children hshows hschedule⟩
  case company =>
    intro haccepted i f hi hfinished
    have hstage := hlast.stage_of_program hi
    have hne : ((race l m n).after l (l.sourceOn m) schedule).stages ≠ [] := by
      intro hnil
      rw [hnil] at hstage
      cases hstage
    -- in the end the link is right, although it has been taken away
    have hright := hlast.right_of_finished (hsound.after schedule) haccepted hne hfinished
    rw [hlast.entry] at hright
    obtain ⟨before, j, between, rest, previous, rfl, h⟩ :=
      Race.exists_overtaken_of_fault hsound (hstart i) haccepted hstage
    obtain ⟨k, k', status, status', hkk', hk, hk'⟩ :=
      Race.Overtaken.exists_two_won h hsound hright
    exact ⟨k, k', status, status', hkk', hlast.program_of_stage hk, hlast.program_of_stage hk'⟩
  case refused =>
    intro refusal hrefused i result hi
    have hbarred : Race.Barred l (l.sourceOn m) (l.entry m) refusal
        ((race l m n).after l (l.sourceOn m) schedule) :=
      (Race.barred_start n refusal).after hrefused schedule
    exact hlast.refused_of_barred hbarred (List.mem_of_getElem? hi)

/-- An order of the calls of three repairs. The second one makes the link before the first one can
make it; then the third one, which has seen the old link, takes it away before the first one looks
at it again. -/
def overtaking : List ℕ := [0, 1, 2, 0, 1, 2, 0, 1, 2, 0, 1, 1, 0, 2, 0, 2]

lemma steady_overtaking : Steady .absent (staleLayout "new.sh")
    (repairs (staleLayout "new.sh") staleMachine 3) overtaking := by
  refine .of_take _ fun k hk => ?_
  change k ≤ 16 at hk
  interval_cases k <;> cbv

lemma programs_overtaking :
    ((repairs (staleLayout "new.sh") staleMachine 3).after .absent overtaking).programs =
      [.done (.error (.linkFailed ⟨"/r/environ.sh".toList⟩ ⟨"/r/new.sh".toList⟩ .alreadyExists)),
        .done (.ok (.repaired (some ⟨"/old/environ.sh".toList⟩))),
        .done (.ok (.repaired (some ⟨"/old/environ.sh".toList⟩)))] := by cbv

/-- The first of three repairs is overtaken by the third one. -/
theorem tolerates_overtaking : (staleLayout "new.sh").Rooted staleMachine ∧
    Tolerates .absent (staleLayout "new.sh") staleMachine 3 overtaking :=
  ⟨rooted_stale "new.sh", tolerates_repairs .absent (rooted_stale "new.sh")
    (by simp [entry_stale]) 3 overtaking steady_overtaking⟩

/-- Each of a number of repairs succeeds: whenever the root is a directory, no directory is in the
place of the link, nothing decides anew which source is the right one, and all have returned. -/
def AllSucceed (l : Layout) (m : Machine) (n : ℕ) (schedule : List ℕ) : Prop :=
  m.files.isDir m.cwd l.root → l.entry m ≠ some .dir →
    Steady children l (repairs l m n) schedule →
    ((repairs l m n).after children schedule).Finished →
    ∀ p ∈ ((repairs l m n).after children schedule).programs, ∃ status, p = .done (.ok status)

/-- A repair that has failed in the end has not succeeded. -/
lemma not_allSucceed_of_failed {f : Fault} {others : List (Program (Except Fault LinkStatus))}
    (hroot : m.files.isDir m.cwd l.root) (hdir : l.entry m ≠ some .dir)
    (hsteady : Steady children l (repairs l m n) schedule)
    (hprograms : ((repairs l m n).after children schedule).programs = .done (.error f) :: others)
    (hothers : ∀ p ∈ others, ∃ result, p = .done result) :
    ¬ AllSucceed children l m n schedule := by
  intro h
  have hall := h hroot hdir hsteady
  rw [Crew.Finished, hprograms] at hall
  obtain ⟨status, hdone⟩ := hall (List.forall_mem_cons.mpr ⟨⟨_, rfl⟩, hothers⟩) _
    (List.mem_cons_self ..)
  cases hdone

/-- Not all repairs succeed. A single one fails if no link may have the text of its source, if the
way to the root leads through the wrong link, or if the managed link has no path; and one of three
may fail although nothing of this is so. -/
theorem not_allSucceed :
    ¬ AllSucceed .absent (staleLayout "a\x00b") staleMachine 1 [0, 0, 0, 0, 0] ∧
    ¬ AllSucceed .absent backLayout backMachine 1 [0, 0, 0, 0, 0] ∧
    ¬ AllSucceed .absent (apartLayout deepRoot) deepMachine 1 [0, 0, 0, 0] ∧
    linkText ((staleLayout "new.sh").sourceOn staleMachine) =
      .ok ((staleLayout "new.sh").sourceOn staleMachine).text ∧
    (staleLayout "new.sh").Rooted staleMachine ∧
    ¬ AllSucceed .absent (staleLayout "new.sh") staleMachine 3 overtaking := by
  refine ⟨?refused, ?back, ?deep, by cbv, rooted_stale _, ?overtaken⟩
  case refused =>
    exact not_allSucceed_of_failed .absent (rooted_stale _).isDir (by simp [entry_stale])
      steady_refused programs_refused (List.forall_mem_nil _)
  case back =>
    have hentry : backLayout.entry backMachine = some (.link "/x".toList) := by cbv
    exact not_allSucceed_of_failed .absent (by cbv) (by simp [hentry]) steady_back programs_back
      (List.forall_mem_nil _)
  case deep =>
    obtain ⟨f, -, hplace⟩ := locate_deepRoot
    obtain ⟨hsteady, hprograms⟩ :=
      after_of_locate_error .absent hplace (accepted_apartLayout _ _)
    exact not_allSucceed_of_failed .absent isDir_deepRoot
      (by simp [Layout.entry_of_locate_error hplace]) hsteady hprograms (List.forall_mem_nil _)
  case overtaken =>
    exact not_allSucceed_of_failed .absent (rooted_stale _).isDir (by simp [entry_stale])
      steady_overtaking programs_overtaking (by simp)

end Caretaker.Repair

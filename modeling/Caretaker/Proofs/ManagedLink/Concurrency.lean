import Caretaker.Proofs.ManagedLink.Race
import Caretaker.Proofs.ManagedLink.Single
import Mathlib.Tactic.IntervalCases

/-!
# Repairs beside each other

Repairs of one managed link that run on a machine at once, in any order of their calls, are a race
for its entry. So they settle: no order of their calls brings a stale entry back, and once all of
them have returned the link leads to its source.
-/

namespace Caretaker.Repair

open FileSystem LinkStatus

/-! ## A crew of repairs is a race -/

/-- A crew of repairs shows as a race: the root stands, the entry is the same, and each program is
what its stage has left to do. -/
structure Shows (l : Layout) (source : Path) (c : Crew (Except Fault LinkStatus)) (r : Race) :
    Prop where
  rooted : l.Rooted c.machine
  entry : l.entry c.machine = r.entry
  programs : c.programs = r.stages.map (Stage.program l source)

variable {l : Layout} {m : Machine} {source : Path} {c : Crew (Except Fault LinkStatus)} {r : Race}
  (children : Children)

/-- A turn of a repair on the machine is a turn in the race. -/
theorem Shows.turn (h : Shows l source c r) (hsource : l.sourceOn c.machine = source)
    (hdir : r.entry ≠ some .dir) (i : ℕ) :
    Shows l source (c.turn children i) (r.turn l source i) := by
  cases hi : r.stages[i]? with
  | none =>
    have hnone : c.programs[i]? = none := by rw [h.programs, List.getElem?_map, hi]; rfl
    rw [Crew.turn, hnone, Race.turn_of_none hi]
    exact h
  | some s =>
    have hsome : c.programs[i]? = some (s.program l source) := by
      rw [h.programs, List.getElem?_map, hi]
      rfl
    obtain ⟨m', hstep, hentry, hrooted⟩ :=
      s.follows children h.rooted hsource (h.entry ▸ hdir)
    rw [h.entry] at hstep hentry
    rw [Crew.turn, hsome, Race.turn_of_some hi]
    dsimp only
    rw [hstep]
    refine ⟨hrooted, hentry, ?_⟩
    rw [List.map_set, h.programs]

/-! ## Any number of repairs -/

/-- A number of repairs of one managed link that are about to begin. -/
def repairs (l : Layout) (m : Machine) (n : ℕ) : Crew (Except Fault LinkStatus) :=
  .copies m n (ensure l).run

/-- Whether the override directory stands is the same at every moment of a schedule. -/
def Steady (l : Layout) (c : Crew (Except Fault LinkStatus)) (schedule : List ℕ) : Prop :=
  ∀ before, before <+: schedule →
    (c.after children before).machine.files.isDir (c.after children before).machine.cwd
      l.overrideDir = c.machine.files.isDir c.machine.cwd l.overrideDir

lemma Steady.sourceOn {schedule : List ℕ} {n : ℕ}
    (h : Steady children l (repairs l m n) schedule) {before : List ℕ}
    (hbefore : before <+: schedule) :
    l.sourceOn ((repairs l m n).after children before).machine = l.sourceOn m := by
  rw [Layout.sourceOn, h before hbefore]
  rfl

lemma Steady.of_take {schedule : List ℕ} (h : ∀ k ≤ schedule.length,
    (c.after children (schedule.take k)).machine.files.isDir
      (c.after children (schedule.take k)).machine.cwd l.overrideDir =
      c.machine.files.isDir c.machine.cwd l.overrideDir) : Steady children l c schedule := by
  intro before hbefore
  rw [List.prefix_iff_eq_take.mp hbefore]
  exact h before.length hbefore.length_le

/-- The race that a number of repairs begin. -/
def race (l : Layout) (m : Machine) (n : ℕ) : Race := ⟨l.entry m, List.replicate n .asking⟩

lemma not_dir_of_sound {initial : Option Entry} (h : Race.Sound l source initial r)
    (hdir : initial ≠ some .dir) : r.entry ≠ some .dir := by
  rcases h.entry with he | he | he <;> rw [he]
  · exact hdir
  all_goals
    intro hd
    cases hd

lemma shows_start (hroot : l.Rooted m) (n : ℕ) :
    Shows l source (repairs l m n) (race l m n) where
  rooted := hroot
  entry := rfl
  programs := by
    rw [race, List.map_replicate]
    rfl

/-- A crew of repairs shows as the race that it begins, after any turns, -/
lemma shows_after (hroot : l.Rooted m) (hdir : l.entry m ≠ some .dir) (n : ℕ)
    {schedule : List ℕ} (hsteady : Steady children l (repairs l m n) schedule) :
    Shows l (l.sourceOn m) ((repairs l m n).after children schedule)
      ((race l m n).after l (l.sourceOn m) schedule) := by
  induction schedule using List.reverseRecOn with
  | nil => exact shows_start hroot n
  | append_singleton before i ih =>
    have hprefix : before <+: before ++ [i] := List.prefix_append ..
    have hshows := ih fun b hb => hsteady b (hb.trans hprefix)
    have hsound : Race.Sound l (l.sourceOn m) (l.entry m)
        ((race l m n).after l (l.sourceOn m) before) := (Race.sound_start n).after before
    rw [Crew.after_concat, Race.after_append]
    exact hshows.turn children (hsteady.sourceOn children hprefix) (not_dir_of_sound hsound hdir) i

/-- and so it does at each moment on the way. -/
theorem shows_of_prefix (hroot : l.Rooted m) (hdir : l.entry m ≠ some .dir) (n : ℕ)
    {schedule : List ℕ} (hsteady : Steady children l (repairs l m n) schedule) (before : List ℕ)
    (hbefore : before <+: schedule) : Shows l (l.sourceOn m) ((repairs l m n).after children before)
      ((race l m n).after l (l.sourceOn m) before) :=
  shows_after children hroot hdir n fun b hb => hsteady b (hb.trans hbefore)

/-- What repairs beside each other bring about, in whichever order they make their calls. The link
that they leave has the components of the source. -/
structure Settles (l : Layout) (m : Machine) (n : ℕ) (schedule : List ℕ) : Prop where
  /-- The entry is the first one, or gone, or right. -/
  entry : l.entry ((repairs l m n).after children schedule).machine = l.entry m ∨
    l.entry ((repairs l m n).after children schedule).machine = none ∨
    Layout.leadsTo (l.sourceOn m) (l.entry ((repairs l m n).after children schedule).machine)
  /-- A first entry that is gone does not come back. -/
  gone : ∀ before, before <+: schedule → l.entry m ≠ none →
    l.entry ((repairs l m n).after children before).machine ≠ l.entry m →
    l.entry ((repairs l m n).after children schedule).machine ≠ l.entry m
  /-- Once all repairs have returned, the link is right, -/
  right : linkText (l.sourceOn m) = .ok (l.sourceOn m).text → 0 < n →
    ((repairs l m n).after children schedule).Finished →
    Layout.leadsTo (l.sourceOn m) (l.entry ((repairs l m n).after children schedule).machine)
  /-- and one of them fails only since others have been faster, -/
  fault : linkText (l.sourceOn m) = .ok (l.sourceOn m).text →
    ∀ f, .done (.error f) ∈ ((repairs l m n).after children schedule).programs →
      f = .linkFailed l.environLink (l.sourceOn m) .alreadyExists
  /-- which takes more than two of them. -/
  calm : linkText (l.sourceOn m) = .ok (l.sourceOn m).text → n ≤ 2 →
    ∀ f, .done (.error f) ∉ ((repairs l m n).after children schedule).programs
  /-- If no link may have the text of the source, then none is made, and a repair returns this
  refusal unless it finds the first link right. -/
  refused : ∀ refusal, linkText (l.sourceOn m) = .error refusal →
    (l.entry ((repairs l m n).after children schedule).machine = l.entry m ∨
      l.entry ((repairs l m n).after children schedule).machine = none) ∧
    ∀ result, .done result ∈ ((repairs l m n).after children schedule).programs →
      result = .error (.linkFailed l.environLink (l.sourceOn m) refusal) ∨
      result = .ok .current ∧ Layout.leadsTo (l.sourceOn m) (l.entry m)

/-- Only a stage that is over has no call left to make. -/
lemma Stage.eq_returned_of_program {s : Stage} {result : Except Fault LinkStatus}
    (h : s.program l source = .done result) : s = .returned result := by
  cases s with
  | returned r => exact congrArg Stage.returned (Program.done.inj h)
  | asking =>
    rw [Stage.program, run_ensure] at h
    cases h
  | _ => cases h

lemma Shows.exists_returned (h : Shows l source c r) {result : Except Fault LinkStatus}
    (hp : .done result ∈ c.programs) : ∃ i : ℕ, r.stages[i]? = some (Stage.returned result) := by
  rw [h.programs, List.mem_map] at hp
  obtain ⟨s, hs, hdone⟩ := hp
  obtain ⟨i, hi⟩ := List.getElem?_of_mem hs
  exact ⟨i, Stage.eq_returned_of_program hdone ▸ hi⟩

/-- Once all repairs have returned, none of them is left to make the link, so it is right. -/
lemma Shows.right_of_finished (h : Shows l source c r) {initial : Option Entry}
    (hsound : Race.Sound l source initial r) (haccepted : linkText source = .ok source.text)
    (hne : r.stages ≠ []) (hfinished : c.Finished) :
    Layout.leadsTo source (l.entry c.machine) := by
  rw [h.entry]
  by_contra hwrong
  obtain ⟨i, s, hi, hmaker⟩ := hsound.maker haccepted hwrong hne
  have hmem : s.program l source ∈ c.programs := by
    rw [h.programs]
    exact List.mem_map_of_mem (List.mem_of_getElem? hi)
  obtain ⟨result, hdone⟩ := hfinished _ hmem
  rw [Stage.eq_returned_of_program hdone] at hmaker
  exact hmaker

/-- What a finished repair returns, if the text of the source is refused. -/
lemma Shows.refused_of_barred (h : Shows l source c r) {initial : Option Entry} {refusal : IoFault}
    (hbarred : Race.Barred l source initial refusal r) {result : Except Fault LinkStatus}
    (hresult : .done result ∈ c.programs) :
    result = .error (.linkFailed l.environLink source refusal) ∨
      result = .ok .current ∧ Layout.leadsTo source initial := by
  obtain ⟨i, hi⟩ := h.exists_returned hresult
  have hstage := hbarred.stages i _ hi
  cases result with
  | error f => exact Or.inl (congrArg Except.error hstage)
  | ok status => exact Or.inr (hstage.imp_left (congrArg Except.ok))

/-- Any number of repairs of one managed link settle, if its root stands and does not depend on the
link, if no directory is in its place, and if nothing decides anew which source is the right one. -/
theorem settles_repairs (hroot : l.Rooted m) (hdir : l.entry m ≠ some .dir) (n : ℕ)
    (schedule : List ℕ) (hsteady : Steady children l (repairs l m n) schedule) :
    Settles children l m n schedule := by
  have hshows := shows_of_prefix children hroot hdir n hsteady
  have hsound : ∀ before, Race.Sound l (l.sourceOn m) (l.entry m)
      ((race l m n).after l (l.sourceOn m) before) := (Race.sound_start n).after
  have hlast := hshows schedule List.prefix_rfl
  refine ⟨?entry, ?gone, ?right, ?fault, ?calm, ?refused⟩
  case entry =>
    rw [hlast.entry]
    refine (hsound schedule).entry.imp_right (Or.imp_right fun he => ?_)
    rw [he]
    exact Layout.leadsTo_link_self _
  case gone =>
    intro before hbefore hsome hgone
    -- a changed entry is fresh, and stays fresh to the end
    rw [(hshows before hbefore).entry] at hgone
    obtain ⟨later, rfl⟩ := hbefore
    have hfresh := Race.fresh_after (l := l) ((hsound before).entry.resolve_left hgone) later
    rw [hlast.entry, Race.after_append]
    intro hback
    rw [hback] at hfresh
    rcases hfresh with hnone | hright
    · exact hsome hnone
    · refine hgone (((hsound before).right ?_).1)
      rw [hright]
      exact Layout.leadsTo_link_self _
  case right =>
    intro haccepted hpos hfinished
    refine hlast.right_of_finished (hsound schedule) haccepted ?_ hfinished
    rw [← List.length_pos_iff_ne_nil, Race.length_stages_after]
    simpa [race] using hpos
  case fault =>
    intro haccepted f hf
    obtain ⟨i, hi⟩ := hlast.exists_returned hf
    rcases (hsound schedule).fault i f hi with hfault | ⟨refusal, hrefused, -⟩
    · exact hfault
    · cases haccepted.symm.trans hrefused
  case calm =>
    intro haccepted htwo f hf
    obtain ⟨i, hi⟩ := hlast.exists_returned hf
    have hlength : (race l m n).stages.length ≤ 2 := by simpa [race] using htwo
    have hpaired : Race.Paired (l.sourceOn m) (l.entry m)
        ((race l m n).after l (l.sourceOn m) schedule) :=
      (Race.paired_start n).after (Race.sound_start n) haccepted hlength schedule
    exact hpaired.calm i f hi
  case refused =>
    intro refusal hrefused
    have hbarred : Race.Barred l (l.sourceOn m) (l.entry m) refusal
        ((race l m n).after l (l.sourceOn m) schedule) :=
      (Race.barred_start n refusal).after hrefused schedule
    exact ⟨hlast.entry ▸ hbarred.entry, fun _ => hlast.refused_of_barred hbarred⟩

/-- Two repairs, the second of which finds that the first has done its work. -/
theorem settles_two_repairs : (staleLayout "new.sh").Rooted staleMachine ∧
    Settles .absent (staleLayout "new.sh") staleMachine 2 [0, 1, 0, 1, 0, 1, 0, 1, 0, 1, 1] := by
  have hroot := rooted_stale "new.sh"
  refine ⟨hroot, settles_repairs .absent hroot (by simp [entry_stale]) 2 _ (.of_take _ ?_)⟩
  intro k hk
  change k ≤ 11 at hk
  interval_cases k <;> cbv

/-! ## A repair that fails on its own -/

/-- A repair on its own that finds no place for the link makes four calls, which change nothing. -/
lemma after_of_locate_error {f : IoFault}
    (hplace : m.files.locate m.cwd false l.environLink = .error f)
    (haccepted : linkText (l.sourceOn m) = .ok (l.sourceOn m).text) :
    Steady children l (repairs l m 1) [0, 0, 0, 0] ∧
    ((repairs l m 1).after children [0, 0, 0, 0]).programs =
      [.done (.error (.linkFailed l.environLink (l.sourceOn m) f))] := by
  have hnone : l.entry m = none := Layout.entry_of_locate_error hplace
  have hnolink : (m.files.readLink m.cwd l.environLink).toOption = none := by
    rw [Layout.toOption_readLink, hnone]
    rfl
  have hmake : m.files.makeLink m.cwd (l.sourceOn m) l.environLink = .error f := by
    simp only [makeLink, haccepted, create, hplace, bind, Except.bind]
  have hne : f ≠ .alreadyExists := fun hf => makeLink_ne_alreadyExists hnone (hf ▸ hmake)
  -- what is left to do after each of the calls
  have hasking : (repairs l m 1).turn children 0 =
      ⟨m, [read (l.sourceOn m) l.environLink]⟩ := by
    change (⟨m, [(ensure l).run]⟩ : Crew _).turn children 0 = _
    rw [run_ensure]
    rfl
  have hreading : (⟨m, [read (l.sourceOn m) l.environLink]⟩ : Crew _).turn children 0 =
      ⟨m, [look (l.sourceOn m) l.environLink none]⟩ := by
    have hanswer : Machine.answer children (.readLink l.environLink) m =
        (m.files.readLink m.cwd l.environLink, m) := rfl
    rw [read, Crew.turn_alone children _ hanswer, hnolink]
    rfl
  have hlooking : (⟨m, [look (l.sourceOn m) l.environLink none]⟩ : Crew _).turn children 0 =
      ⟨m, [make (l.sourceOn m) l.environLink none]⟩ := by
    have hanswer : Machine.answer children (.standsAt l.environLink) m = (false, m) := by
      rw [Machine.answer, Layout.standsAt_environLink, hnone]
      rfl
    rw [look, Crew.turn_alone children _ hanswer]
    rfl
  have hmaking : (⟨m, [make (l.sourceOn m) l.environLink none]⟩ : Crew _).turn children 0 =
      ⟨m, [.done (.error (.linkFailed l.environLink (l.sourceOn m) f))]⟩ := by
    have hanswer : Machine.answer children (.makeLink (l.sourceOn m) l.environLink) m =
        (.error f, m) := by rw [Machine.answer, hmake, Machine.change]
    rw [make, Crew.turn_alone children _ hanswer]
    dsimp only
    rw [if_neg hne]
  refine ⟨.of_take _ fun k hk => ?_, ?_⟩
  · change k ≤ 4 at hk
    interval_cases k <;>
      simp only [List.take_succ_cons, List.take_zero, Crew.after, List.foldl_cons, List.foldl_nil,
        hasking, hreading, hlooking, hmaking] <;> rfl
  · simp only [Crew.after, List.foldl_cons, List.foldl_nil, hasking, hreading, hlooking, hmaking]

/-- Repairs fail only since others have been faster: whenever the root is a directory, no directory is
in the place of the link, and nothing decides anew which source is the right one. -/
def FailOnlyBehind (l : Layout) (m : Machine) (n : ℕ) (schedule : List ℕ) : Prop :=
  m.files.isDir m.cwd l.root → l.entry m ≠ some .dir →
    Steady children l (repairs l m n) schedule →
    ∀ f, .done (.error f) ∈ ((repairs l m n).after children schedule).programs →
      f = .linkFailed l.environLink (l.sourceOn m) .alreadyExists

lemma steady_refused : Steady .absent (staleLayout "a\x00b")
    (repairs (staleLayout "a\x00b") staleMachine 1) [0, 0, 0, 0, 0] := by
  refine .of_take _ fun k hk => ?_
  change k ≤ 5 at hk
  interval_cases k <;> cbv

lemma programs_refused :
    ((repairs (staleLayout "a\x00b") staleMachine 1).after .absent [0, 0, 0, 0, 0]).programs =
      [.done (.error (.linkFailed ⟨"/r/environ.sh".toList⟩ ⟨"/r/a\x00b".toList⟩ .nulInPath))] := by
  cbv

lemma steady_back :
    Steady .absent backLayout (repairs backLayout backMachine 1) [0, 0, 0, 0, 0] := by
  refine .of_take _ fun k hk => ?_
  change k ≤ 5 at hk
  interval_cases k <;> cbv

lemma programs_back :
    ((repairs backLayout backMachine 1).after .absent [0, 0, 0, 0, 0]).programs =
      [.done (.error (.linkFailed ⟨"/x/environ.sh/environ.sh".toList⟩
        ⟨"/x/environ.sh/config/environ.sh".toList⟩ .noEntry))] := by cbv

lemma locate_deepRoot : ∃ f, f ≠ .alreadyExists ∧
    deepMachine.files.locate deepMachine.cwd false (apartLayout deepRoot).environLink =
      .error f := by
  obtain ⟨f, hplace⟩ :=
    Layout.exists_locate_error_of_not_stands (List.cons_ne_nil _ _) not_stands_deepRoot
  refine ⟨f, ?_, hplace⟩
  rintro rfl
  exact locate_ne_alreadyExists hplace

/-- Even a single repair may fail for another reason: no link may have the text of its source; the
way to the root leads through the wrong link; or the managed link has no path. -/
theorem not_failOnlyBehind :
    ¬ FailOnlyBehind .absent (staleLayout "a\x00b") staleMachine 1 [0, 0, 0, 0, 0] ∧
    ¬ FailOnlyBehind .absent backLayout backMachine 1 [0, 0, 0, 0, 0] ∧
    ¬ FailOnlyBehind .absent (apartLayout deepRoot) deepMachine 1 [0, 0, 0, 0] := by
  refine ⟨fun h => ?refused, fun h => ?back, fun h => ?deep⟩
  case refused =>
    have hfault := h (rooted_stale _).isDir (by simp [entry_stale]) steady_refused
    rw [programs_refused] at hfault
    injection hfault _ (List.mem_singleton_self _) with _ _ hcause
    cases hcause
  case back =>
    have hentry : backLayout.entry backMachine = some (.link "/x".toList) := by cbv
    have hfault := h (by cbv) (by simp [hentry]) steady_back
    rw [programs_back] at hfault
    injection hfault _ (List.mem_singleton_self _) with _ _ hcause
    cases hcause
  case deep =>
    obtain ⟨f, hne, hplace⟩ := locate_deepRoot
    obtain ⟨hsteady, hprograms⟩ :=
      after_of_locate_error .absent hplace (accepted_apartLayout _ _)
    have hfault := h isDir_deepRoot (by simp [Layout.entry_of_locate_error hplace]) hsteady
    rw [hprograms] at hfault
    injection hfault _ (List.mem_singleton_self _) with _ _ hcause
    exact hne hcause

end Caretaker.Repair

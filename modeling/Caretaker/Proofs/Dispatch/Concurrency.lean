import Caretaker.Proofs.Dispatch.Site
import Caretaker.Proofs.ManagedLink.Concurrency

/-!
# What concurrent dispatches provide

Dispatches on one layout provide their children with all that the source assigns, or with none of it.
The latter happens only to a dispatch that asks for the environ file in a gap: another one, which had
read the link before it was right, has removed the right link and is about to make it again.
-/

namespace Caretaker

open FileSystem Repair

variable {l : Layout} {m : Machine} {source : Path} {content : Text} {children : Children}

/-! ## Reading through a right link -/

namespace Layout

/-- Only a link leads to a source. -/
lemma exists_of_leadsTo {e : Option Entry} (h : leadsTo source e) :
    ∃ text : Text, e = some (.link text) ∧ Path.same ⟨text⟩ source := by
  rcases e with _ | ⟨_ | _ | text⟩
  · cases h
  · cases h
  · cases h
  · exact ⟨text, rfl, h⟩

/-- The variables of a process are no matter to the root. -/
lemma Rooted.with_bindings (h : l.Rooted m) (own : Bindings) :
    l.Rooted { m with bindings := own } := ⟨⟨h.isDir, h.short⟩, h.apart⟩

/-- Where nothing stands, nothing is read. -/
lemma Rooted.readText_of_none (hroot : l.Rooted m) (hnone : l.entry m = none) :
    m.files.readText m.cwd l.environLink = .error .noEntry := by
  rw [readText, FileSystem.read, hroot.find_of_none hnone]
  rfl

/-- If the managed link has the components of a source, it leads on. -/
def RightLeadsOn (l : Layout) (m : Machine) (source : Path) : Prop :=
  ∀ text : Text, l.entry m = some (.link text) → Path.same ⟨text⟩ source → l.LeadsOn m ⟨text⟩

/-- What is read through a right link is what the source holds. -/
lemma IsAbsolute.read_of_right (hl : l.IsAbsolute) (hroot : l.Rooted m) {m₀ : Machine} {text : Text}
    (hread : m.files.readText m.cwd (l.sourceOn m₀) = .ok content)
    (hentry : l.entry m = some (.link text)) (haccepted : linkText ⟨text⟩ = .ok text)
    (hsame : Path.same ⟨text⟩ (l.sourceOn m₀)) (hleads : l.LeadsOn m ⟨text⟩) :
    m.files.isFile m.cwd l.environLink ∧ m.files.readText m.cwd l.environLink = .ok content := by
  have hlink : m.files.readLink m.cwd l.environLink = .ok ⟨text⟩ := by
    have hanswer := congrArg Prod.fst (hroot.answer_readLink .absent)
    rwa [hentry] at hanswer
  have hfind : m.files.find m.cwd true l.environLink = m.files.find m.cwd true (l.sourceOn m₀) :=
    hl.find_of_accepted hlink haccepted hsame hleads
  have hcontent : m.files.readText m.cwd l.environLink = .ok content :=
    (readText_congr hfind).trans hread
  exact ⟨isFile_of_readText hcontent, hcontent⟩

end Layout

/-! ## Dispatches that miss the link -/

/-- How one of the processes undoes the right link. -/
def Site.Undone (children : Children) (l : Layout) (source : Path) (s : Site) (j : ℕ)
    (looked removed before : List ℕ) : Prop :=
  Undoes source (fun turns => (s.after children turns).next? j = some (.readLink l.environLink))
    (fun turns => (s.after children turns).next? j = some (.remove l.environLink))
    (fun turns => (s.after children turns).next? j = some (.makeLink source l.environLink))
    (fun turns => l.entry (s.after children turns).machine) j looked removed before

/-- After the turns `before`, a process asks whether the managed link leads to a file, and nothing
stands there although its own repair is done: another process has undone the right link. -/
structure Site.Misses (children : Children) (l : Layout) (source : Path) (initial : Option Entry)
    (s : Site) (before : List ℕ) (i : ℕ) : Prop where
  asks : (s.after children before).next? i = some (.isFile l.environLink)
  nothing : l.entry (s.after children before).machine = none
  /-- A link that was right in the beginning is undone by nobody. -/
  wrong : ¬ Layout.leadsTo source initial
  undone : ∃ j ≠ i, ∃ looked removed, s.Undone children l source j looked removed before

/-- A process has missed the link on one of its turns. -/
def Site.Missed (children : Children) (l : Layout) (source : Path) (initial : Option Entry)
    (s : Site) (schedule : List ℕ) (i : ℕ) : Prop :=
  ∃ before, before ++ [i] <+: schedule ∧ s.Misses children l source initial before i

/-! ## A site is a race -/

/-- A site shows as a race: the root stands, the entry is the same, and each process has left to do
what the stage of its repair leaves. -/
structure Site.Shows (l : Layout) (source : Path) (content : Text) (errands : List Errand)
    (missed : ℕ → Prop) (s : Site) (r : Race) : Prop where
  rooted : l.Rooted s.machine
  entry : l.entry s.machine = r.entry
  count : errands.length = r.stages.length
  length : s.dispatchers.length = r.stages.length
  dispatchers : ∀ (i : ℕ) (e : Errand) (d : Dispatcher) (stage : Stage), errands[i]? = some e →
    s.dispatchers[i]? = some d → r.stages[i]? = some stage →
    d.bindings = e.bindings ∧ stage.Leaves l source content e (missed i) d.program

/-- What a turn of one process leaves, with the stage that it has come to. -/
structure Repair.Stage.Comes (l : Layout) (source : Path) (content : Text) (e : Errand)
    (missed : Prop) (stage : Stage) (entry : Option Entry) (next : Dispatcher × Machine) : Prop where
  rooted : l.Rooted next.2
  found : l.entry next.2 = (stage.advance l source entry).2
  bindings : next.1.bindings = e.bindings
  leaves : (stage.advance l source entry).1.Leaves l source content e missed next.1.program

variable {errands : List Errand} {missed missed' : ℕ → Prop} {s : Site} {r : Race} {i : ℕ}
  {e : Errand} {d : Dispatcher} {stage : Stage}

lemma Site.Shows.exists_at (h : s.Shows l source content errands missed r)
    (hi : i < r.stages.length) : ∃ e d stage, errands[i]? = some e ∧ s.dispatchers[i]? = some d ∧
      r.stages[i]? = some stage ∧ d.bindings = e.bindings ∧
      stage.Leaves l source content e (missed i) d.program := by
  have he := List.getElem?_eq_getElem (h.count.symm ▸ hi)
  have hd := List.getElem?_eq_getElem (h.length.symm ▸ hi)
  have hstage := List.getElem?_eq_getElem hi
  exact ⟨_, _, _, he, hd, hstage, h.dispatchers i _ _ _ he hd hstage⟩

/-- What one process comes to by its turn, the site shows after it. -/
lemma Site.Shows.of_comes (h : s.Shows l source content errands missed r)
    (he : errands[i]? = some e) (hd : s.dispatchers[i]? = some d)
    (hstage : r.stages[i]? = some stage) (hmissed : ∀ j, missed j → missed' j)
    (hcomes : stage.Comes l source content e (missed' i) r.entry (d.step children s.machine)) :
    (s.turn children i).Shows l source content errands missed' (r.turn l source i) := by
  refine ⟨?rooted, ?entry, ?count, ?length, ?dispatchers⟩
  case rooted =>
    rw [turn_of_some hd]
    exact hcomes.rooted
  case entry =>
    rw [turn_of_some hd, Race.entry_turn hstage]
    exact hcomes.found
  case count =>
    rw [Race.length_stages_turn]
    exact h.count
  case length =>
    rw [turn_of_some hd, Race.length_stages_turn, List.length_set]
    exact h.length
  case dispatchers =>
    intro j e' d' stage' he' hd' hstage'
    -- only the process whose turn it was has gone on
    rcases dispatcher_of_turn hd hd' with ⟨rfl, rfl⟩ | ⟨hj, hold⟩
    · obtain rfl : e = e' := Option.some.inj (he.symm.trans he')
      rw [Race.stages_turn_self hstage] at hstage'
      obtain rfl := Option.some.inj hstage'
      exact ⟨hcomes.bindings, hcomes.leaves⟩
    · rw [Race.stages_turn_of_ne hj] at hstage'
      obtain ⟨hbindings, hleaves⟩ := h.dispatchers j e' d' stage' he' hold hstage'
      exact ⟨hbindings, hleaves.mono (hmissed j)⟩

/-! ## Turns -/

/-- A process that is done lets its turn pass. -/
lemma Dispatcher.step_done {a : Except Fault Answer} (h : d.program = .done a) :
    d.step children m = (d, m) := by
  obtain ⟨b, p⟩ := d
  obtain rfl : p = .done a := h
  rfl

/-- A turn of a process whose repair is not over is a step of the repair. -/
lemma Repair.Stage.comes_of_repairing {missed : Prop} (hroot : l.Rooted m)
    (hsource : l.sourceOn m = source) (hdir : l.entry m ≠ some .dir)
    (hbindings : d.bindings = e.bindings) (hrepairing : ∀ result, stage ≠ .returned result)
    (hleaves : stage.Leaves l source content e missed d.program) :
    stage.Comes l source content e missed (l.entry m) (d.step children m) := by
  have hprogram : d.program = stage.program l source >>= e.follow l :=
    hleaves.program_eq fun status => hrepairing (.ok status)
  have hcall : ∀ result, stage.program l source ≠ .done result :=
    fun result hdone => hrepairing result (eq_returned_of_program hdone)
  have hview : l.Rooted (d.view m) := hroot.with_bindings d.bindings
  obtain ⟨m', hstep, hentry, hrooted⟩ := stage.follows children.apart hview hsource hdir
  -- a repair makes calls on files alone, so that the variables stay those of the process
  have hown : m'.bindings = d.bindings := by
    have hkept := Program.bindings_step children.apart (d.view m)
      (stage.onFiles_program l source)
    rw [hstep] at hkept
    exact hkept
  have hturn : d.step children m =
      (⟨m'.bindings, (stage.advance l source (l.entry m)).1.program l source >>= e.follow l⟩,
        { m' with bindings := m.bindings }) := by
    unfold Dispatcher.step
    rw [hprogram, Program.step_bind _ hcall, hstep]
    rfl
  rw [hturn]
  exact ⟨hrooted.with_bindings m.bindings, hentry, hown.trans hbindings, leaves_follow _⟩

/-- No child is started by a process whose repair has not succeeded. -/
lemma Repair.Stage.Leaves.exists_returned {missed : Prop} {launch : Launch}
    {next : (Call.launch launch).Reply → Program (Except Fault Answer)}
    (h : stage.Leaves l source content e missed (.call (.launch launch) next)) :
    ∃ status, stage = .returned (.ok status) := by
  by_contra hnone
  have hprogram := h.program_eq fun status heq => hnone ⟨status, heq⟩
  have honly := stage.onFiles_program l source
  cases hstage : stage.program l source with
  | done result =>
    obtain rfl := eq_returned_of_program hstage
    cases result with
    | error f => cases hprogram
    | ok status => exact hnone ⟨status, rfl⟩
  | call c rest =>
    rw [hstage] at hprogram honly
    obtain ⟨rfl, -⟩ := Program.call.inj hprogram
    cases honly.1

/-- A process whose repair has failed is done. -/
lemma Repair.Stage.comes_of_failed {missed : Prop} {f : Fault} (hroot : l.Rooted m)
    (hbindings : d.bindings = e.bindings)
    (hleaves : (returned (.error f)).Leaves l source content e missed d.program) :
    (returned (.error f)).Comes l source content e missed (l.entry m) (d.step children m) := by
  rw [Dispatcher.step_done (a := .error f) hleaves]
  exact ⟨hroot, rfl, hbindings, hleaves⟩

/-- What a process past its repair relies on about the reply to a call that only looks. -/
lemma Layout.tells_of_looks {own : Bindings} {missed : Prop} {c : Call} (hc : c.looks)
    (hown : m.bindings = own)
    (hfile : c = .isFile l.environLink → m.files.isFile m.cwd l.environLink = false → missed)
    (htext : ∀ t, m.files.readText m.cwd l.environLink = .ok t → t = content) :
    l.Tells own content missed c (Machine.answer children c m).1 := by
  cases c with
  | isFile p =>
    rintro rfl hfound
    exact hfile rfl hfound
  | readText p =>
    rintro rfl t ht
    exact htext t ht
  | bindings => exact hown
  | launch launch => cases hc
  | _ => trivial

/-- A turn of a process past its repair is a look, or starts a child. -/
lemma Repair.Stage.comes_of_returned {missed missed' : Prop} {status : LinkStatus}
    (hroot : l.Rooted m) (hbindings : d.bindings = e.bindings)
    (hleaves : (returned (.ok status)).Leaves l source content e missed d.program)
    (hspared : ∀ launch next, d.program = .call (.launch launch) next →
      l.Rooted (d.step children m).2 ∧ l.entry (d.step children m).2 = l.entry m)
    (hmissed : missed → missed')
    (hfile : ∀ next, d.program = .call (.isFile l.environLink) next →
      m.files.isFile m.cwd l.environLink = false → missed')
    (htext : ∀ t, m.files.readText m.cwd l.environLink = .ok t → t = content) :
    (returned (.ok status)).Comes l source content e missed' (l.entry m) (d.step children m) := by
  have hleaves' : (returned (.ok status)).Leaves l source content e missed' d.program :=
    hleaves.mono hmissed
  cases hprogram : d.program with
  | done a =>
    rw [Dispatcher.step_done hprogram]
    exact ⟨hroot, rfl, hbindings, hleaves'⟩
  | call c next =>
    have hrelies := hleaves'
    rw [hprogram] at hrelies
    have hminds := (hrelies missed' id).1
    have hstep : d.step children m =
        (⟨(Machine.answer children.apart c (d.view m)).2.bindings,
          next (Machine.answer children.apart c (d.view m)).1⟩,
          { (Machine.answer children.apart c (d.view m)).2 with bindings := m.bindings }) := by
      unfold Dispatcher.step
      rw [hprogram]
      rfl
    by_cases hc : c.looks
    · -- nothing changes, and the reply is one that the process relies on
      have hmachine := (d.view m).answer_of_looks children.apart hc
      rw [hstep, hmachine]
      refine ⟨hroot, rfl, hbindings, fun later hlater => ?_⟩
      apply (hrelies later hlater).2
      apply Layout.tells_of_looks hc hbindings
      · rintro rfl hfound
        exact hlater (hfile next hprogram hfound)
      · exact htext
    -- of the calls that may change something, only the start of a child is left
    · obtain ⟨launch, rfl⟩ : ∃ launch, c = .launch launch := by
        cases c with
        | launch launch => exact ⟨launch, rfl⟩
        | _ => exact absurd hminds hc
      obtain ⟨hrooted, hentry⟩ := hspared launch next hprogram
      refine ⟨hrooted, hentry, ?_, fun later hlater => ?_⟩
      · rw [hstep]
        exact (Machine.bindings_launch_apart children launch (d.view m)).trans hbindings
      · rw [hstep]
        exact (hrelies later hlater).2 _ trivial

/-! ## Schedules -/

namespace Site

variable {initial : Option Entry}

/-- A process past its repair finds nothing at the managed link, or is led to the source. -/
lemma Shows.none_or_reads (h : s.Shows l source content errands missed r)
    (hl : l.IsAbsolute) (hsound : Race.Sound l source initial r) (hkept : Race.Kept source r)
    (hsource : l.sourceOn s.machine = source)
    (hread : s.machine.files.readText s.machine.cwd source = .ok content)
    (haccepted : ∀ text, initial = some (.link text) → linkText ⟨text⟩ = .ok text)
    (hleads : l.RightLeadsOn s.machine source) (hwon : r.Won) :
    l.entry s.machine = none ∨ s.machine.files.isFile s.machine.cwd l.environLink ∧
      s.machine.files.readText s.machine.cwd l.environLink = .ok content := by
  subst hsource
  by_cases hnone : r.entry = none
  · exact Or.inl (h.entry.trans hnone)
  · obtain ⟨text, htext, hsame⟩ := Layout.exists_of_leadsTo (hkept hwon hnone)
    have hlinked : l.entry s.machine = some (.link text) := h.entry.trans htext
    have htake : linkText ⟨text⟩ = .ok text := by
      rcases hsound.entry with hinitial | hgone | hfresh
      · exact haccepted text (hinitial.symm.trans htext)
      · exact absurd hgone hnone
      · obtain rfl := Entry.link.inj (Option.some.inj (htext.symm.trans hfresh))
        exact accepted_of_readText hread
    exact Or.inr (hl.read_of_right h.rooted hread hlinked htake hsame (hleads text hlinked hsame))

/-- A turn of a process is a turn in the race, as long as nothing disturbs it. -/
theorem Shows.turn (h : s.Shows l source content errands missed r)
    (hl : l.IsAbsolute) (hsound : Race.Sound l source initial r) (hkept : Race.Kept source r)
    (hsource : l.sourceOn s.machine = source)
    (hread : s.machine.files.readText s.machine.cwd source = .ok content)
    (hdir : initial ≠ some .dir)
    (haccepted : ∀ text, initial = some (.link text) → linkText ⟨text⟩ = .ok text)
    (hleads : l.RightLeadsOn s.machine source)
    (hspared : ∀ launch, s.next? i = some (.launch launch) →
      l.Rooted (s.turn children i).machine ∧
        l.entry (s.turn children i).machine = l.entry s.machine)
    (hmissed : ∀ j, missed j → missed' j)
    (hmiss : r.Won → l.entry s.machine = none → s.next? i = some (.isFile l.environLink) →
      missed' i) :
    (s.turn children i).Shows l source content errands missed' (r.turn l source i) := by
  by_cases hlt : i < r.stages.length
  · obtain ⟨e, d, stage, he, hd, hstage, hbindings, hleaves⟩ := h.exists_at hlt
    have hleaves' := hleaves.mono (hmissed i)
    apply h.of_comes he hd hstage hmissed
    rw [← h.entry]
    -- the turn belongs to the repair, or to what the dispatch does behind it
    by_cases hrepairing : ∃ result, stage = .returned result
    · obtain ⟨result, rfl⟩ := hrepairing
      cases result with
      | error f => exact Stage.comes_of_failed h.rooted hbindings hleaves'
      | ok status =>
        have hwon : r.Won := ⟨i, status, hstage⟩
        have hfinds := h.none_or_reads hl hsound hkept hsource hread haccepted hleads hwon
        apply Stage.comes_of_returned h.rooted hbindings hleaves ?_ (hmissed i) ?_ ?_
        · intro launch next hprogram
          have hturn := hspared launch (next?_eq_some_iff.mpr ⟨d, next, hd, hprogram⟩)
          rw [turn_of_some hd] at hturn
          exact hturn
        · intro next hprogram hfound
          rcases hfinds with hnone | ⟨hfile, -⟩
          · exact hmiss hwon hnone (next?_eq_some_iff.mpr ⟨d, next, hd, hprogram⟩)
          · cases hfile.symm.trans hfound
        · intro t ht
          rcases hfinds with hnone | ⟨-, hcontent⟩
          · cases ht.symm.trans (h.rooted.readText_of_none hnone)
          · exact Except.ok.inj (ht.symm.trans hcontent)
    · have hnodir : l.entry s.machine ≠ some .dir := by
        rw [h.entry]
        exact not_dir_of_sound hsound hdir
      exact Stage.comes_of_repairing h.rooted hsource hnodir hbindings (not_exists.mp hrepairing)
        hleaves'
  · -- a turn of a process that does not exist
    have hnone : s.dispatchers[i]? = none := List.getElem?_eq_none (h.length ▸ Nat.not_lt.mp hlt)
    rw [turn_of_none hnone, Race.turn_of_none (List.getElem?_eq_none (Nat.not_lt.mp hlt))]
    refine ⟨h.rooted, h.entry, h.count, h.length, fun j e d stage he hd hstage => ?_⟩
    obtain ⟨hbindings, hleaves⟩ := h.dispatchers j e d stage he hd hstage
    exact ⟨hbindings, hleaves.mono (hmissed j)⟩

lemma shows_start (hroot : l.Rooted m) (hrequests : ∀ e ∈ errands, e.request ≠ .help) :
    (l.site m errands).Shows l source content errands missed (race l m errands.length) where
  rooted := hroot
  entry := rfl
  count := by simp [race]
  length := by simp [Layout.site, race]
  dispatchers := by
    intro i e d stage he hd hstage
    obtain rfl : stage = .asking := Race.stage_start hstage
    obtain rfl : e.dispatcher l = d := by
      have hmap : (errands.map (·.dispatcher l))[i]? = some d := hd
      rw [List.getElem?_map, he] at hmap
      exact Option.some.inj hmap
    exact ⟨rfl, e.run_dispatch l (hrequests e (List.mem_of_getElem? he))⟩

/-- What goes on beside the dispatches is no matter to them: the source stays the same file with the
same content, a link with its components leads on to it, and no child touches the root or the managed
link. -/
structure Undisturbed (children : Children) (l : Layout) (content : Text) (s : Site)
    (schedule : List ℕ) : Prop where
  source : ∀ before, before <+: schedule →
    l.sourceOn (s.after children before).machine = l.sourceOn s.machine
  text : ∀ before, before <+: schedule →
    (s.after children before).machine.files.readText (s.after children before).machine.cwd
      (l.sourceOn s.machine) = .ok content
  leads : ∀ before, before <+: schedule →
    l.RightLeadsOn (s.after children before).machine (l.sourceOn s.machine)
  spared : ∀ before i launch, before ++ [i] <+: schedule →
    (s.after children before).next? i = some (.launch launch) →
    l.Rooted (s.after children (before ++ [i])).machine ∧
      l.entry (s.after children (before ++ [i])).machine = l.entry (s.after children before).machine

lemma Undisturbed.of_prefix {before schedule : List ℕ}
    (h : s.Undisturbed children l content schedule) (hbefore : before <+: schedule) :
    s.Undisturbed children l content before where
  source b hb := h.source b (hb.trans hbefore)
  text b hb := h.text b (hb.trans hbefore)
  leads b hb := h.leads b (hb.trans hbefore)
  spared b j launch hb := h.spared b j launch (hb.trans hbefore)

/-! ## Histories -/

/-- A process whose repair has a call to make makes it on its next turn. -/
lemma Shows.next?_of_stage (h : s.Shows l source content errands missed r) {j : ℕ} {c : Call}
    (hj : r.stages[j]? = some stage) (hcall : (stage.program l source).next? = some c) :
    s.next? j = some c := by
  obtain ⟨e, d, stage', -, hd, hstage', -, hleaves⟩ :=
    h.exists_at (List.getElem?_eq_some_iff.mp hj).1
  obtain rfl : stage = stage' := Option.some.inj (hj.symm.trans hstage')
  have hprogram : d.program = stage.program l source >>= e.follow l :=
    hleaves.program_eq fun status hreturned => by
      rw [hreturned] at hcall
      cases hcall
  cases hstage : stage.program l source with
  | done result =>
    rw [hstage] at hcall
    cases hcall
  | call c' rest =>
    rw [hstage] at hcall hprogram
    obtain rfl := Option.some.inj hcall
    exact next?_eq_some_iff.mpr ⟨d, _, hd, hprogram⟩

/-- A link that is undone in the race is undone on the site. -/
lemma undone_of_race {missed : List ℕ → ℕ → Prop} {j : ℕ} {looked removed before : List ℕ}
    (hshows : ∀ t, t <+: before →
      (s.after children t).Shows l source content errands (missed t) (r.after l source t))
    (h : Race.Undone l source r j looked removed before) :
    s.Undone children l source j looked removed before := by
  refine Undoes.of_history h ?reads ?removes ?makes fun t ht => (hshows t ht).entry
  case reads => exact fun t ht hj => (hshows t ht).next?_of_stage hj rfl
  case removes => exact fun t ht ⟨previous, hj⟩ => (hshows t ht).next?_of_stage hj rfl
  case makes => exact fun t ht ⟨previous, hj⟩ => (hshows t ht).next?_of_stage hj rfl

/-- A process past its repair that finds nothing when it asks for the environ file misses the link. -/
lemma misses_of_won {missed : List ℕ → ℕ → Prop} {before : List ℕ}
    (hshows : ∀ t, t <+: before →
      (s.after children t).Shows l source content errands (missed t) (r.after l source t))
    (hsound : Race.Sound l source initial r) (haccepted : linkText source = .ok source.text)
    (hstart : ∀ (j : ℕ) (s : Stage), r.stages[j]? = some s → s = .asking)
    (hwon : (r.after l source before).Won)
    (hnone : l.entry (s.after children before).machine = none)
    (hasks : (s.after children before).next? i = some (.isFile l.environLink)) :
    s.Misses children l source initial before i := by
  have hnothing := (hshows before List.prefix_rfl).entry.symm.trans hnone
  refine ⟨hasks, hnone, fun hright => ?_, ?_⟩
  · rw [((hsound.after before).right hright).1] at hnothing
    rw [hnothing] at hright
    exact Race.not_leadsTo_none hright
  · obtain ⟨j, looked, removed, h⟩ := Race.exists_undone haccepted hstart hwon hnothing
    have hundone := undone_of_race hshows h
    refine ⟨j, ?_, looked, removed, hundone⟩
    rintro rfl
    cases hasks.symm.trans hundone.makes

/-- At each moment, the site shows as the race that it has begun. -/
theorem shows_of_prefix (hl : l.IsAbsolute) (hroot : l.Rooted m) (hdir : l.entry m ≠ some .dir)
    (haccepted : m.files.LinksAccepted) (hrequests : ∀ e ∈ errands, e.request ≠ .help)
    {schedule : List ℕ} (h : (l.site m errands).Undisturbed children l content schedule)
    {before : List ℕ} (hbefore : before <+: schedule) :
    ((l.site m errands).after children before).Shows l (l.sourceOn m) content errands
      ((l.site m errands).Missed children l (l.sourceOn m) (l.entry m) before)
      ((race l m errands.length).after l (l.sourceOn m) before) := by
  have hlinks : ∀ text, l.entry m = some (.link text) → linkText ⟨text⟩ = .ok text := by
    intro text hlink
    rw [hroot.entry_eq] at hlink
    exact haccepted _ _ hlink
  have htake : linkText (l.sourceOn m) = .ok (l.sourceOn m).text :=
    accepted_of_readText (h.text [] List.nil_prefix)
  have hsound : Race.Sound l (l.sourceOn m) (l.entry m) (race l m errands.length) :=
    Race.sound_start _
  have hstart : ∀ (j : ℕ) (s : Stage), (race l m errands.length).stages[j]? = some s →
      s = .asking := fun _ _ => Race.stage_start
  have hkept : Race.Kept (l.sourceOn m) (race l m errands.length) :=
    fun hwon => absurd hwon (Race.not_won_of_asking hstart)
  -- the last turn is taken off, since its process finds the link as the turns before it have left it
  induction schedule using List.reverseRecOn generalizing before with
  | nil =>
    obtain rfl := List.prefix_nil.mp hbefore
    exact shows_start hroot hrequests
  | append_singleton earlier i ih =>
    have hprefix : earlier <+: earlier ++ [i] := List.prefix_append ..
    have hshows {t : List ℕ} (ht : t <+: earlier) := ih (h.of_prefix hprefix) ht
    rcases List.prefix_concat_iff.mp hbefore with rfl | hearlier
    · rw [after_concat, Race.after_append]
      apply (hshows List.prefix_rfl).turn hl (hsound.after earlier) (hkept.after earlier)
        (h.source earlier hprefix) (h.text earlier hprefix) hdir hlinks (h.leads earlier hprefix)
      · intro launch hcalls
        rw [← after_concat]
        exact h.spared earlier i launch List.prefix_rfl hcalls
      · rintro j ⟨b, hb, hmisses⟩
        exact ⟨b, hb.trans hprefix, hmisses⟩
      · intro hwon hnone hasks
        exact ⟨earlier, List.prefix_rfl, misses_of_won (fun t ht => hshows ht) hsound htake hstart
          hwon hnone hasks⟩
    · exact hshows hearlier

end Site

/-- Any number of dispatches on one layout, in any order of their calls: each child that one of them
is about to start is provided with all that the source assigns, or with none of it if its process has
missed the link. -/
theorem provides_dispatches (hl : l.IsAbsolute) (hroot : l.Rooted m) (hdir : l.entry m ≠ some .dir)
    (haccepted : m.files.LinksAccepted) (hrequests : ∀ e ∈ errands, e.request ≠ .help)
    {schedule : List ℕ} (h : (l.site m errands).Undisturbed children l content schedule)
    {launch : Launch}
    (hlaunch : ((l.site m errands).after children schedule).next? i = some (.launch launch)) :
    ∃ e, errands[i]? = some e ∧ l.Provides e.bindings content
      ((l.site m errands).Missed children l (l.sourceOn m) (l.entry m) schedule i)
      launch.bindings := by
  have hshows := Site.shows_of_prefix hl hroot hdir haccepted hrequests h List.prefix_rfl
  obtain ⟨d, next, hd, hprogram⟩ := Site.next?_eq_some_iff.mp hlaunch
  have hlt : i < ((l.site m errands).after children schedule).dispatchers.length :=
    (List.getElem?_eq_some_iff.mp hd).1
  rw [hshows.length] at hlt
  obtain ⟨e, d', stage, he, hd', -, -, hleaves⟩ := hshows.exists_at hlt
  obtain rfl : d = d' := Option.some.inj (hd.symm.trans hd')
  rw [hprogram] at hleaves
  obtain ⟨status, rfl⟩ := hleaves.exists_returned
  exact ⟨e, he, (hleaves _ id).1⟩

/-- Nothing is disturbed by a schedule on which no child is started and the source stays the same. -/
lemma Site.Undisturbed.of_take {schedule : List ℕ}
    (hsource : ∀ k ≤ schedule.length, l.sourceOn (s.after children (schedule.take k)).machine =
      l.sourceOn s.machine)
    (htext : ∀ k ≤ schedule.length, (s.after children (schedule.take k)).machine.files.readText
      (s.after children (schedule.take k)).machine.cwd (l.sourceOn s.machine) = .ok content)
    (hleads : ∀ k ≤ schedule.length,
      l.RightLeadsOn (s.after children (schedule.take k)).machine (l.sourceOn s.machine))
    (hidle : ∀ k < schedule.length, (s.after children (schedule.take k)).dispatchers.all
      fun d => d.program.next?.all (!·.starts)) :
    s.Undisturbed children l content schedule where
  source before h := List.prefix_iff_eq_take.mp h ▸ hsource _ h.length_le
  text before h := List.prefix_iff_eq_take.mp h ▸ htext _ h.length_le
  leads before h := List.prefix_iff_eq_take.mp h ▸ hleads _ h.length_le
  spared := by
    intro before i launch h hnext
    have hlt : before.length < schedule.length := by
      have hle := h.length_le
      rw [List.length_append, List.length_singleton] at hle
      omega
    have hbefore := List.prefix_iff_eq_take.mp ((List.prefix_append before [i]).trans h)
    rw [hbefore] at hnext
    -- the call would be one that starts a child, and there is none
    obtain ⟨d, hd, hcall⟩ := Option.bind_eq_some_iff.mp hnext
    have hstarts := List.all_eq_true.mp (hidle _ hlt) d (List.mem_of_getElem? hd)
    rw [hcall] at hstarts
    cases hstarts

/-- A machine with a script, an environ file, and an old link. -/
def gapMachine : Machine := .holding
  [([.text "r".toList], .dir), ([.text "r".toList, .text "x.sh".toList], .file [] true),
   ([.text "r".toList, .text "config".toList], .dir),
   ([.text "r".toList, .text "config".toList, .text "environ.sh".toList],
     .file (Text.encode "A=1".toList) false),
   ([.text "r".toList, .text "environ.sh".toList], .link "/old/environ.sh".toList)]

/-- The layout of its root. -/
def gapLayout : Layout := staleLayout "config/environ.sh"

/-- Two errands to run the script. -/
def gapErrands : List Errand := List.replicate 2 ⟨[], ⟨true, false⟩, .plain, .run "x.sh".toList []⟩

/-- The turns by which the first errand asks for the environ file in the gap that the second one has
made. -/
def gapSchedule : List ℕ := [1, 1, 1, 0, 0, 0, 0, 0, 0, 1, 0]

lemma gap_fits : gapLayout.IsAbsolute ∧ gapLayout.Rooted gapMachine ∧
    gapLayout.entry gapMachine ≠ some .dir ∧ gapMachine.files.LinksAccepted ∧
    ∀ e ∈ gapErrands, e.request ≠ .help := by
  have hentry : gapLayout.entry gapMachine = some (.link "/old/environ.sh".toList) := by cbv
  have hstands : gapLayout.Stands gapMachine := ⟨by cbv, by cbv⟩
  refine ⟨⟨_, _, rfl, rfl⟩, hstands.rooted_of_canonical (by cbv), by simp [hentry], ?_, ?_⟩
  · refine linksAccepted_of_entries fun e he text htext => ?_
    simp only [gapMachine, Machine.holding, List.mem_cons, List.not_mem_nil, or_false] at he
    rcases he with rfl | rfl | rfl | rfl | rfl
    all_goals cases htext
    cbv
  · intro e he
    rw [List.eq_of_mem_replicate he]
    rintro ⟨⟩

/-- The link has its old text, or that of the source, which asks for no directory. -/
lemma rightLeadsOn_gap {k : ℕ} (hk : k ≤ 11) : gapLayout.RightLeadsOn
    ((gapLayout.site gapMachine gapErrands).after .absent (gapSchedule.take k)).machine
    (gapLayout.sourceOn gapMachine) := by
  have hentry : decide (gapLayout.entry
      ((gapLayout.site gapMachine gapErrands).after .absent (gapSchedule.take k)).machine ∈
      [none, some (.link "/old/environ.sh".toList),
        some (.link "/r/config/environ.sh".toList)]) = true := by
    interval_cases k <;> cbv
  -- for each turn on its own this is computed, and so is what stands there
  have hfew : decide (((gapLayout.site gapMachine gapErrands).after .absent
      (gapSchedule.take k)).machine.files.locate
        ((gapLayout.site gapMachine gapErrands).after .absent (gapSchedule.take k)).machine.cwd
        true gapLayout.environLink = .error .tooManyLinks) = false := by
    interval_cases k <;> cbv
  intro text htext hsame
  refine ⟨?_, of_decide_eq_false hfew⟩
  rw [decide_eq_true_iff, htext] at hentry
  simp only [List.mem_cons, Option.some.injEq, Entry.link.injEq, List.not_mem_nil, or_false,
    reduceCtorEq, false_or] at hentry
  rcases hentry with rfl | rfl
  · have hother : Path.same ⟨"/old/environ.sh".toList⟩ (gapLayout.sourceOn gapMachine) = false := by
      cbv
    cases hother.symm.trans hsame
  · rintro (hslash | hdot)
    · exact absurd hslash (by decide)
    · exact absurd hdot (by decide)

lemma undisturbed_gap :
    (gapLayout.site gapMachine gapErrands).Undisturbed .absent gapLayout "A=1".toList gapSchedule := by
  refine .of_take ?_ ?_ (fun k hk => rightLeadsOn_gap hk) ?_
  · intro k hk
    change k ≤ 11 at hk
    interval_cases k <;> cbv
  · intro k hk
    change k ≤ 11 at hk
    interval_cases k <;> cbv
  · intro k hk
    change k < 11 at hk
    interval_cases k <;> cbv

/-- What the first errand is about to start then has none of the variables of the environ file. -/
lemma next?_gap : ((gapLayout.site gapMachine gapErrands).after .absent gapSchedule).next? 0 =
    some (.launch ⟨⟨⟨"/r/x.sh".toList⟩, []⟩, gapLayout.exportedVariables⟩) := by cbv

/-- The first errand has missed the link. -/
theorem provides_in_gap : ∃ e, gapErrands[0]? = some e ∧
    gapLayout.Provides e.bindings "A=1".toList
      ((gapLayout.site gapMachine gapErrands).Missed .absent gapLayout
        (gapLayout.sourceOn gapMachine) (gapLayout.entry gapMachine) gapSchedule 0)
      gapLayout.exportedVariables := by
  obtain ⟨habsolute, hroot, hdir, haccepted, hrequests⟩ := gap_fits
  exact provides_dispatches habsolute hroot hdir haccepted hrequests undisturbed_gap next?_gap

/-- With no turn of the other in between, it would have had them all. -/
example : ((gapLayout.site gapMachine gapErrands).after .absent (List.replicate 9 0)).next? 0 =
    some (.launch ⟨⟨⟨"/r/x.sh".toList⟩, []⟩,
      gapLayout.exportedVariables ++ [("A".toList, "1".toList)]⟩) := by cbv

/-- Two dispatches do not always provide their children with all that the source assigns. -/
theorem exists_unprovided_child : ¬ ∀ (children : Children) (l : Layout) (m : Machine)
    (content : Text) (errands : List Errand) (schedule : List ℕ) (i : ℕ) (launch : Launch),
    l.IsAbsolute → l.Rooted m → l.entry m ≠ some .dir → m.files.LinksAccepted →
    errands.length = 2 → (∀ e ∈ errands, e.request ≠ .help) →
    (l.site m errands).Undisturbed children l content schedule →
    ((l.site m errands).after children schedule).next? i = some (.launch launch) →
    ∃ e, errands[i]? = some e ∧ launch.bindings =
      l.exportedVariables ++ Environ.parse e.bindings l.exportedVariables content := by
  intro hall
  obtain ⟨habsolute, hroot, hdir, haccepted, hrequests⟩ := gap_fits
  obtain ⟨e, he, hbindings⟩ := hall .absent gapLayout gapMachine _ gapErrands gapSchedule 0 _
    habsolute hroot hdir haccepted rfl hrequests undisturbed_gap next?_gap
  have hnone : Environ.parse e.bindings gapLayout.exportedVariables "A=1".toList = [] :=
    List.self_eq_append_right.mp hbindings
  obtain rfl : ⟨[], ⟨true, false⟩, .plain, .run "x.sh".toList []⟩ = e := Option.some.inj he
  have hone : Environ.parse [] gapLayout.exportedVariables "A=1".toList =
      [("A".toList, "1".toList)] := by cbv
  cases hone.symm.trans hnone

end Caretaker

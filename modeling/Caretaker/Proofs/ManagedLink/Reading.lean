import Caretaker.Proofs.FileSystem.Following
import Caretaker.Proofs.ManagedLink.Repair

/-!
# Reading through the managed link

An environ file is loaded through the managed link just as from the source, once the link has been
repaired, except in two cases. Two paths with the same components may still lead to different ends,
since one of them may ask for a directory; and the link is one more to follow.
-/

namespace Caretaker

open FileSystem Caretaker.Path

/-! ## Loading -/

namespace Environ

variable (children : Children) (m : Machine) (base : Bindings) (path : Path)

/-- What loading an environ file that may be missing gives. -/
def loaded : Except Fault Bindings := (m.runAction children (loadOptional path base)).1

/-- What is loaded is the text of a file, parsed, or nothing. -/
lemma loaded_eq : loaded children m base path =
    if m.files.isFile m.cwd path then
      ((m.files.readText m.cwd path).mapError .io).map (parse m.bindings base)
    else .ok [] := by
  have hfile : (Machine.answer children (.isFile path) m).1 = m.files.isFile m.cwd path := rfl
  have hread : (Machine.answer children (.readText path) m).1 = m.files.readText m.cwd path := rfl
  rw [loaded, loadOptional, m.runAction_bind, m.runAction_ask]
  dsimp only
  rw [hfile]
  split_ifs
  · change (m.runAction children (load path base)).1 = _
    rw [load, m.runAction_bind, m.runAction_bind, m.runAction_ask]
    dsimp only
    rw [Machine.runAction_orFault, hread]
    cases m.files.readText m.cwd path <;> rfl
  · rfl

/-- Paths that lead to the same entry load alike. -/
lemma loaded_congr {path path' : Path}
    (h : m.files.find m.cwd true path = m.files.find m.cwd true path') :
    loaded children m base path = loaded children m base path' := by
  have hfile : m.files.isFile m.cwd path = m.files.isFile m.cwd path' := by
    rw [isFile, isFile, h]
  rw [loaded_eq, loaded_eq, hfile, readText_congr h]

lemma loaded_of_not_isFile {path : Path} (h : ¬ m.files.isFile m.cwd path) :
    loaded children m base path = .ok [] := by
  rw [loaded_eq, if_neg h]

end Environ

/-! ## Links that a machine holds -/

variable (children : Children)

/-- A machine lets no link be made with a text that is not accepted. -/
lemma Machine.linksAccepted_answer (c : Call) (m : Machine) (hc : ¬ c.starts)
    (h : m.files.LinksAccepted) : (answer children c m).2.files.LinksAccepted := by
  cases c with
  | remove p =>
    rw [answer]
    cases hremove : m.files.remove m.cwd p with
    | error f => exact h
    | ok files => exact h.remove hremove
  | makeLink target p =>
    rw [answer]
    cases hmake : m.files.makeLink m.cwd target p with
    | error f => exact h
    | ok files => exact h.makeLink hmake
  | launch l => exact absurd rfl hc
  | _ => exact h

/-- A repair leaves no link with a text that is not accepted. -/
lemma LinkStatus.linksAccepted_of_ensure {m : Machine} (h : m.files.LinksAccepted) (l : Layout) :
    (m.runAction children (ensure l)).2.files.LinksAccepted :=
  Machine.run_of_only (I := (·.files.LinksAccepted)) children
    (Machine.linksAccepted_answer children) (only_ensure l) h

/-! ## Layouts of absolute roots -/

namespace Layout

/-- A layout of a root that is an absolute path. -/
def IsAbsolute (l : Layout) : Prop :=
  ∃ (root : Path) (s : Settings), root.isAbsolute ∧ l = ofSettings root s

variable {l : Layout} {m : Machine}

/-- A layout that is loaded is one of the directory to which the path of its root leads. -/
lemma exists_of_load {root : Path} (h : (m.runAction children (load root)).1 = .ok l) :
    ∃ (place : Place) (s : Settings), m.files.find m.cwd true root = .ok (place, .dir) ∧
      l = ofSettings (placePath place) s := by
  obtain ⟨isDir, hdir, h⟩ := Machine.exists_of_runAction_bind h
  obtain rfl : m.files.isDir m.cwd root = isDir := Except.ok.inj hdir
  split_ifs at h with hdir
  · obtain ⟨found, hfound, h⟩ := Machine.exists_of_runAction_bind h
    obtain ⟨s, -, h⟩ := Machine.exists_of_runAction_bind h
    rw [Machine.runAction_bind, Machine.runAction_ask] at hfound
    dsimp only at hfound
    rw [Machine.runAction_orFault] at hfound
    change (m.files.canonical m.cwd root).mapError Fault.io = .ok found at hfound
    obtain ⟨place, hlocate, hget⟩ := exists_locate_of_isDir hdir
    have hfind := find_eq_ok_iff.mpr ⟨hlocate, hget⟩
    rw [canonical, hfind] at hfound
    obtain rfl := Except.ok.inj hfound
    exact ⟨place, s, hfind, (Except.ok.inj h).symm⟩
  · cases h

/-- Every layout that is loaded has an absolute root. -/
theorem isAbsolute_of_load {root : Path} (h : (m.runAction children (load root)).1 = .ok l) :
    l.IsAbsolute := by
  obtain ⟨place, s, -, rfl⟩ := exists_of_load children h
  exact ⟨placePath place, s, rfl, rfl⟩

/-- The root of a layout that is loaded stands, and no way to it leads through the managed link, if
the operating system takes the path of that link. -/
theorem rooted_of_load {root : Path} (hcwd : Reached m.files m.cwd)
    (h : (m.runAction children (load root)).1 = .ok l)
    (haccepted : linkText l.environLink = .ok l.environLink.text) : l.Rooted m := by
  obtain ⟨place, s, hfind, rfl⟩ := exists_of_load children h
  obtain ⟨hlocate, hget⟩ := find_eq_ok_iff.mp hfind
  obtain ⟨-, -, -, hwalk⟩ := walk_of_locate hlocate
  -- the walk to the root started above directories alone, and so it has ended
  have hreached : Reached m.files place :=
    reached_of_walk (hcwd.start root.text) (fun n hn => isName_of_into_mem_steps hn) hwalk
  obtain ⟨names, rfl, hspells⟩ := hreached.exists_spells hget
  rw [placePath_map_text] at haccepted ⊢
  obtain ⟨hnul, -, hshort⟩ := linkText_eq_ok_iff.mp haccepted
  -- the path of the root begins the path of the managed link, so it is taken as well
  obtain ⟨behind, hlink⟩ : ∃ behind : Text,
      (ofSettings (ofNames true names) s).environLink.text = (ofNames true names).text ++ behind :=
    (exists_join_eq_append _ isName_linkName).imp fun _ h => h.1
  have hroot : m.files.find m.cwd true (ofNames true names) = .ok (names.map .text, .dir) := by
    have hlength := congrArg Text.byteLength hlink
    rw [byteLength_append] at hlength
    have hlocate := hspells.locate_self (fun hc => hnul (hlink ▸ List.mem_append_left behind hc))
      (by omega) m.cwd true
    exact find_eq_ok_iff.mpr ⟨hlocate, hget⟩
  have hstands : (ofSettings (ofNames true names) s).Stands m := by
    refine ⟨?_, hshort⟩
    change m.files.isDir m.cwd (ofNames true names)
    rw [isDir, hroot]
  refine hstands.rooted_of_canonical ?_
  change m.files.canonical m.cwd (ofNames true names) = .ok (ofNames true names)
  rw [canonical, hroot, ← placePath_map_text]
  rfl

/-- The source is a path in normal form. -/
lemma IsAbsolute.exists_sourceOn (h : l.IsAbsolute) (m : Machine) :
    ∃ names, l.sourceOn m = ofNames true names ∧ ∀ n ∈ names, IsMoving n := by
  obtain ⟨root, s, hroot, rfl⟩ := h
  have hbuild : (root.join s.buildRoot).normalize.isAbsolute :=
    isAbsolute_normalize (isAbsolute_join hroot _)
  rw [sourceOn]
  split_ifs
  · obtain ⟨names, hnames, hmoving⟩ := exists_normalize (isAbsolute_join hbuild s.overrideDir)
    refine ⟨names ++ [linkName], ?_, ?_⟩
    · have hdir : (ofSettings root s).overrideDir = ofNames true names := hnames
      rw [overrideEnviron, hdir]
      exact join_ofNames (fun n hn => (hmoving n hn).1) isName_linkName.toIsSegment
    · intro n hn
      rcases List.mem_append.mp hn with hn | hn
      · exact hmoving n hn
      · exact List.mem_singleton.mp hn ▸ ⟨isName_linkName.toIsSegment, isName_linkName.ne_dot⟩
  · exact exists_normalize (isAbsolute_join hroot s.environSource)

lemma IsAbsolute.exists_environLink (h : l.IsAbsolute) :
    ∃ front, l.environLink.text = front ++ '/' :: linkName := by
  obtain ⟨root, s, hroot, rfl⟩ := h
  exact exists_text_join hroot isName_linkName

/-! ## Reading alike -/

/-- The managed link, which has a given text, leads on to files: its text does not ask for a
directory, and following it is not one link too many. -/
def LeadsOn (l : Layout) (m : Machine) (text : Path) : Prop :=
  ¬ AsksForDir text ∧ m.files.locate m.cwd true l.environLink ≠ .error .tooManyLinks

variable {source text : Path}

/-- A right link that leads on leads where the source does. -/
lemma IsAbsolute.find_of_accepted (h : l.IsAbsolute) {m₀ : Machine}
    (hread : m.files.readLink m.cwd l.environLink = .ok text)
    (haccepted : linkText text = .ok text.text) (hsame : text.same (l.sourceOn m₀))
    (hleads : l.LeadsOn m text) :
    m.files.find m.cwd true l.environLink = m.files.find m.cwd true (l.sourceOn m₀) := by
  obtain ⟨front, hlink⟩ := h.exists_environLink
  obtain ⟨names, hsource, hnames⟩ := h.exists_sourceOn m₀
  rw [hsource] at hsame ⊢
  exact find_of_readLink hlink isName_linkName hread haccepted hnames hsame hleads.1 hleads.2

/-- So does any right link on a machine that takes the texts of its links. -/
lemma IsAbsolute.find_of_leadsOn (h : l.IsAbsolute) (haccepted : m.files.LinksAccepted)
    {m₀ : Machine} (hread : m.files.readLink m.cwd l.environLink = .ok text)
    (hsame : text.same (l.sourceOn m₀)) (hleads : l.LeadsOn m text) :
    m.files.find m.cwd true l.environLink = m.files.find m.cwd true (l.sourceOn m₀) := by
  obtain ⟨place, -, hget⟩ := exists_of_readLink hread
  exact h.find_of_accepted hread (haccepted _ _ hget) hsame hleads

/-- A link that does not lead on leads to no file. -/
lemma IsAbsolute.not_isFile_of_not_leadsOn (h : l.IsAbsolute)
    (hread : m.files.readLink m.cwd l.environLink = .ok text) (hleads : ¬ l.LeadsOn m text) :
    ¬ m.files.isFile m.cwd l.environLink := by
  obtain ⟨front, hlink⟩ := h.exists_environLink
  intro hfile
  rw [isFile] at hfile
  rcases hfind : m.files.find m.cwd true l.environLink with
    f | ⟨place, _ | ⟨content, executable⟩ | _⟩
  all_goals rw [hfind] at hfile
  · cases hfile
  · cases hfile
  · refine hleads ⟨fun hask => ?_, fun hmany => ?_⟩
    · exact find_ne_file_of_asksForDir hlink isName_linkName hread hask _ _ _ hfind
    · rw [(find_eq_ok_iff.mp hfind).1] at hmany
      cases hmany
  · cases hfile

end Layout

/-- How the managed link of a layout reads on the machine `m'` that a repair has made of `m`, with
the status that the repair ended with, the base variables for loading, and the text of the link. -/
structure Repair.Reading (children : Children) (l : Layout) (m m' : Machine) (status : LinkStatus)
    (base : Bindings) (text : Path) : Prop where
  /-- The link has the text, and the components of the source for which it was repaired. -/
  right : m'.files.readLink m'.cwd l.environLink = .ok text ∧ text.same (l.sourceOn m)
  /-- Where the link was right, nothing has been touched. -/
  untouched : status = .current → m' = m
  /-- The link leads to a file if the source does, as far as it leads on. -/
  leads : m'.files.isFile m'.cwd l.environLink ↔
    l.LeadsOn m' text ∧ m'.files.isFile m'.cwd (l.sourceOn m)
  /-- It loads as the source for which it was repaired if it leads on, or if nothing is lost. -/
  alike : Environ.loaded children m' base l.environLink =
      Environ.loaded children m' base (l.sourceOn m) ↔
    l.LeadsOn m' text ∨ Environ.loaded children m' base (l.sourceOn m) = .ok []
  /-- It loads as what has become the source by then, if that one loads as the other did, or if
  nothing is lost. -/
  after : Environ.loaded children m' base l.environLink =
      Environ.loaded children m' base (l.sourceOn m') ↔
    l.LeadsOn m' text ∧ Environ.loaded children m' base (l.sourceOn m) =
      Environ.loaded children m' base (l.sourceOn m') ∨
    ¬ l.LeadsOn m' text ∧ Environ.loaded children m' base (l.sourceOn m') = .ok []

/-- However the link came to be right, it reads like the source just as far as it leads on. -/
theorem LinkStatus.exists_reading {l : Layout} {m m' : Machine} {status : LinkStatus}
    (hl : l.IsAbsolute) (haccepted : m.files.LinksAccepted)
    (h : m.runAction children (ensure l) = (.ok status, m')) (base : Bindings) :
    ∃ text, Repair.Reading children l m m' status base text := by
  have hstatus : (m.runAction children (ensure l)).1 = .ok status := by rw [h]
  have haccepted' : m'.files.LinksAccepted := by
    have := linksAccepted_of_ensure children haccepted l
    rwa [h] at this
  obtain ⟨text, hread, hsame⟩ : Repair.IsRight (l.sourceOn m) l.environLink m' := by
    have := isRight_of_ensure children hstatus
    rwa [h] at this
  have huntouched : status = .current → m' = m := by
    rintro rfl
    have := eq_of_current children hstatus
    rwa [h] at this
  -- either the link leads where the source does, or it leads to no file
  by_cases hleads : l.LeadsOn m' text
  · have hfind := hl.find_of_leadsOn haccepted' hread hsame hleads
    have hloaded := Environ.loaded_congr children m' base hfind
    have hfile : m'.files.isFile m'.cwd l.environLink = m'.files.isFile m'.cwd (l.sourceOn m) := by
      rw [isFile, isFile, hfind]
    exact ⟨text, ⟨hread, hsame⟩, huntouched, by simp [hfile, hleads], by simp [hloaded, hleads],
      by simp [hloaded, hleads]⟩
  · have hfile := hl.not_isFile_of_not_leadsOn hread hleads
    have hloaded := Environ.loaded_of_not_isFile children m' base hfile
    exact ⟨text, ⟨hread, hsame⟩, huntouched, by simp [hfile, hleads],
      by simp [hloaded, hleads, eq_comm], by simp [hloaded, hleads, eq_comm]⟩

/-- A machine with an environ file, and with a link to it that asks for a directory. -/
def slashMachine : Machine := .holding
  [([.text "r".toList], .dir), ([.text "r".toList, .text "config".toList], .dir),
   ([.text "r".toList, .text "config".toList, .text "environ.sh".toList],
     .file (Text.encode "A=1".toList) false),
   ([.text "r".toList, .text "environ.sh".toList], .link "/r/config/environ.sh/".toList)]

/-- The layout of its root, with nothing configured. -/
def slashLayout : Layout := .ofSettings ⟨"/r".toList⟩ .standard

/-- The link is found right, and yet it gives no variable where the source gives one. -/
theorem LinkStatus.exists_reading_behind_slash :
    (∃ text, Repair.Reading .absent slashLayout slashMachine slashMachine .current [] text) ∧
    Environ.loaded .absent slashMachine [] slashLayout.environLink = .ok [] ∧
    Environ.loaded .absent slashMachine [] (slashLayout.sourceOn slashMachine) =
      .ok [("A".toList, "1".toList)] := by
  have habsolute : slashLayout.IsAbsolute := ⟨_, _, rfl, rfl⟩
  have haccepted : slashMachine.files.LinksAccepted := by
    refine linksAccepted_of_entries fun e he text htext => ?_
    simp only [slashMachine, Machine.holding, List.mem_cons, List.not_mem_nil, or_false] at he
    rcases he with rfl | rfl | rfl | rfl
    · cases htext
    · cases htext
    · cases htext
    · obtain rfl := Entry.link.inj htext
      cbv
  have hcurrent : slashMachine.runAction .absent (ensure slashLayout) =
      (.ok .current, slashMachine) := by cbv
  exact ⟨exists_reading .absent habsolute haccepted hcurrent [], by cbv, by cbv⟩

end Caretaker

import Caretaker.Proofs.ManagedLink.Course

/-!
# A repair on its own

What a repair that nothing disturbs returns and what it does to the files, both as a whole: it ends
well exactly if it can, it says what it has done, and it leaves everything else alone.
-/

namespace Caretaker

open FileSystem Caretaker.Path

namespace Layout

variable {l : Layout} {m m' : Machine}

/-! ## Where the managed link belongs -/

/-- Without a root there is no place for the managed link. -/
theorem exists_locate_error_of_not_stands (hne : l.root.text ≠ []) (h : ¬ l.Stands m) :
    ∃ f, m.files.locate m.cwd false l.environLink = .error f := by
  by_cases hshort : Text.byteLength l.environLink.text < maxPath
  · have hdir : ¬ m.files.isDir m.cwd l.root := fun hdir => h ⟨hdir, hshort⟩
    rw [locate_environLink hne hshort]
    cases hroot : m.files.locate m.cwd true l.root with
    | error f => exact ⟨f, rfl⟩
    | ok parent =>
      show ∃ f, m.files.walk 0 false parent [.into (.text linkName)] = .error f
      rw [FileSystem.isDir, find_of_locate hroot] at hdir
      cases he : m.files.get? parent with
      | none => exact ⟨_, walk_of_none he⟩
      | some e =>
        refine ⟨_, walk_of_not_dir he ?_⟩
        rintro rfl
        rw [he] at hdir
        exact hdir rfl
  · cases hl : m.files.locate m.cwd false l.environLink with
    | error f => exact ⟨f, rfl⟩
    | ok place => exact absurd (walk_of_locate hl).2.2.1 hshort

/-- Without a root there is nothing to clear. -/
lemma Clears.eq_of_not_stands {m₁ : Machine} (h : l.Clears m m₁) (hne : l.root.text ≠ [])
    (hstands : ¬ l.Stands m) : m₁ = m := by
  obtain ⟨f, hf⟩ := exists_locate_error_of_not_stands hne hstands
  cases h with
  | absent => rfl
  | removed hplace => cases hf.symm.trans hplace

/-- A root that stands does not lead through an entry that is missing. -/
lemma Stands.apart_of_none (h : l.Stands m) (hnone : l.entry m = none) : l.Apart m := by
  intro place hplace
  obtain ⟨parent, hroot, hdir⟩ := exists_locate_of_isDir h.isDir
  rw [entry_of_locate hplace] at hnone
  exact not_passes_of_none hnone (find_eq_ok_iff.mpr ⟨hroot, hdir⟩)

/-- Once the place is clear, a root that leads there by another way still does, -/
lemma Stands.exists_locate_of_clears {m₁ : Machine} (h : l.Stands m) (hapart : l.Apart m)
    (hclears : l.Clears m m₁) : ∃ place, m₁.files.locate m₁.cwd false l.environLink = .ok place := by
  obtain ⟨parent, hroot, hdir⟩ := exists_locate_of_isDir h.isDir
  have hlink := locate_environLink_of_dir h.short hroot hdir
  cases hclears with
  | absent => exact ⟨_, hlink⟩
  | @removed place e hplace he hne =>
    have hagree := agreeOff_clear (ne_nil_of_get? he hne) m.files
    have hnotdir : m.files.get? place ≠ some .dir := by
      rw [he]
      simpa using hne
    have hroot' := locate_of_not_passes hagree hnotdir (hapart place hplace) hroot
    exact ⟨_, locate_environLink_of_dir h.short hroot' (hagree.get?_dir hnotdir hdir)⟩

/-- and one that leads there through the entry leads nowhere. -/
lemma Stands.locate_of_clears {m₁ : Machine} (h : l.Stands m) (hapart : ¬ l.Apart m)
    (hclears : l.Clears m m₁) :
    m₁.files.locate m₁.cwd false l.environLink = .error .noEntry := by
  obtain ⟨parent, hroot, hdir⟩ := exists_locate_of_isDir h.isDir
  cases hclears with
  | absent hnone => exact absurd (h.apart_of_none hnone) hapart
  | @removed place e hplace he hne =>
    obtain ⟨place', hplace', hpasses⟩ : ∃ place, m.files.locate m.cwd false l.environLink =
        .ok place ∧ Passes m.files m.cwd l.root place := by
      simpa [Apart] using hapart
    obtain rfl : place = place' := Except.ok.inj (hplace.symm.trans hplace')
    have hgone := get?_clear_self he hne
    have hagree := agreeOff_clear (ne_nil_of_get? he hne) m.files
    obtain ⟨-, hroot', -, -⟩ := walk_of_locate hroot
    rw [locate_environLink hroot' h.short, locate_eq_walk hroot]
    -- the root now ends where the entry was, or before that
    rcases walk_of_meets_gone hagree hgone hpasses with hend | hfail
    · rw [hend]
      exact walk_of_none hgone
    · rw [hfail]
      rfl

end Layout

/-! ## What a repair returns and does -/

namespace Repair

variable {l : Layout} {m : Machine} (children : Children)

/-- Where the managed link has no place, a repair fails and changes nothing. -/
theorem exists_refused_of_not_stands (hroot : l.root.text ≠ []) (hstands : ¬ l.Stands m) :
    ∃ f, m.runAction children (LinkStatus.ensure l) =
      (.error (.linkFailed l.environLink (l.sourceOn m) f), m) := by
  obtain ⟨refusal, hplace⟩ := Layout.exists_locate_error_of_not_stands hroot hstands
  have hnone := Layout.entry_of_locate_error hplace
  have hcourse := course_ensure children l m
  generalize m.runAction children (LinkStatus.ensure l) = result at hcourse ⊢
  cases hcourse with
  | current hright =>
    rw [hnone] at hright
    cases hright
  | barred hdir => cases hnone.symm.trans hdir
  -- nothing could be removed, so the link was to be made where it has no place
  | @made m₁ files hwrong hclears hmake =>
    obtain rfl := hclears.eq_of_not_stands hroot hstands
    obtain ⟨-, place, hplace', -, -⟩ := exists_of_makeLink hmake
    cases hplace.symm.trans hplace'
  | @unmade m₁ f hwrong hclears hmake =>
    obtain rfl := hclears.eq_of_not_stands hroot hstands
    exact ⟨f, rfl⟩

/-- Where a directory is in the way, too. -/
theorem refused_of_dir (hdir : l.entry m = some .dir) :
    m.runAction children (LinkStatus.ensure l) =
      (.error (.linkFailed l.environLink (l.sourceOn m) .isDirectory), m) := by
  have hcourse := course_ensure children l m
  generalize m.runAction children (LinkStatus.ensure l) = result at hcourse ⊢
  cases hcourse with
  | current hright =>
    rw [hdir] at hright
    cases hright
  | barred => rfl
  | made hwrong hclears => exact absurd hdir hclears.entry_ne_dir
  | unmade hwrong hclears => exact absurd hdir hclears.entry_ne_dir

/-- What a repair returns on a machine, and the machine that it leaves, by what stood at the managed
link before. -/
structure Single (l : Layout) (m : Machine) (result : Except Fault LinkStatus × Machine) :
    Prop where
  /-- The link is found right exactly if it was a link with the components of the source. -/
  current : result.1 = .ok .current ↔ Layout.leadsTo (l.sourceOn m) (l.entry m)
  untouched : result.1 = .ok .current → result.2 = m
  /-- A repair says what text the link had, if it was one, and sets this one entry. -/
  repaired : ∀ previous, result.1 = .ok (.repaired previous) →
    previous = (Layout.linkReply (l.entry m)).toOption ∧
    l.entry result.2 = some (.link (l.sourceOn m).text) ∧
    ∃ place, m.files.locate m.cwd false l.environLink = .ok place ∧
      result.2 = { m with files := m.files.put place (.link (l.sourceOn m).text) }
  /-- Where the root stands and no directory is in the way, all goes well, unless removing a wrong
  entry takes away the root. -/
  succeeds : l.Stands m → l.entry m ≠ some .dir →
    ((∃ status, result.1 = .ok status) ↔
      Layout.leadsTo (l.sourceOn m) (l.entry m) ∨ l.Apart m)
  /-- Without a root, or with a directory in the way, nothing is changed. -/
  refused : ¬ l.Stands m ∨ l.entry m = some .dir →
    (∃ f, result.1 = .error (.linkFailed l.environLink (l.sourceOn m) f)) ∧ result.2 = m

/-- Whatever a layout and a machine are like, if only the root has a path and the operating system
accepts the source as the text of a link: a repair that nothing disturbs does this. -/
theorem single_ensure (hroot : l.root.text ≠ [])
    (haccepted : linkText (l.sourceOn m) = .ok (l.sourceOn m).text) :
    Single l m (m.runAction children (LinkStatus.ensure l)) := by
  have hrefused : ¬ l.Stands m ∨ l.entry m = some .dir →
      ∃ f, m.runAction children (LinkStatus.ensure l) =
        (.error (.linkFailed l.environLink (l.sourceOn m) f), m) := by
    rintro (hstands | hdir)
    · exact exists_refused_of_not_stands children hroot hstands
    · exact ⟨_, refused_of_dir children hdir⟩
  have hcourse := course_ensure children l m
  generalize m.runAction children (LinkStatus.ensure l) = result at hcourse hrefused
  have hunchanged : ¬ l.Stands m ∨ l.entry m = some .dir →
      (∃ f, result.1 = .error (.linkFailed l.environLink (l.sourceOn m) f)) ∧ result.2 = m := by
    intro h
    obtain ⟨f, rfl⟩ := hrefused h
    exact ⟨⟨f, rfl⟩, rfl⟩
  cases hcourse with
  | current hright =>
    refine ⟨iff_of_true rfl hright, fun _ => rfl, nofun, ?_, hunchanged⟩
    exact fun _ _ => iff_of_true ⟨_, rfl⟩ (Or.inl hright)
  | barred hdir =>
    have hwrong : ¬ Layout.leadsTo (l.sourceOn m) (l.entry m) := by
      rw [hdir]
      exact Bool.false_ne_true
    exact ⟨iff_of_false nofun hwrong, nofun, nofun, fun _ hne => absurd hdir hne, hunchanged⟩
  | @made m₁ files hwrong hclears hmake =>
    refine ⟨iff_of_false nofun hwrong, nofun, ?_, fun hstands _ => ?_, hunchanged⟩
    · rintro previous ⟨rfl⟩
      have hread : ({ m₁ with files } : Machine).files.readLink m₁.cwd l.environLink =
          .ok (l.sourceOn m) := readLink_of_makeLink hmake
      exact ⟨rfl, Layout.entry_of_readLink hread, eq_put_of_makeLink hclears hmake⟩
    · refine iff_of_true ⟨_, rfl⟩ (Or.inr ?_)
      -- had the root been taken away, the link could not have been made
      by_contra hapart
      obtain ⟨-, place, hplace, -, -⟩ := exists_of_makeLink hmake
      cases (hstands.locate_of_clears hapart hclears).symm.trans hplace
  | @unmade m₁ f hwrong hclears hmake =>
    refine ⟨iff_of_false nofun hwrong, nofun, nofun, fun hstands _ => ?_, hunchanged⟩
    refine iff_of_false nofun (not_or_intro hwrong fun hapart => ?_)
    -- the place would be there, and clear, so that the link would have been made
    obtain ⟨place, hplace⟩ := hstands.exists_locate_of_clears hapart hclears
    have hnone := hclears.entry_eq
    rw [Layout.entry_of_locate hplace] at hnone
    cases hmake.symm.trans (makeLink_of_locate haccepted hplace hnone)

/-! ## A stale link -/

/-- A machine with a root and nothing but an old link in it. -/
def staleMachine : Machine := .holding
  [([.text "r".toList], .dir),
   ([.text "r".toList, .text "environ.sh".toList], .link "/old/environ.sh".toList)]

/-- The layout of its root, with a given environ file. -/
def staleLayout (environSource : String) : Layout :=
  .ofSettings ⟨"/r".toList⟩ { Settings.standard with environSource := environSource.toList }

/-- Where the environ file is does not matter for the root. -/
lemma rooted_stale (environSource : String) : (staleLayout environSource).Rooted staleMachine := by
  have hroot : (staleLayout environSource).root = ⟨"/r".toList⟩ := rfl
  have hstands : (staleLayout environSource).Stands staleMachine := by
    have h : (staleLayout "new.sh").Stands staleMachine := ⟨by cbv, by cbv⟩
    exact ⟨h.isDir, h.short⟩
  refine hstands.rooted_of_canonical ?_
  rw [hroot]
  cbv

lemma entry_stale (environSource : String) : (staleLayout environSource).entry staleMachine =
    some (.link "/old/environ.sh".toList) := by
  change (staleLayout "new.sh").entry staleMachine = _
  cbv

/-- A stale link in a canonical root is replaced. -/
theorem single_stale : Single (staleLayout "new.sh") staleMachine
      (staleMachine.runAction .absent (LinkStatus.ensure (staleLayout "new.sh"))) ∧
    ∃ status, (staleMachine.runAction .absent (LinkStatus.ensure (staleLayout "new.sh"))).1 =
      .ok status := by
  have hrooted := rooted_stale "new.sh"
  have hsingle := single_ensure .absent (l := staleLayout "new.sh") (m := staleMachine)
    (by decide) (by cbv)
  refine ⟨hsingle, (hsingle.succeeds hrooted.toStands ?_).mpr (Or.inr hrooted.apart)⟩
  simp [entry_stale]

/-! ## Repairs that fail where the root stands -/

/-- A machine with a link back to the directory that holds it, -/
def backMachine : Machine := .holding
  [([.text "x".toList], .dir),
   ([.text "x".toList, .text "environ.sh".toList], .link "/x".toList)]

/-- and a layout whose root is reached through this link, which is its managed link at the same time.
-/
def backLayout : Layout := .ofSettings ⟨"/x/environ.sh".toList⟩ .standard

/-- A layout with an environ file of its own, wherever the root is. -/
def apartLayout (root : Path) : Layout := .ofSettings root { Settings.standard with
  buildRoot := "/b".toList, overrideDir := "/o".toList, environSource := "/e".toList }

/-- The managed link lies in the root, -/
lemma environLink_apartLayout (root : Path) :
    (apartLayout root).environLink = root.join Layout.linkName := rfl

/-- and its source has a text that a link may have. -/
lemma accepted_apartLayout (root : Path) (m : Machine) :
    linkText ((apartLayout root).sourceOn m) = .ok ((apartLayout root).sourceOn m).text := by
  rw [Layout.sourceOn]
  split <;> cbv

/-- A long name. -/
def longName : Text := List.replicate 226 'd'

/-- The path of the innermost one of eighteen directories inside each other. -/
def deepRoot : Path := ofNames true (List.replicate 18 longName)

/-- A machine with these directories. -/
def deepMachine : Machine := .holding
  ((List.range 18).map fun k => (List.replicate (k + 1) (.text longName), .dir))

lemma byteLength_longName : Text.byteLength longName = 226 := by cbv

lemma isName_longName : IsName longName := ⟨⟨by decide, by decide⟩, by decide, by decide⟩

/-- The directories stand inside each other, -/
lemma get?_deepMachine {k : ℕ} (hk : k ≤ 18) :
    deepMachine.files.get? (List.replicate k (.text longName)) = some .dir := by
  cases k with
  | zero => exact get?_root _
  | succ k =>
    have hmem : ((List.replicate (k + 1) (.text longName), .dir) : Place × Entry) ∈
        deepMachine.files.entries := List.mem_map.mpr ⟨k, List.mem_range.mpr hk, rfl⟩
    have hfound : (deepMachine.files.entries.find?
        (·.1 == List.replicate (k + 1) (.text longName))).isSome :=
      List.find?_isSome.mpr ⟨_, hmem, beq_self_eq_true _⟩
    obtain ⟨e, he⟩ := Option.isSome_iff_exists.mp hfound
    obtain ⟨j, -, rfl⟩ := List.mem_map.mp (List.mem_of_find?_eq_some he)
    rw [get?, if_neg (by simp), he]
    rfl

/-- so that their names spell the way to the innermost one, -/
lemma spells_deepRoot : Spells deepMachine.files (List.replicate 18 longName) where
  isName n hn := List.eq_of_mem_replicate hn ▸ isName_longName
  short n hn := by
    rw [List.eq_of_mem_replicate hn, byteLength_longName]
    decide
  dirs q hq := by
    obtain ⟨hlen, hq⟩ := List.prefix_replicate_iff.mp hq
    rw [hq, List.map_replicate]
    exact get?_deepMachine hlen

/-- which is a directory. -/
lemma isDir_deepRoot : deepMachine.files.isDir deepMachine.cwd deepRoot := by
  have hnames : ∀ n ∈ List.replicate 18 longName, '/' ∉ n :=
    fun n hn => (spells_deepRoot.isName n hn).slash_not_mem
  have hlength : Text.byteLength deepRoot.text = 4086 := by
    rw [deepRoot, byteLength_ofNames (by decide) hnames, List.map_replicate, List.sum_replicate,
      byteLength_longName]
    rfl
  have hnul : '\x00' ∉ deepRoot.text := by
    intro h
    rcases List.mem_cons.mp h with hc | h
    · exact absurd hc (by decide)
    · rcases mem_of_mem_intercalate h with hc | ⟨n, hn, hc⟩
      · exact absurd hc (by decide)
      · rw [List.eq_of_mem_replicate hn] at hc
        exact absurd (List.eq_of_mem_replicate hc) (by decide)
  have hshort : Text.byteLength deepRoot.text < maxPath := by
    rw [hlength]
    decide
  have hlocate := spells_deepRoot.locate_self hnul hshort deepMachine.cwd true
  have hdir := spells_deepRoot.dirs _ List.prefix_rfl
  rw [FileSystem.isDir, find_of_locate (p := deepRoot) hlocate, hdir]

/-- The managed link in there has no path. -/
lemma byteLength_environLink_deepRoot :
    Text.byteLength (apartLayout deepRoot).environLink.text = 4097 := by
  have hlink : (apartLayout deepRoot).environLink =
      ofNames true (List.replicate 18 longName ++ [Layout.linkName]) := by
    rw [environLink_apartLayout, deepRoot]
    exact join_ofNames (fun n hn => (spells_deepRoot.isName n hn).toIsSegment)
      Layout.isName_linkName.toIsSegment
  have hnames : ∀ n ∈ List.replicate 18 longName ++ [Layout.linkName], '/' ∉ n := by
    intro n hn
    rcases List.mem_append.mp hn with hn | hn
    · exact (spells_deepRoot.isName n hn).slash_not_mem
    · exact List.mem_singleton.mp hn ▸ Layout.isName_linkName.slash_not_mem
  rw [hlink, byteLength_ofNames (by simp) hnames, List.map_append, List.map_replicate,
    List.sum_append, List.sum_replicate, byteLength_longName]
  rfl

lemma not_stands_deepRoot : ¬ (apartLayout deepRoot).Stands deepMachine := by
  rintro ⟨-, hshort⟩
  rw [byteLength_environLink_deepRoot] at hshort
  exact absurd hshort (by decide)

/-- Three repairs that do not go as one would expect: the root stands, but removing the wrong link
takes it away; the root stands, but the managed link has no path; and a root without a path is no
directory, but the link is made in the working directory. -/
theorem exists_unexpected :
    (backMachine.files.isDir backMachine.cwd backLayout.root ∧
      linkText (backLayout.sourceOn backMachine) = .ok (backLayout.sourceOn backMachine).text ∧
      backLayout.entry backMachine = some (.link "/x".toList) ∧
      backMachine.runAction .absent (LinkStatus.ensure backLayout) =
        (.error (.linkFailed ⟨"/x/environ.sh/environ.sh".toList⟩
          ⟨"/x/environ.sh/config/environ.sh".toList⟩ .noEntry),
        .holding [([.text "x".toList], .dir)])) ∧
    (deepMachine.files.isDir deepMachine.cwd (apartLayout deepRoot).root ∧
      linkText ((apartLayout deepRoot).sourceOn deepMachine) =
        .ok ((apartLayout deepRoot).sourceOn deepMachine).text ∧
      (apartLayout deepRoot).entry deepMachine = none ∧
      ∃ fault, (deepMachine.runAction .absent (LinkStatus.ensure (apartLayout deepRoot))).1 =
        .error fault) ∧
    (¬ (Machine.holding []).files.isDir [] (apartLayout ⟨[]⟩).root ∧
      ((Machine.holding []).runAction .absent (LinkStatus.ensure (apartLayout ⟨[]⟩))).1 =
        .ok (.repaired none)) := by
  have hne : (apartLayout deepRoot).root.text ≠ [] := List.cons_ne_nil _ _
  obtain ⟨f, hrefused⟩ := exists_refused_of_not_stands .absent hne not_stands_deepRoot
  obtain ⟨g, hplace⟩ := Layout.exists_locate_error_of_not_stands hne not_stands_deepRoot
  have hnodir : (Machine.holding []).files.isDir [] (apartLayout ⟨[]⟩).root = false := by cbv
  refine ⟨⟨by cbv, by cbv, by cbv, by cbv⟩, ⟨isDir_deepRoot, accepted_apartLayout _ _,
    Layout.entry_of_locate_error hplace, ?_⟩, by simp [hnodir], by cbv⟩
  rw [hrefused]
  exact ⟨_, rfl⟩

end Repair
end Caretaker

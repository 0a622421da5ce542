import Caretaker.Proofs.ManagedLink.Repair

/-!
# The course of a repair

A repair that nothing disturbs takes one of four courses, on any machine and for any layout, whether
its root stands or not: the link is right, or a directory is in its place, or the place is cleared
and the link is made there, or it cannot be made although the place is clear.
-/

namespace Caretaker

open FileSystem

namespace Layout

variable {l : Layout} {m m' : Machine}

/-! ## What stands at the managed link -/

lemma exists_of_entry {e : Entry} (h : l.entry m = some e) :
    ∃ place, m.files.locate m.cwd false l.environLink = .ok place ∧
      m.files.get? place = some e := by
  cases hl : m.files.locate m.cwd false l.environLink with
  | error f =>
    rw [entry_of_locate_error hl] at h
    cases h
  | ok place => exact ⟨place, rfl, (entry_of_locate hl).symm.trans h⟩

lemma entry_of_readLink {text : Path}
    (h : m'.files.readLink m'.cwd l.environLink = .ok text) :
    l.entry m' = some (.link text.text) := by
  obtain ⟨place, hplace, hget⟩ := exists_of_readLink h
  exact (Layout.entry_of_locate hplace).trans hget

lemma toOption_readLink : (m.files.readLink m.cwd l.environLink).toOption =
    (linkReply (l.entry m)).toOption := by
  rw [entry, peek, readLink]
  rcases m.files.find m.cwd false l.environLink with f | ⟨place, _ | _ | _⟩ <;> rfl

lemma standsAt_environLink : m.files.standsAt m.cwd l.environLink = (l.entry m).isSome := by
  rw [entry, peek, standsAt]
  cases m.files.find m.cwd false l.environLink <;> rfl

/-! ## A place that is clear -/

/-- A machine after nothing is left where the managed link belongs: nothing was there, or it has been
removed. -/
inductive Clears (l : Layout) (m : Machine) : Machine → Prop where
  | absent (hnone : l.entry m = none) : Clears l m m
  | removed {place : Place} {e : Entry}
      (hplace : m.files.locate m.cwd false l.environLink = .ok place)
      (he : m.files.get? place = some e) (hdir : e ≠ .dir) :
      Clears l m { m with files := m.files.clear place }

lemma Clears.entry_ne_dir (h : l.Clears m m') : l.entry m ≠ some .dir := by
  cases h with
  | absent hnone => simp [hnone]
  | removed hplace he hdir =>
    rw [entry_of_locate hplace, he]
    simpa using hdir

/-- However the managed link was reached, nothing stands there any more. -/
lemma Clears.entry_eq (h : l.Clears m m') : l.entry m' = none := by
  cases h with
  | absent hnone => exact hnone
  | @removed place e hplace he hdir =>
    have hgone := get?_clear_self he hdir
    have hagree := agreeOff_clear (ne_nil_of_get? he hdir) m.files
    rcases locate_of_gone hagree hgone hplace with hsame | hfail
    · exact (entry_of_locate hsame).trans hgone
    · exact entry_of_locate_error hfail

end Layout

namespace Repair

variable {l : Layout} {m m' : Machine} {source : Path} {previous : Option Path}
  (children : Children)

/-! ## Removing and making -/

/-- Where nothing stands, a link is not refused since one is there. -/
lemma makeLink_ne_alreadyExists (hnone : l.entry m = none) :
    m.files.makeLink m.cwd source l.environLink ≠ .error .alreadyExists := by
  intro h
  cases ht : linkText source with
  | error refusal =>
    rw [makeLink, ht] at h
    exact Layout.ne_alreadyExists_of_linkText ht (Except.error.inj h)
  | ok text =>
    rw [makeLink, ht] at h
    cases hl : m.files.locate m.cwd false l.environLink with
    | error f =>
      simp only [create, hl, bind, Except.bind, Except.error.injEq] at h
      exact locate_ne_alreadyExists (hl.trans (congrArg Except.error h))
    | ok place =>
      rw [Layout.entry_of_locate hl] at hnone
      simp only [create, hl, hnone, bind, Except.bind] at h
      cases h

/-- What is left of a repair once the place is clear. -/
lemma run_make (hnone : l.entry m = none) :
    m.run children (make source l.environLink previous) =
      match m.files.makeLink m.cwd source l.environLink with
      | .ok files => (.ok (.repaired previous), { m with files })
      | .error f => (.error (.linkFailed l.environLink source f), m) := by
  cases hmake : m.files.makeLink m.cwd source l.environLink with
  | ok files =>
    have hanswer : Machine.answer children (.makeLink source l.environLink) m =
        (.ok (), { m with files := files }) := by rw [Machine.answer, hmake, Machine.change]
    rw [make, m.run_call children _ hanswer]
    rfl
  | error f =>
    have hanswer : Machine.answer children (.makeLink source l.environLink) m =
        (.error f, m) := by rw [Machine.answer, hmake, Machine.change]
    -- only where something is there already would the repair look again
    have hne : f ≠ .alreadyExists := fun hf => makeLink_ne_alreadyExists hnone (hf ▸ hmake)
    rw [make, m.run_call children _ hanswer]
    dsimp only
    rw [if_neg hne]
    rfl

/-- What is left of a repair once something has been found in the place of the link. -/
lemma run_clear {place : Place} {e : Entry}
    (hplace : m.files.locate m.cwd false l.environLink = .ok place)
    (he : m.files.get? place = some e) :
    m.run children (clear source l.environLink previous) =
      if e = .dir then (.error (.linkFailed l.environLink source .isDirectory), m)
      else { m with files := m.files.clear place : Machine }.run children
        (make source l.environLink previous) := by
  have hfind := find_eq_ok_iff.mpr ⟨hplace, he⟩
  have hremove : m.files.remove m.cwd l.environLink =
      if e = .dir then .error .isDirectory else .ok (m.files.clear place) := by
    rw [remove, hfind]
    cases e <;> rfl
  split_ifs at hremove ⊢ with hdir
  · have hanswer : Machine.answer children (.remove l.environLink) m =
        (.error .isDirectory, m) := by rw [Machine.answer, hremove, Machine.change]
    rw [clear, m.run_call children _ hanswer]
    rfl
  · have hanswer : Machine.answer children (.remove l.environLink) m =
        (.ok (), { m with files := m.files.clear place }) := by
      rw [Machine.answer, hremove, Machine.change]
    rw [clear, m.run_call children _ hanswer]

/-- A link that is made in a clear place is all that changes. -/
lemma eq_put_of_makeLink {m₁ : Machine} {source : Path} {files : FileSystem}
    (hclears : l.Clears m m₁)
    (hmake : m₁.files.makeLink m₁.cwd source l.environLink = .ok files) :
    ∃ place, m.files.locate m.cwd false l.environLink = .ok place ∧
      ({ m₁ with files } : Machine) =
        { m with files := m.files.put place (.link source.text) } := by
  obtain ⟨-, place', hplace', -, rfl⟩ := exists_of_makeLink hmake
  cases hclears with
  | absent => exact ⟨place', hplace', rfl⟩
  | @removed place e hplace he hne =>
    have hgone := get?_clear_self he hne
    have hagree := agreeOff_clear (ne_nil_of_get? he hne) m.files
    -- the link is made where the entry was, for what leads there leads nowhere else
    rcases locate_of_gone hagree hgone hplace with hsame | hfail
    · obtain rfl : place = place' := Except.ok.inj (hsame.symm.trans hplace')
      exact ⟨place, hplace, by rw [put_clear]⟩
    · cases hfail.symm.trans hplace'

/-! ## The whole course -/

/-- The courses that a repair can take on a machine, each with the result and the machine that it
leaves. -/
inductive Course (l : Layout) (m : Machine) : Except Fault LinkStatus × Machine → Prop where
  /-- The link is right. -/
  | current (hright : Layout.leadsTo (l.sourceOn m) (l.entry m)) : Course l m (.ok .current, m)
  /-- A directory is in its place. -/
  | barred (hdir : l.entry m = some .dir) :
      Course l m (.error (.linkFailed l.environLink (l.sourceOn m) .isDirectory), m)
  /-- The link is made in a place that is clear. -/
  | made {m₁ : Machine} {files : FileSystem}
      (hwrong : ¬ Layout.leadsTo (l.sourceOn m) (l.entry m)) (hclears : l.Clears m m₁)
      (hmake : m₁.files.makeLink m₁.cwd (l.sourceOn m) l.environLink = .ok files) :
      Course l m (.ok (.repaired (Layout.linkReply (l.entry m)).toOption), { m₁ with files })
  /-- The link cannot be made in a place that is clear. -/
  | unmade {m₁ : Machine} {f : IoFault}
      (hwrong : ¬ Layout.leadsTo (l.sourceOn m) (l.entry m)) (hclears : l.Clears m m₁)
      (hmake : m₁.files.makeLink m₁.cwd (l.sourceOn m) l.environLink = .error f) :
      Course l m (.error (.linkFailed l.environLink (l.sourceOn m) f), m₁)

/-- Once the place is clear, the link is made or it is not. -/
lemma Course.of_clears {m₁ : Machine} (hwrong : ¬ Layout.leadsTo (l.sourceOn m) (l.entry m))
    (hclears : l.Clears m m₁) : Course l m (m₁.run children
      (make (l.sourceOn m) l.environLink (Layout.linkReply (l.entry m)).toOption)) := by
  rw [run_make children hclears.entry_eq]
  cases hmake : m₁.files.makeLink m₁.cwd (l.sourceOn m) l.environLink with
  | ok files => exact .made hwrong hclears hmake
  | error f => exact .unmade hwrong hclears hmake

/-- A repair takes one of these courses, whatever layout and machine it meets. -/
theorem course_ensure (l : Layout) (m : Machine) :
    Course l m (m.runAction children (LinkStatus.ensure l)) := by
  have hdir : Machine.answer children (.isDir l.overrideDir) m =
      (m.files.isDir m.cwd l.overrideDir, m) := rfl
  have hread : Machine.answer children (.readLink l.environLink) m =
      (m.files.readLink m.cwd l.environLink, m) := rfl
  have hstands : Machine.answer children (.standsAt l.environLink) m =
      ((l.entry m).isSome, m) := by rw [Machine.answer, Layout.standsAt_environLink]
  rw [Machine.runAction, run_ensure, m.run_call children _ hdir]
  -- which source is expected is settled by the first call
  change Course l m (m.run children (read (l.sourceOn m) l.environLink))
  rw [read, m.run_call children _ hread, Layout.toOption_readLink]
  split_ifs with hright
  · exact .current hright
  rw [look, m.run_call children _ hstands]
  by_cases he : l.entry m = none
  · rw [if_neg (by simp [he])]
    exact .of_clears children hright (.absent he)
  · obtain ⟨e, he⟩ := Option.ne_none_iff_exists'.mp he
    obtain ⟨place, hplace, hget⟩ := Layout.exists_of_entry he
    rw [if_pos (by simp [he]), run_clear children hplace hget]
    split_ifs with hbarred
    · exact .barred (hbarred ▸ he)
    · exact .of_clears children hright (.removed hplace hget hbarred)

end Repair
end Caretaker

import Caretaker.Proofs.ManagedLink.Course
import Caretaker.Proofs.ManagedLink.Reading

/-!
# What a repair may destroy

A repair removes a wrong entry without a look at what it is for. If that entry is the source itself,
or on the way to it, the source is lost; the content of the source survives in all other cases.
-/

namespace Caretaker

open FileSystem Caretaker.Path

variable {l : Layout} {m m' : Machine}

/-! ## Reading what has been there -/

namespace FileSystem

variable {fs fs' : FileSystem} {cwd : Place} {path : Path} {p q : Place} {content : Bytes}

/-- A path cannot be read if it does not lead anywhere, or to no file. -/
lemma exists_read_error (h : ∀ place, fs.locate cwd true path = .ok place →
    ∀ content executable, fs.get? place ≠ some (.file content executable)) :
    ∃ f, fs.read cwd path = .error f := by
  cases hread : fs.read cwd path with
  | error f => exact ⟨f, rfl⟩
  | ok content =>
    obtain ⟨place, executable, hplace, hget⟩ := exists_of_read hread
    exact absurd hget (h place hplace content executable)

/-- A path leads through an entry, or ends at it. -/
def LeansOn (fs : FileSystem) (cwd : Place) (path : Path) (p : Place) : Prop :=
  Passes fs cwd path p ∨ fs.locate cwd true path = .ok p

/-- A file that does not lean on an entry reads the same whatever becomes of the entry. -/
theorem read_of_not_leansOn (hagree : AgreeOff p fs fs') (hp : fs.get? p ≠ some .dir)
    (hleans : ¬ LeansOn fs cwd path p) (h : fs.read cwd path = .ok content) :
    fs'.read cwd path = .ok content := by
  obtain ⟨place, executable, hplace, hget⟩ := exists_of_read h
  have hne : place ≠ p := by
    rintro rfl
    exact hleans (Or.inr hplace)
  have hplace' := locate_of_not_passes hagree hp (fun hpasses => hleans (Or.inl hpasses)) hplace
  exact read_of_locate hplace' ((hagree place hne).trans hget)

/-- No file leans on an entry that is missing. -/
lemma not_leansOn_of_none (hp : fs.get? p = none) (h : fs.read cwd path = .ok content) :
    ¬ LeansOn fs cwd path p := by
  obtain ⟨place, executable, hplace, hget⟩ := exists_of_read h
  rintro (hpasses | hat)
  · exact not_passes_of_none hp (find_eq_ok_iff.mpr ⟨hplace, hget⟩) hpasses
  · obtain rfl : place = p := Except.ok.inj (hplace.symm.trans hat)
    cases hp.symm.trans hget

/-- A file that leans on an entry cannot be read once the entry is gone. -/
theorem exists_read_error_of_gone (hagree : AgreeOff p fs fs') (hgone : fs'.get? p = none)
    (hleans : LeansOn fs cwd path p) (h : fs.read cwd path = .ok content) :
    ∃ f, fs'.read cwd path = .error f := by
  obtain ⟨place, executable, hplace, hget⟩ := exists_of_read h
  have hend : fs'.locate cwd true path = .ok p ∨ fs'.locate cwd true path = .error .noEntry := by
    rcases hleans with hpasses | hat
    · rw [locate_eq_walk hplace]
      exact walk_of_meets_gone hagree hgone hpasses
    · exact locate_of_gone hagree hgone hat
  refine exists_read_error fun place' hplace' found executable' hget' => ?_
  rcases hend with hend | hend
  · obtain rfl : p = place' := Except.ok.inj (hend.symm.trans hplace')
    cases hgone.symm.trans hget'
  · cases hend.symm.trans hplace'

/-- Nor once the entry is a link to the file itself. -/
theorem exists_read_error_of_loop (hagree : AgreeOff p fs fs') (hp : fs.get? p ≠ some .dir)
    (hlink : fs'.get? p = some (.link path.text)) (hroot : path.isAbsolute)
    (hleans : LeansOn fs cwd path p) (h : fs.read cwd path = .ok content) :
    ∃ f, fs'.read cwd path = .error f := by
  obtain ⟨place, executable, hplace, hget⟩ := exists_of_read h
  have hhead : path.text.head? = some '/' := beq_iff_eq.mp hroot
  have hstart : start cwd path.text = [] := by rw [start, if_pos hhead]
  by_cases hpasses : Passes fs cwd path p
  -- each round comes to the link again, until no link is left to follow
  · have hmeets : Meets fs p maxLinks [] (steps path.text) := hstart ▸ hpasses
    have hloop : fs'.locate cwd true path = .error .tooManyLinks := by
      rw [locate_eq_walk hplace, hstart]
      exact walk_of_meets_loop hagree hp hlink hhead hmeets hmeets maxLinks
    refine exists_read_error fun place' hplace' => ?_
    cases hloop.symm.trans hplace'
  · have hend := locate_of_not_passes hagree hp hpasses (hleans.resolve_left hpasses)
    refine exists_read_error fun place' hplace' found executable' hget' => ?_
    obtain rfl : p = place' := Except.ok.inj (hend.symm.trans hplace')
    cases hlink.symm.trans hget'

end FileSystem

/-! ## What is taken away -/

namespace Repair

/-- A repair removes the entry of the managed link, and the source leans on it. -/
def TakesAway (l : Layout) (m : Machine) : Prop :=
  ¬ Layout.leadsTo (l.sourceOn m) (l.entry m) ∧ ∃ place e,
    m.files.locate m.cwd false l.environLink = .ok place ∧ m.files.get? place = some e ∧
      e ≠ .dir ∧ LeansOn m.files m.cwd (l.sourceOn m) place

lemma TakesAway.exists_entry (h : TakesAway l m) : ∃ e, l.entry m = some e ∧ e ≠ .dir := by
  obtain ⟨-, place, e, hplace, he, hdir, -⟩ := h
  exact ⟨e, (Layout.entry_of_locate hplace).trans he, hdir⟩

/-- A repair takes the source away exactly if the source leans on the wrong entry. -/
lemma takesAway_iff {place : Place} {e : Entry}
    (hwrong : ¬ Layout.leadsTo (l.sourceOn m) (l.entry m))
    (hplace : m.files.locate m.cwd false l.environLink = .ok place)
    (he : m.files.get? place = some e) (hdir : e ≠ .dir) :
    TakesAway l m ↔ LeansOn m.files m.cwd (l.sourceOn m) place := by
  constructor
  · rintro ⟨-, place', -, hplace', -, -, hleans⟩
    obtain rfl : place = place' := Except.ok.inj (hplace.symm.trans hplace')
    exact hleans
  · exact fun hleans => ⟨hwrong, place, e, hplace, he, hdir, hleans⟩

/-- What becomes of the content of the source on the machine that a repair leaves. -/
structure Survival (l : Layout) (m m' : Machine) (content : Bytes) : Prop where
  kept : ¬ TakesAway l m → m'.files.read m'.cwd (l.sourceOn m) = .ok content
  lost : (l.sourceOn m).isAbsolute → TakesAway l m →
    ∃ f, m'.files.read m'.cwd (l.sourceOn m) = .error f

variable {content : Bytes} (children : Children)

lemma Survival.of_same (hread : m.files.read m.cwd (l.sourceOn m) = .ok content)
    (htakes : ¬ TakesAway l m) : Survival l m m content :=
  ⟨fun _ => hread, fun _ h => absurd h htakes⟩

/-- Where nothing but a wrong entry has changed, the source is kept unless it leans on the entry. -/
theorem Survival.of_agreeOff {place : Place} {e : Entry}
    (hwrong : ¬ Layout.leadsTo (l.sourceOn m) (l.entry m))
    (hplace : m.files.locate m.cwd false l.environLink = .ok place)
    (he : m.files.get? place = some e) (hdir : e ≠ .dir)
    (hagree : AgreeOff place m.files m'.files) (hcwd : m'.cwd = m.cwd)
    (hread : m.files.read m.cwd (l.sourceOn m) = .ok content)
    (hlost : (l.sourceOn m).isAbsolute → LeansOn m.files m.cwd (l.sourceOn m) place →
      ∃ f, m'.files.read m.cwd (l.sourceOn m) = .error f) : Survival l m m' content := by
  have hiff := takesAway_iff hwrong hplace he hdir
  have hnotdir : m.files.get? place ≠ some .dir := by simpa [he] using hdir
  constructor
  · intro htakes
    rw [hcwd]
    exact read_of_not_leansOn hagree hnotdir (fun hleans => htakes (hiff.mpr hleans)) hread
  · intro hroot htakes
    rw [hcwd]
    exact hlost hroot (hiff.mp htakes)

/-- Whatever a repair returns, the source can be read as before unless the repair has taken it away;
and if it has, the source cannot be read at all. -/
theorem survival_ensure (hread : m.files.read m.cwd (l.sourceOn m) = .ok content) :
    Survival l m (m.runAction children (LinkStatus.ensure l)).2 content := by
  have hcourse := course_ensure children l m
  generalize m.runAction children (LinkStatus.ensure l) = result at hcourse ⊢
  have hmissing : l.entry m = none → ¬ TakesAway l m := by
    intro hnone htakes
    obtain ⟨e, he, -⟩ := htakes.exists_entry
    cases hnone.symm.trans he
  cases hcourse with
  | current hright => exact .of_same hread fun htakes => htakes.1 hright
  | barred hdir =>
    refine .of_same hread fun htakes => ?_
    obtain ⟨e, he, hne⟩ := htakes.exists_entry
    exact hne (Option.some.inj (he.symm.trans hdir))
  | @made m₁ files hwrong hclears hmake =>
    obtain ⟨place, hplace, hput⟩ := eq_put_of_makeLink hclears hmake
    dsimp only
    rw [hput]
    cases hclears with
    | absent hnone =>
      have hgone : m.files.get? place = none := (Layout.entry_of_locate hplace).symm.trans hnone
      have hne : place ≠ [] := by
        rintro rfl
        cases (get?_root m.files).symm.trans hgone
      -- the source was read while nothing stood at the place, so it does not lean on it
      refine ⟨fun _ => ?_, fun _ h => absurd h (hmissing hnone)⟩
      exact read_of_not_leansOn (agreeOff_put hne m.files _) (by simp [hgone])
        (not_leansOn_of_none hgone hread) hread
    | @removed place' e hplace' he hdir =>
      obtain rfl : place' = place := Except.ok.inj (hplace'.symm.trans hplace)
      have hne := ne_nil_of_get? he hdir
      have hagree := agreeOff_put hne m.files (.link (l.sourceOn m).text)
      refine .of_agreeOff hwrong hplace he hdir hagree rfl hread fun hroot hleans => ?_
      -- the new link has the text of the source, so a walk that comes to it starts over
      have hlink := (get?_put m.files hne (.link (l.sourceOn m).text) place').trans (if_pos rfl)
      exact exists_read_error_of_loop hagree (by simpa [he] using hdir) hlink hroot hleans hread
  | @unmade m₁ f hwrong hclears hmake =>
    cases hclears with
    | absent hnone => exact .of_same hread (hmissing hnone)
    | @removed place e hplace he hdir =>
      have hagree := agreeOff_clear (ne_nil_of_get? he hdir) m.files
      refine .of_agreeOff hwrong hplace he hdir hagree rfl hread fun _ hleans => ?_
      exact exists_read_error_of_gone hagree (get?_clear_self he hdir) hleans hread

/-- A machine with an environ file right in the root, -/
def ownMachine : Machine := .holding
  [([.text "r".toList], .dir),
   ([.text "r".toList, .text "environ.sh".toList], .file (Text.encode "A=1".toList) false)]

/-- and a layout for which it is the source, in the place of the managed link. -/
def ownLayout : Layout :=
  .ofSettings ⟨"/r".toList⟩ { Settings.standard with environSource := "environ.sh".toList }

/-- The repair removes the file and makes a link to itself instead. -/
theorem survival_own : ownMachine.files.read ownMachine.cwd (ownLayout.sourceOn ownMachine) =
      .ok (Text.encode "A=1".toList) ∧
    Survival ownLayout ownMachine
      (ownMachine.runAction .absent (LinkStatus.ensure ownLayout)).2 (Text.encode "A=1".toList) ∧
    TakesAway ownLayout ownMachine ∧
    ownMachine.runAction .absent (LinkStatus.ensure ownLayout) = (.ok (.repaired none), .holding
      [([.text "r".toList, .text "environ.sh".toList], .link "/r/environ.sh".toList),
       ([.text "r".toList], .dir)]) := by
  have hread : ownMachine.files.read ownMachine.cwd (ownLayout.sourceOn ownMachine) =
      .ok (Text.encode "A=1".toList) := by cbv
  have hwrong : Layout.leadsTo (ownLayout.sourceOn ownMachine) (ownLayout.entry ownMachine) =
      false := by cbv
  have hplace : ownMachine.files.locate ownMachine.cwd false ownLayout.environLink =
      .ok [.text "r".toList, .text "environ.sh".toList] := by cbv
  have hfile : ownMachine.files.get? [.text "r".toList, .text "environ.sh".toList] =
      some (.file (Text.encode "A=1".toList) false) := by cbv
  have hsource : LeansOn ownMachine.files ownMachine.cwd (ownLayout.sourceOn ownMachine)
      [.text "r".toList, .text "environ.sh".toList] := Or.inr (by cbv)
  have htakes := (takesAway_iff (by simp [hwrong]) hplace hfile (by simp)).mpr hsource
  exact ⟨hread, survival_ensure .absent hread, htakes, by cbv⟩

end Repair
end Caretaker

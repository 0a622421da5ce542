import Caretaker.Proofs.ManagedLink.Course

/-!
# A repair after a repair

A repair leaves the link right for the source that it has asked for. The next repair asks again, and
whether it finds the link right is a matter of the override directory alone: what the first repair
has changed is no more than one entry, but that entry may be on the way to this directory.
-/

namespace Caretaker

open FileSystem Caretaker.Path

/-! ## What the next repair finds -/

variable {l : Layout} {m m' : Machine} {status : LinkStatus} (children : Children)

namespace Layout

/-- The way to the override directory leads through the entry of the managed link. -/
def Crosses (l : Layout) (m : Machine) : Prop :=
  ∃ place, m.files.locate m.cwd false l.environLink = .ok place ∧
    Passes m.files m.cwd l.overrideDir place

/-- The source stays the same if the override directory stands as before, or if it does not matter.
-/
lemma sourceOn_same_iff : (l.sourceOn m').same (l.sourceOn m) ↔
    m'.files.isDir m'.cwd l.overrideDir = m.files.isDir m.cwd l.overrideDir ∨
      l.overrideEnviron.same l.standardEnviron := by
  have hself (p : Path) : p.same p := beq_self_eq_true p.components
  have hswap : l.standardEnviron.same l.overrideEnviron ↔
      l.overrideEnviron.same l.standardEnviron := by
    rw [Path.same, Path.same, beq_iff_eq, beq_iff_eq, eq_comm]
  rw [sourceOn, sourceOn]
  cases m'.files.isDir m'.cwd l.overrideDir with
  | false =>
    cases m.files.isDir m.cwd l.overrideDir with
    | false => exact iff_of_true (hself _) (Or.inl rfl)
    | true => exact hswap.trans (or_iff_right Bool.false_ne_true).symm
  | true =>
    cases m.files.isDir m.cwd l.overrideDir with
    | false => exact (or_iff_right (by decide)).symm
    | true => exact iff_of_true (hself _) (Or.inl rfl)

end Layout

namespace Repair

/-- A repair finds the link right exactly if it leads to the source of that moment. -/
lemma current_iff : m.runAction children (LinkStatus.ensure l) = (.ok .current, m) ↔
    Layout.leadsTo (l.sourceOn m) (l.entry m) := by
  have hcourse := course_ensure children l m
  generalize m.runAction children (LinkStatus.ensure l) = result at hcourse ⊢
  cases hcourse with
  | current hright => exact iff_of_true rfl hright
  | barred hdir =>
    rw [hdir]
    exact iff_of_false nofun Bool.false_ne_true
  | made hwrong => exact iff_of_false nofun hwrong
  | unmade hwrong => exact iff_of_false nofun hwrong

/-- What a repair that has succeeded leaves for the next one, on the machine `m'` after it. -/
structure Again (l : Layout) (m m' : Machine) : Prop where
  /-- The next repair finds the link right, and changes nothing, exactly if the source that it asks
  for has the same components. -/
  current : m'.runAction children (LinkStatus.ensure l) = (.ok .current, m') ↔
    (l.sourceOn m').same (l.sourceOn m)
  /-- It has if the override directory stands exactly if it stood before, and otherwise only if both
  sources that come into question are the same. -/
  source : (l.sourceOn m').same (l.sourceOn m) ↔
    m'.files.isDir m'.cwd l.overrideDir = m.files.isDir m.cwd l.overrideDir ∨
      l.overrideEnviron.same l.standardEnviron
  /-- The directory stands as before, unless the way to it leads through the managed link. -/
  apart : ¬ l.Crosses m →
    m'.files.isDir m'.cwd l.overrideDir = m.files.isDir m.cwd l.overrideDir
  /-- Where the way to it has led through an entry that was wrong, it stands no more. -/
  lost : l.overrideDir.isAbsolute → m.files.isDir m.cwd l.overrideDir → l.Crosses m →
    ¬ Layout.leadsTo (l.sourceOn m) (l.entry m) → ¬ m'.files.isDir m'.cwd l.overrideDir

/-- A link that is right for one source is right for those with the same components. -/
lemma leadsTo_iff_same_of_isRight {source source' : Path} (h : IsRight source l.environLink m) :
    Layout.leadsTo source' (l.entry m) ↔ source'.same source := by
  obtain ⟨text, hread, hsame⟩ := h
  rw [Layout.entry_of_readLink hread]
  simp only [Path.same, beq_iff_eq] at hsame ⊢
  show text.components == source'.components ↔ _
  rw [beq_iff_eq, hsame, eq_comm]

/-- A repair that succeeds has found the link right, or has set this one entry. -/
theorem Course.eq_or_put (h : Course l m (.ok status, m')) :
    (Layout.leadsTo (l.sourceOn m) (l.entry m) ∧ m' = m) ∨
    ∃ place, m.files.locate m.cwd false l.environLink = .ok place ∧
      m.files.get? place ≠ some .dir ∧ place ≠ [] ∧
      m' = { m with files := m.files.put place (.link (l.sourceOn m).text) } := by
  cases h with
  | current hright => exact Or.inl ⟨hright, rfl⟩
  | made hwrong hclears hmake =>
    obtain ⟨place, hplace, hput⟩ := eq_put_of_makeLink hclears hmake
    have hdir : m.files.get? place ≠ some .dir := by
      rw [← Layout.entry_of_locate hplace]
      exact hclears.entry_ne_dir
    refine Or.inr ⟨place, hplace, hdir, ?_, hput⟩
    rintro rfl
    exact hdir (get?_root m.files)

/-- The next repair after one that has succeeded, for every layout and every machine. -/
theorem again_ensure (h : m.runAction children (LinkStatus.ensure l) = (.ok status, m')) :
    Again children l m m' := by
  have hright := LinkStatus.isRight_of_ensure children (congrArg Prod.fst h)
  have hcourse := course_ensure children l m
  rw [h] at hright hcourse
  refine ⟨?current, Layout.sourceOn_same_iff, ?apart, ?lost⟩
  case current => exact (current_iff children).trans (leadsTo_iff_same_of_isRight hright)
  case apart =>
    intro hcrosses
    rcases hcourse.eq_or_put with ⟨-, rfl⟩ | ⟨place, hplace, hdir, hne, rfl⟩
    · rfl
    · have hpasses : ¬ Passes m.files m.cwd l.overrideDir place :=
        fun hpasses => hcrosses ⟨place, hplace, hpasses⟩
      have hlink : (m.files.put place (.link (l.sourceOn m).text)).get? place ≠ some .dir := by
        rw [get?_put m.files hne, if_pos rfl]
        exact nofun
      exact isDir_eq_of_not_passes (agreeOff_put hne m.files _) hdir hlink hpasses
  case lost =>
    rintro habsolute hstands ⟨place, hplace, hpasses⟩ hwrong
    rcases hcourse.eq_or_put with ⟨hright, -⟩ | ⟨place', hplace', hdir, hne, rfl⟩
    · exact absurd hright hwrong
    obtain rfl : place = place' := Except.ok.inj (hplace.symm.trans hplace')
    -- the new link has the text of a path in the directory, so the way to it goes round
    have hsource : l.sourceOn m = l.overrideDir.join Layout.linkName := if_pos hstands
    have hlink : (m.files.put place (.link (l.sourceOn m).text)).get? place =
        some (.link (l.overrideDir.join Layout.linkName).text) := by
      rw [get?_put m.files hne, if_pos rfl, hsource]
    exact not_isDir_of_loop (agreeOff_put hne m.files _) hdir habsolute Layout.isName_linkName
      hlink hpasses hstands

/-- A machine with a directory in the root, -/
def crossedMachine : Machine := .holding
  [([.text "r".toList], .dir), ([.text "r".toList, .text "config".toList], .dir)]

/-- and a layout that takes this directory for the environ file, and the managed link for the way to
the override directory. -/
def crossedLayout : Layout := .ofSettings ⟨"/r".toList⟩ { Settings.standard with
  overrideDir := "environ.sh".toList, environSource := "config".toList }

/-- The machine after the first repair. -/
def crossedMachine' : Machine := .holding
  [([.text "r".toList, .text "environ.sh".toList], .link "/r/config".toList),
   ([.text "r".toList], .dir), ([.text "r".toList, .text "config".toList], .dir)]

/-- The first repair makes the override directory appear, so that the next one asks for an environ
file in it. -/
theorem again_crossed :
    crossedMachine.runAction .absent (LinkStatus.ensure crossedLayout) =
      (.ok (.repaired none), crossedMachine') ∧
    Again .absent crossedLayout crossedMachine crossedMachine' ∧
    crossedMachine'.runAction .absent (LinkStatus.ensure crossedLayout) ≠
      (.ok .current, crossedMachine') := by
  have hfirst : crossedMachine.runAction .absent (LinkStatus.ensure crossedLayout) =
      (.ok (.repaired none), crossedMachine') := by cbv
  have hagain := again_ensure .absent hfirst
  refine ⟨hfirst, hagain, fun hcurrent => ?_⟩
  have hsource : (crossedLayout.sourceOn crossedMachine').same
      (crossedLayout.sourceOn crossedMachine) = false := by cbv
  have hsame := hagain.current.mp hcurrent
  rw [hsource] at hsame
  cases hsame

end Repair
end Caretaker

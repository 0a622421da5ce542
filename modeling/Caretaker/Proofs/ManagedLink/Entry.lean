import Caretaker.Machine
import Caretaker.Proofs.FileSystem.Passing

/-!
# The entry of the managed link

While the root of a layout stands, the managed link has a place, and each call on it is answered by
what stands there and changes nothing else. The place stays the same unless the way to the root leads
through it. The rest of the theory of the managed link looks at this one entry only.
-/

namespace Caretaker

open FileSystem Caretaker.Path

namespace Layout

/-- The name of the managed link in its root. -/
def linkName : Text := "environ.sh".toList

lemma isName_linkName : IsName linkName := ⟨⟨by decide, by decide⟩, by decide, by decide⟩

/-- The root is a directory, and not too deep for the managed link to have a path. -/
structure Stands (l : Layout) (m : Machine) : Prop where
  isDir : m.files.isDir m.cwd l.root
  short : Text.byteLength l.environLink.text < maxPath

/-- The way to the root does not lead through the entry of the managed link. -/
def Apart (l : Layout) (m : Machine) : Prop :=
  ∀ place, m.files.locate m.cwd false l.environLink = .ok place →
    ¬ Passes m.files m.cwd l.root place

/-- The root stands, and it does so whatever becomes of the managed link in it. -/
structure Rooted (l : Layout) (m : Machine) : Prop extends l.Stands m where
  apart : l.Apart m

/-- The place of the managed link. -/
def linkPlace (l : Layout) (m : Machine) : Place :=
  (m.files.locate m.cwd false l.environLink).toOption.getD []

/-- What stands where the managed link belongs. -/
def entry (l : Layout) (m : Machine) : Option Entry := m.files.peek m.cwd l.environLink

variable {l : Layout} {m m' : Machine}

/-! ## What stands at the managed link -/

/-- What stands at the managed link is what stands at its place, -/
lemma entry_of_locate {place : Place}
    (h : m.files.locate m.cwd false l.environLink = .ok place) :
    l.entry m = m.files.get? place := by
  rw [entry, peek, find_of_locate h]
  cases m.files.get? place <;> rfl

/-- and nothing stands there if it has none. -/
lemma entry_of_locate_error {f : IoFault}
    (h : m.files.locate m.cwd false l.environLink = .error f) : l.entry m = none := by
  rw [entry, peek, find, h]
  rfl

/-! ## The place of the managed link -/

lemma locate_environLink {fs : FileSystem} {cwd : Place} (hne : l.root.text ≠ [])
    (hshort : Text.byteLength l.environLink.text < maxPath) :
    fs.locate cwd false l.environLink = fs.locate cwd true l.root >>= fun parent =>
      fs.walk 0 false parent [.into (.text linkName)] :=
  locate_join hne isName_linkName (by decide) hshort

/-- The managed link belongs into the directory to which the root leads. -/
lemma locate_environLink_of_dir {fs : FileSystem} {cwd parent : Place}
    (hshort : Text.byteLength l.environLink.text < maxPath)
    (hroot : fs.locate cwd true l.root = .ok parent) (hdir : fs.get? parent = some .dir) :
    fs.locate cwd false l.environLink = .ok (parent ++ [.text linkName]) := by
  obtain ⟨-, hne, -, -⟩ := walk_of_locate hroot
  rw [locate_environLink hne hshort, hroot]
  exact walk_into_last hdir (by decide) fun hf => absurd hf Bool.false_ne_true

lemma linkPlace_of_locate {place : Place}
    (h : m.files.locate m.cwd false l.environLink = .ok place) : l.linkPlace m = place := by
  rw [linkPlace, h]
  rfl

/-- A root that stands leads to a directory, and the managed link has its place in there. -/
lemma Stands.exists_parent (h : l.Stands m) : ∃ parent,
    m.files.locate m.cwd true l.root = .ok parent ∧ m.files.get? parent = some .dir ∧
      l.linkPlace m = parent ++ [.text linkName] := by
  obtain ⟨parent, hroot, hdir⟩ := exists_locate_of_isDir h.isDir
  exact ⟨parent, hroot, hdir,
    linkPlace_of_locate (locate_environLink_of_dir h.short hroot hdir)⟩

/-- The managed link is looked up at its place, whatever stands there. -/
lemma Stands.locate (h : l.Stands m) :
    m.files.locate m.cwd false l.environLink = .ok (l.linkPlace m) := by
  obtain ⟨parent, hroot, hdir, hplace⟩ := h.exists_parent
  rw [hplace]
  exact locate_environLink_of_dir h.short hroot hdir

lemma Stands.linkPlace_ne_nil (h : l.Stands m) : l.linkPlace m ≠ [] := by
  obtain ⟨parent, -, -, hplace⟩ := h.exists_parent
  simp [hplace]

lemma Stands.entry_eq (h : l.Stands m) : l.entry m = m.files.get? (l.linkPlace m) :=
  entry_of_locate h.locate

/-- Where nothing stands, there is no link to follow either. -/
lemma Stands.find_of_none (h : l.Stands m) (hnone : l.entry m = none) :
    m.files.find m.cwd true l.environLink = .error .noEntry := by
  rw [h.entry_eq] at hnone
  have hlocate : m.files.locate m.cwd true l.environLink = .ok (l.linkPlace m) := by
    obtain ⟨-, -, -, hwalk⟩ := walk_of_locate h.locate
    rw [locate_eq_walk h.locate]
    refine walk_of_not_link hwalk fun target hlink => ?_
    cases hnone.symm.trans hlink
  rw [find_of_locate hlocate, hnone]

/-! ## Changing the entry -/

/-- What becomes of the managed link does not move its place, as long as no directory is put there. -/
theorem Rooted.of_agree (h : l.Rooted m) (hcwd : m'.cwd = m.cwd)
    (hagree : AgreeOff (l.linkPlace m) m.files m'.files) (hdir : l.entry m ≠ some .dir)
    (hdir' : m'.files.get? (l.linkPlace m) ≠ some .dir) :
    l.Rooted m' ∧ l.linkPlace m' = l.linkPlace m := by
  obtain ⟨parent, hroot, hparent, hplace⟩ := h.exists_parent
  have hpasses := h.apart _ h.locate
  rw [h.entry_eq] at hdir
  have hroot' : m'.files.locate m'.cwd true l.root = .ok parent := by
    rw [hcwd]
    exact locate_of_not_passes hagree hdir hpasses hroot
  have hparent' : m'.files.get? parent = some .dir := hagree.get?_dir hdir hparent
  have hlink : m'.files.locate m'.cwd false l.environLink = .ok (l.linkPlace m) := by
    rw [hplace]
    exact locate_environLink_of_dir h.short hroot' hparent'
  have hstands : l.Stands m' := by
    refine ⟨?_, h.short⟩
    rw [FileSystem.isDir, find_eq_ok_iff.mpr ⟨hroot', hparent'⟩]
  refine ⟨⟨hstands, fun place hat hpasses' => hpasses ?_⟩, linkPlace_of_locate hlink⟩
  obtain rfl : l.linkPlace m = place := Except.ok.inj (hlink.symm.trans hat)
  rw [hcwd] at hpasses'
  exact Meets.of_agreeOff hagree.symm hdir' hpasses'

/-- The machine on which something else stands where the managed link belongs. -/
def setEntry (l : Layout) (m : Machine) : Option Entry → Machine
  | some e => { m with files := m.files.put (l.linkPlace m) e }
  | none => { m with files := m.files.clear (l.linkPlace m) }

lemma Stands.get?_setEntry (h : l.Stands m) (e : Option Entry) :
    (l.setEntry m e).files.get? (l.linkPlace m) = e := by
  cases e with
  | none => exact (get?_clear m.files h.linkPlace_ne_nil _).trans (if_pos rfl)
  | some e => exact (get?_put m.files h.linkPlace_ne_nil e _).trans (if_pos rfl)

/-- Once something else but a directory stands there, the managed link has the same place, and this
entry. -/
theorem Rooted.setEntry (h : l.Rooted m) (hdir : l.entry m ≠ some .dir) {e : Option Entry}
    (he : e ≠ some .dir) : l.Rooted (l.setEntry m e) ∧ l.entry (l.setEntry m e) = e := by
  have hagree : AgreeOff (l.linkPlace m) m.files (l.setEntry m e).files := by
    cases e with
    | none => exact agreeOff_clear h.linkPlace_ne_nil m.files
    | some e => exact agreeOff_put h.linkPlace_ne_nil m.files e
  have hcwd : (l.setEntry m e).cwd = m.cwd := by cases e <;> rfl
  have hget := h.get?_setEntry e
  obtain ⟨hrooted, hplace⟩ := h.of_agree hcwd hagree hdir (hget.symm ▸ he)
  exact ⟨hrooted, by rw [hrooted.entry_eq, hplace, hget]⟩

/-! ## What an entry says as a link -/

/-- What reading an entry as a link answers. -/
def linkReply : Option Entry → Except IoFault Path
  | some (.link target) => .ok ⟨target⟩
  | some _ => .error .invalidArgument
  | none => .error .noEntry

/-- Whether an entry is a link to a source, by the components of its text. -/
def leadsTo (source : Path) (e : Option Entry) : Bool :=
  LinkStatus.leadsTo source (linkReply e).toOption

lemma leadsTo_link_self (source : Path) : leadsTo source (some (.link source.text)) :=
  beq_self_eq_true source.components

/-- The environ file that the managed link should lead to, as a machine stands. -/
def sourceOn (l : Layout) (m : Machine) : Path :=
  if m.files.isDir m.cwd l.overrideDir then l.overrideEnviron else l.standardEnviron

lemma ne_alreadyExists_of_linkText {source : Path} {refusal : IoFault}
    (h : linkText source = .error refusal) : refusal ≠ .alreadyExists := by
  rw [linkText] at h
  split_ifs at h <;> cases h <;> decide

/-! ## Answers to the calls on the managed link -/

variable (children : Children)

/-- What is found without following the managed link is its entry. -/
lemma Stands.find_link (h : l.Stands m) : m.files.find m.cwd false l.environLink =
    match l.entry m with
    | some e => .ok ((l.linkPlace m), e)
    | none => .error .noEntry := by
  rw [h.entry_eq]
  exact find_of_locate h.locate

/-- Reading the link answers what the entry says as one, -/
lemma Stands.answer_readLink (h : l.Stands m) :
    Machine.answer children (.readLink l.environLink) m = (linkReply (l.entry m), m) := by
  rw [Machine.answer, readLink, h.find_link]
  rcases l.entry m with _ | ⟨_ | _ | _⟩ <;> rfl

/-- looking at it answers whether there is an entry, -/
lemma Stands.answer_standsAt (h : l.Stands m) :
    Machine.answer children (.standsAt l.environLink) m = ((l.entry m).isSome, m) := by
  rw [Machine.answer, standsAt, h.find_link]
  cases l.entry m <;> rfl

/-- and removing it leaves none, unless it is a directory. -/
lemma Stands.answer_remove (h : l.Stands m) :
    Machine.answer children (.remove l.environLink) m = match l.entry m with
      | none => (.error .noEntry, m)
      | some .dir => (.error .isDirectory, m)
      | some _ => (.ok (), l.setEntry m none) := by
  rw [Machine.answer, remove, h.find_link]
  rcases l.entry m with _ | ⟨_ | _ | _⟩ <;> rfl

/-- The text of a link is looked at first, and what stands there only then. -/
lemma Stands.answer_makeLink (h : l.Stands m) (source : Path) :
    Machine.answer children (.makeLink source l.environLink) m =
      match linkText source, l.entry m with
      | .error refusal, _ => (.error refusal, m)
      | .ok text, none => (.ok (), l.setEntry m (some (.link text)))
      | .ok _, some _ => (.error .alreadyExists, m) := by
  rw [Machine.answer, makeLink, h.entry_eq]
  cases linkText source with
  | error refusal => rfl
  | ok text =>
    simp only [create, h.locate, bind, Except.bind]
    cases m.files.get? (l.linkPlace m) <;> rfl

/-! ## Roots that layouts are loaded for -/

/-- A canonical root is no way through the managed link in it. -/
theorem Stands.rooted_of_canonical (h : l.Stands m)
    (hcanonical : m.files.canonical m.cwd l.root = .ok l.root) : l.Rooted m := by
  obtain ⟨parent, hlocate, -, hlink⟩ := h.exists_parent
  obtain ⟨names, hroot, hspells⟩ := exists_spells_of_canonical hcanonical h.isDir
  refine ⟨h, fun place hplace hpasses => ?_⟩
  obtain rfl : l.linkPlace m = place := Except.ok.inj (h.locate.symm.trans hplace)
  have hparent : parent = names.map .text := by
    obtain ⟨hnul, -, hshort, -⟩ := walk_of_locate hlocate
    rw [hroot] at hlocate hnul hshort
    exact Except.ok.inj (hlocate.symm.trans (hspells.locate_self hnul hshort m.cwd true))
  rw [hroot] at hpasses
  -- what a canonical path passes lies above its end, and the managed link lies below
  have hlen := hspells.length_le_of_passes hpasses
  rw [hlink, hparent] at hlen
  simp only [List.length_map, List.length_append, List.length_singleton] at hlen
  omega

end Layout

/-! ## Small machines -/

/-- A machine with a few entries, on which nothing has happened yet. -/
def Machine.holding (entries : List (Place × Entry)) : Machine where
  files := ⟨entries⟩
  cwd := []
  bindings := []
  executableDir := ⟨"/r".toList⟩
  terminal := false
  written := []
  launched := []

/-- No child can be started. -/
def Children.absent : Children := fun _ m => (.error .noEntry, m)

end Caretaker

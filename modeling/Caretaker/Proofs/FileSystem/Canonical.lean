import Caretaker.Proofs.FileSystem.Walk

/-!
# Canonical paths

The canonical path of a directory is spelled by names alone, and each place from the root down to it
is a directory. An entry in such a directory is found where its path says, whatever stands there.
-/

namespace Caretaker.FileSystem

open Caretaker.Path (IsName ofNames)

/-! ## Spelling a canonical path -/

/-- Names that spell a directory: each place from the root down is a directory. -/
structure Spells (fs : FileSystem) (names : List Text) : Prop where
  isName : ∀ n ∈ names, IsName n
  short : ∀ n ∈ names, Text.byteLength n ≤ maxName
  dirs : ∀ q, q <+: names → fs.get? (q.map .text) = some .dir

/-- A place whose names are all text is a list of texts. -/
lemma exists_map_text {p : Place} {P : Text → Prop} (h : ∀ n ∈ p, ∃ t, n = .text t ∧ P t) :
    ∃ names : List Text, p = names.map .text ∧ ∀ t ∈ names, P t := by
  induction p with
  | nil => exact ⟨[], rfl, fun _ ht => absurd ht List.not_mem_nil⟩
  | cons n rest ih =>
    obtain ⟨t, rfl, ht⟩ := h n (List.mem_cons_self ..)
    obtain ⟨names, rfl, hnames⟩ := ih fun m hm => h m (List.mem_cons_of_mem _ hm)
    refine ⟨t :: names, rfl, fun s hs => ?_⟩
    rcases List.mem_cons.mp hs with rfl | hr
    · exact ht
    · exact hnames s hr

lemma placePath_map_text (names : List Text) :
    placePath (names.map .text) = ofNames true names := by
  simp [placePath, Function.comp_def]

/-- A directory is spelled by names, wherever a walk from the root has reached it. -/
theorem Reached.exists_spells {fs : FileSystem} {place : Place} (h : Reached fs place)
    (hget : fs.get? place = some .dir) :
    ∃ names : List Text, place = names.map .text ∧ Spells fs names := by
  obtain ⟨names, rfl, hnames⟩ := exists_map_text h.names
  refine ⟨names, rfl, fun n hn => (hnames n hn).1, fun n hn => (hnames n hn).2, fun q hq => ?_⟩
  by_cases heq : q = names
  · rw [heq, hget]
  · refine h.above _ (hq.map _) fun hmap => heq ?_
    exact (List.map_injective_iff.mpr fun a b hab => EntryName.text.inj hab) hmap

/-- A directory that has its own path as the canonical one is spelled by names. -/
lemma exists_spells_of_canonical {fs : FileSystem} {cwd : Place} {root : Path}
    (h : fs.canonical cwd root = .ok root) (hdir : fs.isDir cwd root) :
    ∃ names, root = ofNames true names ∧ Spells fs names := by
  obtain ⟨place, hplace, hat⟩ : ∃ place, fs.find cwd true root = .ok (place, .dir) ∧
      placePath place = root := by
    rw [isDir] at hdir
    rw [canonical] at h
    cases hf : fs.find cwd true root with
    | error f => rw [hf] at h; cases h
    | ok found =>
      obtain ⟨place, e⟩ := found
      rw [hf] at h hdir
      cases e with
      | dir => exact ⟨place, rfl, Except.ok.inj h⟩
      | file content executable => cases hdir
      | link target => cases hdir
  obtain ⟨hlocate, hget⟩ := find_eq_ok_iff.mp hplace
  obtain ⟨-, -, -, hwalk⟩ := walk_of_locate hlocate
  have hstart : start cwd root.text = [] := by
    rw [← hat]
    rfl
  rw [hstart] at hwalk
  -- the walk started at the root, so that every place above its end is a directory
  have hreached : Reached fs place :=
    reached_of_walk (reached_root fs) (fun n hn => isName_of_into_mem_steps hn) hwalk
  obtain ⟨names, rfl, hspells⟩ := hreached.exists_spells hget
  exact ⟨names, by rw [← hat, placePath_map_text], hspells⟩

/-! ## Walking where names spell -/

/-- A walk along names that spell a directory leads there. -/
lemma Spells.walk_append {fs : FileSystem} {names : List Text} (h : Spells fs names)
    (links : ℕ) (follow : Bool) (rest : List Step) :
    fs.walk links follow [] (names.map (fun n => .into (.text n)) ++ rest) =
      fs.walk links follow (names.map .text) rest := by
  -- the walk has come through some of the names, and the others are still before it
  suffices hgo : ∀ done todo, done ++ todo = names →
      fs.walk links follow (done.map .text) (todo.map (fun n => .into (.text n)) ++ rest) =
        fs.walk links follow (names.map .text) rest from hgo [] names rfl
  intro done todo
  induction todo generalizing done with
  | nil =>
    rintro rfl
    rw [List.append_nil, List.map_nil, List.nil_append]
  | cons n todo ih =>
    intro hnames
    have hmem : n ∈ names := by simp [← hnames]
    have hhere := h.dirs done ⟨n :: todo, hnames⟩
    have hnext := h.dirs (done ++ [n]) ⟨todo, by simp [← hnames]⟩
    have hlen : ¬ maxName < (EntryName.text n).byteLength := Nat.not_lt.mpr (h.short n hmem)
    rw [List.map_append, List.map_singleton] at hnext
    rw [List.map_cons, List.cons_append, walk_into_other hhere hlen hnext (by simp)]
    have hdone := ih (done ++ [n]) (by simp [← hnames])
    rwa [List.map_append, List.map_singleton] at hdone

/-- A path that spells a directory leads to it. -/
theorem Spells.locate_self {fs : FileSystem} {names : List Text} (h : Spells fs names)
    (hnul : '\x00' ∉ (ofNames true names).text)
    (hpath : Text.byteLength (ofNames true names).text < maxPath) (cwd : Place) (follow : Bool) :
    fs.locate cwd follow (ofNames true names) = .ok (names.map .text) := by
  have hempty : (ofNames true names).text.isEmpty = false := rfl
  have hstart : start cwd (ofNames true names).text = [] := rfl
  rw [locate, if_neg hnul, hempty, if_neg Bool.false_ne_true, if_neg (Nat.not_le.mpr hpath), hstart]
  by_cases hne : names = []
  · subst hne
    exact walk_stay (get?_root fs) |>.trans walk_nil
  · have hwalk := h.walk_append maxLinks follow []
    rwa [List.append_nil, ← steps_ofNames_of_isName hne h.isName, walk_nil] at hwalk

end Caretaker.FileSystem

import Caretaker.Proofs.Layout.Derived
import Caretaker.Proofs.Registry.Lookup

/-!
# Where scripts are looked for

The first place where a script is looked for is the path that its name spells. The other three lie
beneath the directories for scripts and for tasks, as long as the name is relative. An absolute name
replaces whatever it is joined to. So a script may be found that is neither the one that the name
spells nor in one of the directories.
-/

namespace Caretaker

namespace Path

variable {part : Text}

/-! ## Beneath a directory -/

/-- The components of a path begin with those of a directory. -/
def Beneath (p dir : Path) : Prop := dir.components <+: p.components

instance (p dir : Path) : Decidable (p.Beneath dir) :=
  inferInstanceAs (Decidable (dir.components <+: p.components))

/-- What is joined to a path that holds a name starts where the path does. -/
lemma isAbsolute_join_eq {p : Path} (hp : p.segments ≠ []) (hpart : part.head? ≠ some '/') :
    (p.join part).isAbsolute = p.isAbsolute := by
  obtain ⟨text⟩ := p
  cases text with
  | nil => exact absurd rfl hp
  | cons c text =>
    rw [join, if_neg hpart]
    split_ifs <;> rfl

/-- A relative text that is joined to a path leads beneath it. -/
lemma beneath_join (p : Path) (hpart : part.head? ≠ some '/') : (p.join part).Beneath p := by
  unfold Beneath
  by_cases hp : p.isAbsolute
  · rw [components_eq_of_isAbsolute hp, components_eq_of_isAbsolute (isAbsolute_join hp part),
      moving_join p hpart, List.map_append, ← List.cons_append]
    exact List.prefix_append _ _
  · by_cases hnil : p.segments = []
    · have hcomponents : p.components = [] := by
        rw [components_eq_of_not_isAbsolute hp, moving, hnil]
        rfl
      rw [hcomponents]
      exact List.nil_prefix
    · -- the first segment, which says whether a dot leads, is that of the path
      have hjoin : ¬ (p.join part).isAbsolute := by rwa [isAbsolute_join_eq hnil hpart]
      rw [components_eq_of_not_isAbsolute hp, components_eq_of_not_isAbsolute hjoin,
        moving_join p hpart, segments_join p hpart, List.head?_append_of_ne_nil _ hnil,
        List.map_append, ← List.append_assoc]
      exact List.prefix_append _ _

end Path

namespace Layout

variable {l : Layout} {name : Text} {m : Machine} {children : Children} {p : Path}

/-! ## Places for a name -/

/-- Where the script of a name belongs: it is the one that the name spells, or it lies beneath the
directory for scripts or the one for tasks. -/
def Belongs (l : Layout) (name : Text) (p : Path) : Prop :=
  p = l.root.join name ∨ p.Beneath l.scriptsDir ∨ p.Beneath l.tasksDir

lemma head?_append_scriptSuffix (hname : name.head? ≠ some '/') :
    (name ++ scriptSuffix).head? ≠ some '/' := by
  cases name with
  | nil => decide
  | cons c name => exact hname

lemma beneath_of_relative (hname : name.head? ≠ some '/') :
    (l.scriptsDir.join name).Beneath l.scriptsDir ∧
      (l.scriptsDir.join (name ++ scriptSuffix)).Beneath l.scriptsDir ∧
      (l.tasksDir.join (name ++ scriptSuffix)).Beneath l.tasksDir :=
  ⟨Path.beneath_join _ hname, Path.beneath_join _ (head?_append_scriptSuffix hname),
    Path.beneath_join _ (head?_append_scriptSuffix hname)⟩

/-- An absolute name stands for itself, wherever it is joined. -/
lemma candidates_of_absolute (hname : name.head? = some '/') :
    l.candidates name = [⟨name⟩, ⟨name⟩, ⟨name ++ scriptSuffix⟩, ⟨name ++ scriptSuffix⟩] := by
  have hsuffix : (name ++ scriptSuffix).head? = some '/' := by
    rw [List.head?_append, hname]
    rfl
  have hjoin : ∀ q : Path, q.join name = ⟨name⟩ := fun q => if_pos hname
  have hjoinSuffix : ∀ q : Path, q.join (name ++ scriptSuffix) = ⟨name ++ scriptSuffix⟩ :=
    fun q => if_pos hsuffix
  rw [candidates, hjoin, hjoin, hjoinSuffix, hjoinSuffix]

/-! ## The script that is found -/

/-- The first candidate that is a file is found; if there is none, all of them have been looked at.
-/
lemma runAction_findScript_eq (l : Layout) (name : Text) (m : Machine) (children : Children) :
    m.runAction children (l.findScript name) =
      (match (l.candidates name).find? (m.files.isFile m.cwd) with
        | some p => .ok p
        | none => .error (.scriptNotFound name (l.candidates name)), m) := by
  cases hfind : (l.candidates name).find? (m.files.isFile m.cwd) with
  | some p =>
    obtain ⟨hfile, before, behind, hcandidates, hnot⟩ := List.find?_eq_some_iff_append.mp hfind
    exact runAction_findScript hcandidates (fun q hq => by simpa using hnot q hq) hfile
  | none =>
    have hnone : ∀ q ∈ l.candidates name, ¬ m.files.isFile m.cwd q := List.find?_eq_none.mp hfind
    have hfirst : (firstFile? (l.candidates name)).transcript
        (fun c => (Machine.answer children c m).1) = ((l.candidates name).map .isFile, none) :=
      transcript_firstFile?_of_none (fun _ => rfl) hnone
    unfold Machine.runAction
    rw [m.run_eq_transcript children (l.only_findScript name)]
    show ((Action.transcript _ (l.findScript name)).2, m) = _
    rw [transcript_findScript, hfirst]

/-- The script that is found is the first candidate that is a file. -/
lemma find?_eq_some_of_findScript
    (h : (m.runAction children (l.findScript name)).1 = .ok p) :
    (l.candidates name).find? (m.files.isFile m.cwd) = some p := by
  rw [runAction_findScript_eq] at h
  dsimp only at h
  split at h
  · rename_i q hq
    rw [hq, Except.ok.inj h]
  · cases h

lemma belongs_of_relative (hname : name.head? ≠ some '/') (hp : p ∈ l.candidates name) :
    l.Belongs name p := by
  obtain ⟨hown, hscript, htask⟩ := beneath_of_relative (l := l) hname
  simp only [candidates, List.mem_cons, List.not_mem_nil, or_false] at hp
  rcases hp with rfl | rfl | rfl | rfl
  · exact Or.inl rfl
  · exact Or.inr (Or.inl hown)
  · exact Or.inr (Or.inl hscript)
  · exact Or.inr (Or.inr htask)

lemma ne_append_scriptSuffix (name : Text) : (⟨name ++ scriptSuffix⟩ : Path) ≠ ⟨name⟩ := by
  intro heq
  have hlength := congrArg List.length (Path.mk.inj heq)
  have hsuffix : scriptSuffix.length = 3 := rfl
  rw [List.length_append] at hlength
  omega

/-- A script that is found does not belong to its name exactly if the name is absolute and no file,
and the path with the suffix behind it is a file elsewhere. -/
lemma not_belongs_iff (hfind : (l.candidates name).find? (m.files.isFile m.cwd) = some p) :
    ¬ l.Belongs name p ↔
      (⟨name⟩ : Path).isAbsolute ∧ ¬ m.files.isFile m.cwd ⟨name⟩ ∧ p = ⟨name ++ scriptSuffix⟩ ∧
        ¬ p.Beneath l.scriptsDir ∧ ¬ p.Beneath l.tasksDir := by
  have hroot : name.head? = some '/' → l.root.join name = ⟨name⟩ := fun hname => if_pos hname
  constructor
  · intro hstray
    have hname : name.head? = some '/' := by
      by_contra hrelative
      exact hstray (belongs_of_relative hrelative (List.mem_of_find?_eq_some hfind))
    obtain ⟨hspelled, hscripts, htasks⟩ : p ≠ ⟨name⟩ ∧ ¬ p.Beneath l.scriptsDir ∧
        ¬ p.Beneath l.tasksDir := by
      rw [Belongs, hroot hname] at hstray
      simpa only [not_or] using hstray
    -- an absolute name leaves two paths, of which the first one belongs to it
    rw [candidates_of_absolute hname] at hfind
    refine ⟨Path.isAbsolute_iff_head?.mpr hname, fun hfile => ?_, ?_, hscripts, htasks⟩
    · rw [List.find?_cons_of_pos hfile] at hfind
      exact hspelled (Option.some.inj hfind).symm
    · have hmem := List.mem_of_find?_eq_some hfind
      simpa [hspelled] using hmem
  · rintro ⟨habsolute, -, rfl, hscripts, htasks⟩ (hspelled | hbeneath)
    · rw [hroot (Path.isAbsolute_iff_head?.mp habsolute)] at hspelled
      exact ne_append_scriptSuffix name hspelled
    · exact hbeneath.elim hscripts htasks

/-- What becomes of the search for a script: where its candidates lie, which of them is found, and
when it is found where it does not belong. -/
structure Seeks (l : Layout) (name : Text) (m : Machine) (children : Children) : Prop where
  /-- The candidates for a relative name lie beneath their directories, behind the first one. -/
  relative : ¬ (⟨name⟩ : Path).isAbsolute → ∃ own script task : Path,
    l.candidates name = [l.root.join name, own, script, task] ∧
      own.Beneath l.scriptsDir ∧ script.Beneath l.scriptsDir ∧ task.Beneath l.tasksDir
  /-- For an absolute name no directory counts. -/
  absolute : (⟨name⟩ : Path).isAbsolute →
    l.candidates name = [⟨name⟩, ⟨name⟩, ⟨name ++ scriptSuffix⟩, ⟨name ++ scriptSuffix⟩]
  /-- Only the first candidate that is a file is found, and looking for it changes nothing. -/
  first : m.runAction children (l.findScript name) =
    (match (l.candidates name).find? (m.files.isFile m.cwd) with
      | some p => .ok p
      | none => .error (.scriptNotFound name (l.candidates name)), m)
  /-- What is found belongs to the name, unless the name is absolute and no file, and the path with
  the suffix behind it is a file elsewhere. -/
  strays : ∀ p, (m.runAction children (l.findScript name)).1 = .ok p →
    (¬ l.Belongs name p ↔
      (⟨name⟩ : Path).isAbsolute ∧ ¬ m.files.isFile m.cwd ⟨name⟩ ∧ p = ⟨name ++ scriptSuffix⟩ ∧
        ¬ p.Beneath l.scriptsDir ∧ ¬ p.Beneath l.tasksDir)

/-- For every layout, every name and every machine: a script is looked for at the path that its name
spells and beneath the directories of the layout, unless the name is absolute. -/
theorem seeks_findScript (l : Layout) (name : Text) (m : Machine) (children : Children) :
    l.Seeks name m children where
  relative := by
    intro hrelative
    have hname : name.head? ≠ some '/' := mt Path.isAbsolute_iff_head?.mpr hrelative
    exact ⟨_, _, _, rfl, beneath_of_relative hname⟩
  absolute habsolute := candidates_of_absolute (Path.isAbsolute_iff_head?.mp habsolute)
  first := runAction_findScript_eq l name m children
  strays _ hp := not_belongs_iff (find?_eq_some_of_findScript hp)

/-- No file has the absolute name, but one has it with the suffix behind it. -/
example : ((Machine.holding [([.text "o".toList], .dir),
      ([.text "o".toList, .text "x.sh".toList], .file [] true)]).runAction .absent
        ((ofSettings ⟨"/r".toList⟩ .standard).findScript "/o/x".toList)).1 =
    .ok ⟨"/o/x.sh".toList⟩ := by
  cbv

end Layout

end Caretaker

import Caretaker.Proofs.Registry.Canonical

/-!
# Finding the scripts of tasks

A registry takes the names of tasks from the names of files, and a script is looked for under a file
name that is made from the name of a task. The two agree: a task is registered exactly if the last
place where its script is looked for holds a file, and so the script of a registered task is found.
-/

namespace Caretaker

open FileSystem

variable {m : Machine} {children : Children} {l : Layout} {dir : Path} {name : Text} {p : Path}
  {entries : List EntryName} {r : Registry}

/-! ## Names of scripts -/

lemma isName_append_scriptSuffix (hname : '/' ∉ name) : Path.IsName (name ++ scriptSuffix) := by
  have hlast : (name ++ scriptSuffix).getLast? = some 'h' := by
    rw [List.getLast?_append]
    rfl
  refine ⟨⟨?_, ?_⟩, ?_, ?_⟩
  · intro hnil
    rw [hnil] at hlast
    cases hlast
  · intro hslash
    rcases List.mem_append.mp hslash with hslash | hslash
    · exact hname hslash
    · exact absurd hslash (by decide)
  · intro hdot
    rw [hdot] at hlast
    exact absurd hlast (by decide)
  · intro hdots
    rw [hdots] at hlast
    exact absurd hlast (by decide)

/-- A name is registered for a file of its own, -/
lemma Registry.Lists.isFile_of_mem {isFile : Path → Bool} {content : Path → Option Text}
    (h : Lists dir entries isFile content r) (hname : name ∈ r.names) :
    isFile (dir.join (name ++ scriptSuffix)) := by
  obtain ⟨file, -, hcut, hfile⟩ := (h.names name).mp hname
  obtain ⟨-, rfl⟩ := Task.nameOf?_eq_some_iff.mp (Task.nameOf?_eq_some_iff_cutExtension.mpr hcut)
  exact hfile

/-- and for each file of that kind its name is registered. -/
lemma Registry.Lists.mem_of_isFile {content : Path → Option Text}
    (h : Lists dir (m.namesIn dir) (m.files.isFile m.cwd) content r) (hdir : dir.text ≠ [])
    (hne : name ≠ []) (hname : '/' ∉ name)
    (hfile : m.files.isFile m.cwd (dir.join (name ++ scriptSuffix))) : name ∈ r.names := by
  obtain ⟨entries, hlist, hentry⟩ :=
    mem_of_isFile_join hdir (isName_append_scriptSuffix hname) hfile
  have hnames : m.namesIn dir = entries := by
    unfold Machine.namesIn
    rw [hlist]
    rfl
  rw [h.names, hnames]
  exact ⟨_, hentry, Task.cutExtension_append hne, hfile⟩

/-! ## Looking for a script -/

/-- The first candidate that leads to a file is found. -/
lemma Layout.runAction_findScript {before behind : List Path}
    (hcandidates : l.candidates name = before ++ p :: behind)
    (hbefore : ∀ q ∈ before, ¬ m.files.isFile m.cwd q) (hfile : m.files.isFile m.cwd p) :
    m.runAction children (l.findScript name) = (.ok p, m) := by
  have hfirst : (Layout.firstFile? (before ++ p :: behind)).transcript
      (fun c => (Machine.answer children c m).1) = ((before ++ [p]).map .isFile, some p) :=
    transcript_firstFile?_of_some (fun _ => rfl) hbefore hfile
  unfold Machine.runAction
  rw [m.run_eq_transcript children (l.only_findScript name)]
  show ((Action.transcript _ (l.findScript name)).2, m) = _
  rw [transcript_findScript, hcandidates, hfirst]

/-- If there is a file among the candidates, a script is found. -/
lemma Layout.exists_runAction_findScript (hp : p ∈ l.candidates name)
    (hfile : m.files.isFile m.cwd p) :
    ∃ script, m.runAction children (l.findScript name) = (.ok script, m) := by
  cases hfind : (l.candidates name).find? (m.files.isFile m.cwd) with
  | none => exact absurd hfile (List.find?_eq_none.mp hfind p hp)
  | some script =>
    obtain ⟨hscript, before, behind, hcandidates, hnot⟩ := List.find?_eq_some_iff_append.mp hfind
    have hbefore : ∀ q ∈ before, ¬ m.files.isFile m.cwd q := fun q hq => by simpa using hnot q hq
    exact ⟨script, runAction_findScript hcandidates hbefore hscript⟩

/-! ## Agreement -/

/-- The registered tasks are those whose scripts are found. -/
structure Registry.AgreesWith (r : Registry) (m : Machine) (children : Children) (l : Layout) :
    Prop where
  /-- A task is registered exactly if the fourth candidate for its name is a file. -/
  registered : ∀ name, name ≠ [] → '/' ∉ name →
    (l.candidates name)[3]? = some (l.tasksDir.join (name ++ scriptSuffix)) ∧
      (name ∈ r.names ↔ m.files.isFile m.cwd (l.tasksDir.join (name ++ scriptSuffix)))
  /-- For a registered task a script is found, -/
  found : ∀ name ∈ r.names,
    ∃ script, m.runAction children (l.findScript name) = (.ok script, m)
  /-- and it is the script of the task if no earlier candidate is a file. -/
  own : ∀ name ∈ r.names, (∀ p ∈ (l.candidates name).take 3, ¬ m.files.isFile m.cwd p) →
    m.runAction children (l.findScript name) = (.ok (l.tasksDir.join (name ++ scriptSuffix)), m)

/-- If the tasks directory can be read, registry and lookup agree. -/
theorem agreesWith_ofDir (children : Children)
    (hread : m.files.list m.cwd l.tasksDir = .ok entries) :
    ∃ r, m.runAction children (Registry.ofDir l.tasksDir) = (.ok r, m) ∧
      r.AgreesWith m children l := by
  obtain ⟨place, hplace, -⟩ := exists_of_list hread
  obtain ⟨-, hdir, -⟩ := walk_of_locate hplace
  obtain ⟨r, hr, hlists⟩ := Registry.exists_lists m children l.tasksDir
  refine ⟨r, hr, ?registered, ?found, ?own⟩
  case registered =>
    intro name hne hname
    exact ⟨rfl, hlists.isFile_of_mem, hlists.mem_of_isFile hdir hne hname⟩
  case found =>
    intro name hname
    have hfourth : l.tasksDir.join (name ++ scriptSuffix) ∈ l.candidates name := by
      simp [Layout.candidates]
    exact Layout.exists_runAction_findScript hfourth (hlists.isFile_of_mem hname)
  case own =>
    intro name hname hbefore
    have hcandidates : l.candidates name =
        (l.candidates name).take 3 ++ [l.tasksDir.join (name ++ scriptSuffix)] := rfl
    exact Layout.runAction_findScript hcandidates hbefore (hlists.isFile_of_mem hname)

/-- A site with scripts whose names are full of dots. -/
def dottedMachine : Machine := .holding
  [([.text "r".toList], .dir), ([.text "r".toList, .text "tasks".toList], .dir),
   ([.text "r".toList, .text "tasks".toList, .text "..sh".toList], .file [] false),
   ([.text "r".toList, .text "tasks".toList, .text ".sh".toList], .file [] false),
   ([.text "r".toList, .text "tasks".toList, .text "a.b.sh".toList], .link "..sh".toList)]

/-- What is in front of the last dot is the name, be it a dot itself; where nothing is, there is no
task. -/
theorem agreesWith_ofDir_dotted :
    dottedMachine.files.list dottedMachine.cwd (Layout.ofSettings ⟨"/r".toList⟩ .standard).tasksDir =
        .ok [.text "..sh".toList, .text ".sh".toList, .text "a.b.sh".toList] ∧
      ∃ r, dottedMachine.runAction .absent
          (Registry.ofDir (Layout.ofSettings ⟨"/r".toList⟩ .standard).tasksDir) =
            (.ok r, dottedMachine) ∧
        r.AgreesWith dottedMachine .absent (.ofSettings ⟨"/r".toList⟩ .standard) ∧
        r.names = [".".toList, "a.b".toList] := by
  have hread : dottedMachine.files.list dottedMachine.cwd
      (Layout.ofSettings ⟨"/r".toList⟩ .standard).tasksDir =
        .ok [.text "..sh".toList, .text ".sh".toList, .text "a.b.sh".toList] := by cbv
  obtain ⟨r, hr, hagrees⟩ := agreesWith_ofDir .absent hread
  have hnames : (dottedMachine.runAction .absent
      (Registry.ofDir (Layout.ofSettings ⟨"/r".toList⟩ .standard).tasksDir)).1.map Registry.names =
        .ok [".".toList, "a.b".toList] := by cbv
  rw [hr] at hnames
  exact ⟨hread, r, hr, hagrees, Except.ok.inj hnames⟩

end Caretaker

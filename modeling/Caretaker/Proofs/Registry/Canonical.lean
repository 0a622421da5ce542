import Caretaker.Proofs.Dispatch.Table
import Caretaker.Proofs.FileSystem.Directory
import Caretaker.Proofs.Text.Order
import Mathlib

/-!
# The registry of a directory

A registry is put together from the names of a directory, which an operating system may give in any
order. The result does not depend on it: the names of the tasks are the stems of the scripts in the
order of their bytes, each once, and a task has the description of its own script.
-/

namespace Caretaker

/-! ## Stems and extensions -/

/-- A file name cut at its last dot into its stem and its extension. A dot in front of everything else
cuts nothing off, nor do the two dots of the directory above. -/
def Text.cutExtension (file : Text) : Text × Option Text :=
  match file.reverse.dropWhile (· != '.') with
  | [] => (file, none)
  | _ :: stem =>
    if stem = [] ∨ file = "..".toList then (file, none)
    else (stem.reverse, some (file.reverse.takeWhile (· != '.')).reverse)

namespace Task

variable {file name : Text}

lemma cutExtension_append (h : name ≠ []) :
    Text.cutExtension (name ++ scriptSuffix) = (name, some "sh".toList) := by
  have hreverse : (name ++ scriptSuffix).reverse = "hs.".toList ++ name.reverse := by
    simp [scriptSuffix]
  have hdots : name ++ scriptSuffix ≠ ['.', '.'] := by
    intro heq
    have hlast := congrArg List.getLast? heq
    simp [scriptSuffix] at hlast
  unfold Text.cutExtension
  rw [hreverse]
  simp [hdots, h]

/-- The scripts of tasks are the files with the extension `sh`, and their names are the stems. -/
lemma nameOf?_eq_some_iff_cutExtension :
    nameOf? file = some name ↔ Text.cutExtension file = (name, some "sh".toList) := by
  rw [nameOf?_eq_some_iff]
  constructor
  · rintro ⟨hne, rfl⟩
    exact cutExtension_append hne
  · intro hcut
    unfold Text.cutExtension at hcut
    split at hcut
    · simp at hcut
    · rename_i c stem hdrop
      split_ifs at hcut with hnone
      · simp at hcut
      · obtain ⟨rfl, hext⟩ := Prod.mk.inj hcut
        -- the name was cut from behind, at its last dot
        have hdot : c = '.' := by
          have hhead := List.head?_dropWhile_not (· != '.') file.reverse
          rw [hdrop] at hhead
          simpa using hhead
        have hfile : file.reverse.takeWhile (· != '.') ++ c :: stem = file.reverse := by
          rw [← hdrop, List.takeWhile_append_dropWhile]
        refine ⟨by simpa using fun hnil => hnone (Or.inl hnil), ?_⟩
        rw [← List.reverse_inj, ← hfile, ← List.reverse_reverse (List.takeWhile _ _),
          Option.some.inj hext, hdot, List.reverse_append, List.reverse_reverse]
        rfl

end Task

/-! ## Directories -/

/-- The names of the directory to which a path leads; none if it leads to no directory. -/
def Machine.namesIn (m : Machine) (dir : Path) : List EntryName :=
  (m.files.list m.cwd dir).toOption.getD []

/-- An order in which an operating system gives the names of directories. -/
structure DirectoryOrder where
  arrange : Path → List EntryName → List EntryName
  perm : ∀ dir names, (arrange dir names).Perm names

/-- The answers of a machine that gives the names of directories in an order. -/
def Machine.replyIn (m : Machine) (children : Children) (o : DirectoryOrder) : (c : Call) → c.Reply
  | .list dir => (m.files.list m.cwd dir).map (o.arrange dir)
  | c => (answer children c m).1

namespace Registry

/-! ## The task of an entry -/

section
variable {reply : (c : Call) → c.Reply} {dir : Path} {entry : EntryName} {t : Task}

/-- An entry is a task if it is a file with the extension, and it is described by what it holds. -/
lemma task?_eq_some_iff : ((task? dir entry).transcript reply).2 = some t ↔
    ∃ file, entry = .text file ∧ Task.nameOf? file = some t.name ∧ reply (.isFile (dir.join file)) ∧
      t.description = (reply (.readText (dir.join file))).toOption.bind Task.describe := by
  cases entry with
  | bytes b =>
    show (none : Option Task) = some t ↔ _
    simp
  | text file =>
    rw [task?]
    cases hname : Task.nameOf? file with
    | none =>
      show (none : Option Task) = some t ↔ _
      simp [hname]
    | some name =>
      -- what is no file is not read at all
      have hscript : ((task? dir (.text file)).transcript reply).2 =
          if reply (.isFile (dir.join file)) then
            some ⟨name, (reply (.readText (dir.join file))).toOption.bind Task.describe⟩
          else none := by
        rw [task?, hname]
        show (Program.transcript reply (.call (.isFile (dir.join file)) _)).2 = _
        rw [Program.transcript]
        cases reply (.isFile (dir.join file)) <;> rfl
      rw [task?, hname] at hscript
      rw [hscript]
      obtain ⟨tname, tdescription⟩ := t
      simp only [Option.ite_none_right_eq_some, Option.some.injEq, Task.mk.injEq,
        EntryName.text.injEq]
      constructor
      · rintro ⟨hfile, rfl, rfl⟩
        exact ⟨file, rfl, hname, hfile, rfl⟩
      · rintro ⟨file', rfl, hname', hfile, rfl⟩
        exact ⟨hfile, Option.some.inj (hname.symm.trans hname'), rfl⟩

/-- Looking for the tasks of a directory. -/
lemma transcript_ofDir : (Action.transcript reply (ofDir dir)).2 =
    if reply (.isDir dir) then
      match reply (.list dir) with
      | .ok entries =>
        .ok (ofTasks (entries.filterMap fun entry => ((task? dir entry).transcript reply).2))
      | .error e => .error (.io e)
    else .ok ⟨[]⟩ := by
  rw [ofDir, Action.transcript_bind, Action.transcript_ask]
  dsimp only
  cases reply (.isDir dir) with
  | false => rfl
  | true =>
    rw [if_pos rfl, if_pos rfl, Action.transcript_bind, Action.transcript_bind,
      Action.transcript_ask]
    dsimp only
    cases reply (.list dir) with
    | error e => rfl
    | ok entries =>
      have hscripts := Program.transcript_mapM reply (task? dir) entries
      show Prod.snd (Prod.mk _ (Action.transcript reply (ExceptT.lift _ >>= _)).2) = _
      rw [Action.transcript_bind, Action.transcript_lift]
      dsimp only
      rw [hscripts, Action.transcript_pure, List.filterMap_map]
      rfl

end

/-! ## What a registry holds -/

/-- The registry of a directory that holds `entries`: `isFile` says which paths lead to regular files,
and `content` what can be read there. -/
structure Lists (dir : Path) (entries : List EntryName) (isFile : Path → Bool)
    (content : Path → Option Text) (r : Registry) : Prop where
  /-- The names are the stems of the scripts. -/
  names : ∀ name, name ∈ r.names ↔ ∃ file, .text file ∈ entries ∧
    Text.cutExtension file = (name, some "sh".toList) ∧ isFile (dir.join file)
  /-- They stand in the order of their bytes. -/
  increasing : r.names.Pairwise fun a b => Text.encode a < Text.encode b
  /-- Each task has the description of its own script. -/
  descriptions : ∀ t ∈ r.tasks, ∀ file, Text.cutExtension file = (t.name, some "sh".toList) →
    t.description = (content (dir.join file)).bind Task.describe

variable {dir : Path} {entries : List EntryName} {isFile : Path → Bool}
  {content : Path → Option Text} {r r' : Registry}

/-- The tasks of a registry are told by their names. -/
lemma Lists.tasks_eq (h : Lists dir entries isFile content r) : r.tasks = r.names.map fun name =>
    ⟨name, (content (dir.join (name ++ scriptSuffix))).bind Task.describe⟩ := by
  have htask : ∀ t ∈ r.tasks,
      t = ⟨t.name, (content (dir.join (t.name ++ scriptSuffix))).bind Task.describe⟩ := by
    intro t ht
    have hname : t.name ∈ r.names := List.mem_map_of_mem ht
    obtain ⟨file, -, hcut, -⟩ := (h.names t.name).mp hname
    obtain ⟨-, rfl⟩ := Task.nameOf?_eq_some_iff.mp (Task.nameOf?_eq_some_iff_cutExtension.mpr hcut)
    rw [← h.descriptions t ht _ hcut]
  unfold Registry.names
  rw [List.map_map]
  calc r.tasks = r.tasks.map id := (List.map_id _).symm
    _ = _ := List.map_congr_left htask

/-- A directory has one registry. -/
theorem Lists.unique (h : Lists dir entries isFile content r)
    (h' : Lists dir entries isFile content r') : r' = r := by
  have hnodup : ∀ {r : Registry}, r.names.Pairwise (fun a b => Text.encode a < Text.encode b) →
      r.names.Nodup := by
    intro r hr
    refine hr.imp fun hlt heq => ?_
    rw [heq] at hlt
    exact List.lt_irrefl _ hlt
  have hperm : r'.names.Perm r.names := by
    rw [List.perm_ext_iff_of_nodup (hnodup h'.increasing) (hnodup h.increasing)]
    intro name
    rw [h'.names, h.names]
  have hnames : r'.names = r.names := by
    refine hperm.eq_of_pairwise (fun a b _ _ hab hba => ?_) h'.increasing h.increasing
    exact absurd hba (List.lt_asymm hab)
  have htasks : r'.tasks = r.tasks := by rw [h'.tasks_eq, h.tasks_eq, hnames]
  cases r
  cases r'
  exact congrArg Registry.mk htasks

lemma mem_ofTasks {tasks : List Task} {t : Task} : t ∈ (ofTasks tasks).tasks ↔ t ∈ tasks :=
  (List.mergeSort_perm ..).mem_iff

/-- Tasks with different names are sorted strictly. -/
lemma increasing_ofTasks {tasks : List Task} (hnodup : (tasks.map Task.name).Nodup) :
    (ofTasks tasks).names.Pairwise fun a b => Text.encode a < Text.encode b := by
  have hsorted : (ofTasks tasks).tasks.Pairwise fun a b => Text.le a.name b.name :=
    @List.pairwise_mergeSort Task (fun a b => Text.le a.name b.name)
      (fun a b c => Text.le_trans)
      (fun a b => Bool.or_eq_true_iff.mpr (Text.le_total a.name b.name)) tasks
  have hdistinct : (ofTasks tasks).tasks.Pairwise fun a b => a.name ≠ b.name := by
    have hperm : ((ofTasks tasks).tasks.map Task.name).Perm (tasks.map Task.name) :=
      (List.mergeSort_perm ..).map _
    exact List.pairwise_map.mp (hperm.nodup_iff.mpr hnodup)
  unfold names
  rw [List.pairwise_map]
  exact (hsorted.and hdistinct).imp fun h => Text.encode_lt_of_le h.1 h.2

/-- The tasks of the entries of a directory, once they are sorted, are its registry. -/
theorem lists_ofTasks {f : EntryName → Option Task} (hentries : entries.Nodup)
    (hf : ∀ entry t, f entry = some t ↔ ∃ file, entry = .text file ∧
      Task.nameOf? file = some t.name ∧ isFile (dir.join file) ∧
        t.description = (content (dir.join file)).bind Task.describe) :
    Lists dir entries isFile content (ofTasks (entries.filterMap f)) where
  names := by
    intro name
    constructor
    · intro hname
      obtain ⟨t, ht, rfl⟩ := List.mem_map.mp hname
      obtain ⟨entry, hentry, htask⟩ := List.mem_filterMap.mp (mem_ofTasks.mp ht)
      obtain ⟨file, rfl, hfile, hregular, -⟩ := (hf entry t).mp htask
      exact ⟨file, hentry, Task.nameOf?_eq_some_iff_cutExtension.mp hfile, hregular⟩
    · rintro ⟨file, hentry, hcut, hregular⟩
      have hfile := Task.nameOf?_eq_some_iff_cutExtension.mpr hcut
      have htask := (hf (.text file) ⟨name, (content (dir.join file)).bind Task.describe⟩).mpr
        ⟨file, rfl, hfile, hregular, rfl⟩
      exact List.mem_map.mpr ⟨_, mem_ofTasks.mpr (List.mem_filterMap.mpr ⟨_, hentry, htask⟩), rfl⟩
  increasing := by
    refine increasing_ofTasks ?_
    unfold List.Nodup
    rw [List.pairwise_map, List.pairwise_filterMap]
    refine hentries.imp fun {entry entry'} hne t ht t' ht' heq => ?_
    -- two scripts with one stem are one entry
    obtain ⟨file, rfl, hname, -⟩ := (hf entry t).mp ht
    obtain ⟨file', rfl, hname', -⟩ := (hf entry' t').mp ht'
    rw [heq] at hname
    obtain ⟨-, rfl⟩ := Task.nameOf?_eq_some_iff.mp hname
    obtain ⟨-, rfl⟩ := Task.nameOf?_eq_some_iff.mp hname'
    exact hne rfl
  descriptions := by
    intro t ht file hcut
    obtain ⟨entry, -, htask⟩ := List.mem_filterMap.mp (mem_ofTasks.mp ht)
    obtain ⟨file', -, hname', -, hdescription⟩ := (hf entry t).mp htask
    have hname := Task.nameOf?_eq_some_iff_cutExtension.mpr hcut
    obtain ⟨-, rfl⟩ := Task.nameOf?_eq_some_iff.mp hname
    obtain ⟨-, rfl⟩ := Task.nameOf?_eq_some_iff.mp hname'
    exact hdescription

/-! ## Any order of the directory -/

variable {reply : (c : Call) → c.Reply}

/-- If the directory can be read, its registry is found. -/
lemma lists_of_reply (hdir : reply (.isDir dir)) (hlist : reply (.list dir) = .ok entries)
    (hentries : entries.Nodup) :
    ∃ r, (Action.transcript reply (ofDir dir)).2 = .ok r ∧
      Lists dir entries (fun p => reply (.isFile p)) (fun p => (reply (.readText p)).toOption) r := by
  rw [transcript_ofDir, if_pos hdir, hlist]
  exact ⟨_, rfl, lists_ofTasks hentries fun entry t => task?_eq_some_iff⟩

/-- A registry lists the entries of a directory in whichever order they come. -/
theorem Lists.of_perm (h : Lists dir entries isFile content r) {entries' : List EntryName}
    (hperm : entries'.Perm entries) : Lists dir entries' isFile content r where
  names name := by simp only [h.names, hperm.mem_iff]
  increasing := h.increasing
  descriptions := h.descriptions

/-- Where there is no directory, nothing is listed. -/
lemma lists_nil : Lists dir [] isFile content ⟨[]⟩ where
  names name := by simp [names]
  increasing := List.Pairwise.nil
  descriptions t ht := absurd ht List.not_mem_nil

/-- Whatever order the names are given in, the registry is that of the directory. -/
lemma lists_replyIn (m : Machine) (children : Children) (o : DirectoryOrder) (dir : Path) :
    ∃ r, (Action.transcript (m.replyIn children o) (ofDir dir)).2 = .ok r ∧
      Lists dir (m.namesIn dir) (m.files.isFile m.cwd)
        (fun p => (m.files.readText m.cwd p).toOption) r := by
  by_cases hdir : m.files.isDir m.cwd dir
  · obtain ⟨entries, hentries⟩ := FileSystem.list_of_isDir hdir
    obtain ⟨place, -, -, rfl⟩ := FileSystem.exists_of_list hentries
    have hlist : m.replyIn children o (.list dir) = .ok (o.arrange dir (m.files.names place)) := by
      show (m.files.list m.cwd dir).map _ = _
      rw [hentries]
      rfl
    have hnames : m.namesIn dir = m.files.names place := by
      unfold Machine.namesIn
      rw [hentries]
      rfl
    -- whichever order it is, each name comes once
    have hperm := o.perm dir (m.files.names place)
    have hnodup : (o.arrange dir (m.files.names place)).Nodup :=
      hperm.nodup_iff.mpr (FileSystem.nodup_names m.files place)
    have hreply : m.replyIn children o (.isDir dir) := hdir
    obtain ⟨r, hr, hlists⟩ := lists_of_reply hreply hlist hnodup
    rw [hnames]
    exact ⟨r, hr, hlists.of_perm hperm.symm⟩
  · have hnames : m.namesIn dir = [] := by
      unfold Machine.namesIn
      cases hlist : m.files.list m.cwd dir with
      | error e => rfl
      | ok entries => exact absurd (FileSystem.isDir_of_list hlist) hdir
    have hnone : ¬ m.replyIn children o (.isDir dir) := hdir
    rw [transcript_ofDir, if_neg hnone, hnames]
    exact ⟨_, rfl, lists_nil⟩

/-- A machine gives the names of a directory in one of the orders. -/
lemma exists_replyIn_eq (m : Machine) (children : Children) :
    ∃ o : DirectoryOrder, m.replyIn children o = fun c => (Machine.answer children c m).1 := by
  refine ⟨⟨fun _ names => names, fun _ _ => List.Perm.refl _⟩, funext fun c => ?_⟩
  cases c with
  | list dir =>
    show (m.files.list m.cwd dir).map _ = m.files.list m.cwd dir
    cases m.files.list m.cwd dir <;> rfl
  | _ => rfl

/-- A machine finds the registry of a directory. -/
theorem exists_lists (m : Machine) (children : Children) (dir : Path) :
    ∃ r, m.runAction children (ofDir dir) = (.ok r, m) ∧
      Lists dir (m.namesIn dir) (m.files.isFile m.cwd)
        (fun p => (m.files.readText m.cwd p).toOption) r := by
  obtain ⟨own, hown⟩ := exists_replyIn_eq m children
  obtain ⟨r, hr, hlists⟩ := lists_replyIn m children own dir
  refine ⟨r, ?_, hlists⟩
  unfold Machine.runAction
  rw [m.run_eq_transcript children (only_ofDir dir), ← hown]
  exact Prod.ext hr rfl

/-- Whichever order the operating system gives the names of a directory in, the registry is the same:
the one that holds the stems of the scripts in the order of their bytes, with their descriptions. -/
theorem canonical_ofDir (m : Machine) (children : Children) (dir : Path) :
    ∃ r, m.runAction children (ofDir dir) = (.ok r, m) ∧
      (∀ o : DirectoryOrder, (Action.transcript (m.replyIn children o) (ofDir dir)).2 = .ok r) ∧
      ∀ r', Lists dir (m.namesIn dir) (m.files.isFile m.cwd)
        (fun p => (m.files.readText m.cwd p).toOption) r' ↔ r' = r := by
  obtain ⟨r, hr, hlists⟩ := exists_lists m children dir
  refine ⟨r, hr, ?orders, ?only⟩
  case orders =>
    intro o
    obtain ⟨r', hr', hlists'⟩ := lists_replyIn m children o dir
    rw [hr', hlists.unique hlists']
  case only =>
    intro r'
    constructor
    · exact hlists.unique
    · rintro rfl
      exact hlists

/-- A directory, a file whose name is not text and other files stand among the scripts. -/
example : ((Machine.holding
    [([.text "t".toList], .dir), ([.text "t".toList, .text "b.sh".toList], .file [] false),
     ([.text "t".toList, .text "d.sh".toList], .dir),
     ([.text "t".toList, .bytes [0xFF]], .file [] false),
     ([.text "t".toList, .text "note".toList], .file [] false),
     ([.text "t".toList, .text "a.sh".toList], .file (Text.encode "# Do".toList) true)]).runAction
      .absent (ofDir ⟨"/t".toList⟩)).1.map Registry.tasks =
    .ok [⟨['a'], some "Do".toList⟩, ⟨['b'], none⟩] := by
  cbv

end Registry

end Caretaker

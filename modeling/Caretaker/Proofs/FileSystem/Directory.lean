import Caretaker.Proofs.FileSystem.Passing

/-!
# What a directory holds

The names that are read from a directory are those of the entries in it. So a path with one more name
than that of the directory leads to an entry only if the name is among them.
-/

namespace Caretaker.FileSystem

open Caretaker.Path (IsName)

variable {fs : FileSystem} {cwd here p : Place} {path root : Path} {links : ℕ} {n : EntryName}
  {name : Text} {e : Entry} {entries : List EntryName} {todo : List Step}

/-! ## Names of entries -/

lemma nodup_eraseDups {α : Type} [DecidableEq α] (l : List α) : l.eraseDups.Nodup := by
  -- what is kept of the rest is shorter than the rest
  induction hlength : l.length using Nat.strong_induction_on generalizing l with
  | _ k ih =>
    cases l with
    | nil => exact List.nodup_nil
    | cons a l =>
      have hle := List.length_filter_le (fun b => !b == a) l
      have hrest := ih _ (by rw [← hlength, List.length_cons]; omega) (l.filter fun b => !b == a) rfl
      rw [List.eraseDups_cons, List.nodup_cons]
      exact ⟨by simp [List.mem_eraseDups], hrest⟩

lemma nodup_names (fs : FileSystem) (dir : Place) : (fs.names dir).Nodup := nodup_eraseDups _

/-- The name of what stands in a directory is read from it. -/
lemma mem_names_of_get? (h : fs.get? (here ++ [n]) = some e) : n ∈ fs.names here := by
  unfold get? at h
  rw [if_neg (by simp), Option.map_eq_some_iff] at h
  obtain ⟨⟨q, e'⟩, hfind, -⟩ := h
  have hq : q = here ++ [n] := by simpa using List.find?_some hfind
  unfold names
  rw [List.mem_eraseDups, List.mem_filterMap]
  refine ⟨(q, e'), List.mem_of_find?_eq_some hfind, ?_⟩
  simp [hq]

/-! ## Reading a directory -/

lemma list_of_locate (hplace : fs.locate cwd true path = .ok p) (hdir : fs.get? p = some .dir) :
    fs.list cwd path = .ok (fs.names p) := by
  rw [list, find_eq_ok_iff.mpr ⟨hplace, hdir⟩]
  rfl

lemma list_of_isDir (h : fs.isDir cwd path) : ∃ entries, fs.list cwd path = .ok entries := by
  obtain ⟨place, hplace, hdir⟩ := exists_locate_of_isDir h
  exact ⟨fs.names place, list_of_locate hplace hdir⟩

lemma exists_of_list (h : fs.list cwd path = .ok entries) :
    ∃ place, fs.locate cwd true path = .ok place ∧ fs.get? place = some .dir ∧
      entries = fs.names place := by
  rw [list] at h
  rcases hf : fs.find cwd true path with f | ⟨place, e⟩
  · rw [hf] at h
    cases h
  · rw [hf] at h
    obtain ⟨hlocate, hget⟩ := find_eq_ok_iff.mp hf
    cases e with
    | dir => exact ⟨place, hlocate, hget, (Except.ok.inj h).symm⟩
    | file content executable => cases h
    | link target => cases h

lemma isDir_of_list (h : fs.list cwd path = .ok entries) : fs.isDir cwd path := by
  obtain ⟨place, hplace, hdir, -⟩ := exists_of_list h
  rw [isDir, find_eq_ok_iff.mpr ⟨hplace, hdir⟩]

lemma exists_locate_of_isFile (h : fs.isFile cwd path) :
    ∃ place content executable, fs.locate cwd true path = .ok place ∧
      fs.get? place = some (.file content executable) := by
  rw [isFile] at h
  rcases hf : fs.find cwd true path with f | ⟨place, e⟩
  · rw [hf] at h
    cases h
  · rw [hf] at h
    cases e with
    | dir => cases h
    | file content executable => exact ⟨place, content, executable, find_eq_ok_iff.mp hf⟩
    | link target => cases h

/-! ## One more name -/

/-- A walk into one name that ends at an entry has met an entry of that name in a directory. -/
lemma exists_of_walk_into {follow : Bool} (h : fs.walk links follow here [.into n] = .ok p)
    (hp : fs.get? p = some e) :
    fs.get? here = some .dir ∧ ∃ e', fs.get? (here ++ [n]) = some e' := by
  have hdir : fs.get? here = some .dir := by
    cases hhere : fs.get? here with
    | none => cases (walk_of_none hhere).symm.trans h
    | some e' =>
      by_cases he' : e' = .dir
      · rw [he']
      · cases (walk_of_not_dir hhere he').symm.trans h
  have hlen : ¬ maxName < n.byteLength := by
    intro hlong
    cases (walk_into_long hdir hlong).symm.trans h
  refine ⟨hdir, ?_⟩
  cases hnext : fs.get? (here ++ [n]) with
  | some e' => exact ⟨e', rfl⟩
  | none =>
    -- where nothing stands the walk could only have ended at nothing
    rcases walk_into_gone hdir hlen hnext with hlast | hfail
    · cases hp.symm.trans (Except.ok.inj (hlast.symm.trans h) ▸ hnext)
    · cases hfail.symm.trans h

/-- A walk that ends with a name goes through a directory in which something has that name. -/
lemma exists_parent_of_walk (h : fs.walk links true here (todo ++ [.into n]) = .ok p)
    (hp : fs.get? p = some e) : ∃ parent e', fs.walk links true here todo = .ok parent ∧
      fs.get? parent = some .dir ∧ fs.get? (parent ++ [n]) = some e' := by
  generalize hfollow : true = follow at h ⊢
  fun_induction walk fs links follow here todo with
  | case1 links here =>
    obtain ⟨hdir, e', hentry⟩ := exists_of_walk_into h hp
    exact ⟨here, e', rfl, hdir, hentry⟩
  | case2 links here s rest hnone =>
    cases (walk_of_none hnone).symm.trans h
  | case3 links here s rest content executable hfile =>
    cases (walk_of_not_dir hfile (by simp)).symm.trans h
  | case4 links here s rest target hlink =>
    cases (walk_of_not_dir hlink (by simp)).symm.trans h
  | case5 links here rest hdir ih => exact ih ((walk_stay hdir).symm.trans h)
  | case6 links here rest hdir ih => exact ih ((walk_up hdir).symm.trans h)
  | case7 links here rest hdir m hlen => cases (walk_into_long hdir hlen).symm.trans h
  | case8 links here rest hdir m hlen next hnext hlast =>
    rw [List.isEmpty_iff.mp hlast] at h
    cases (walk_into_none hdir hlen hnext (by simp)).symm.trans h
  | case9 links here rest hdir m hlen next hnext =>
    cases (walk_into_none hdir hlen hnext (by simp)).symm.trans h
  | case10 links here rest hdir m hlen next target hnext hlast => simp [← hfollow] at hlast
  | case11 here rest hdir m hlen next target hnext =>
    cases (walk_into_link_zero hdir hlen hnext (by simp)).symm.trans h
  | case12 here rest hdir m hlen next target hnext hlast left ih =>
    rw [List.cons_append, walk_into_link hdir hlen hnext (by simp), ← List.append_assoc] at h
    exact ih h
  | case13 links here rest hdir m hlen next e' hlink hnext ih =>
    exact ih ((walk_into_other hdir hlen hnext fun target heq => hlink target heq).symm.trans h)

/-- What is found under a name in a directory is among the names that are read from it. -/
lemma mem_of_isFile_join (hne : root.text ≠ []) (hname : IsName name)
    (h : fs.isFile cwd (root.join name)) :
    ∃ entries, fs.list cwd root = .ok entries ∧ .text name ∈ entries := by
  obtain ⟨place, content, executable, hplace, hfile⟩ := exists_locate_of_isFile h
  obtain ⟨hnul, -, hshort, hwalk⟩ := walk_of_locate hplace
  obtain ⟨behind, hjoin, -⟩ := root.exists_join_eq_append hname
  have hstart : start cwd (root.join name).text = start cwd root.text := by
    rw [start, start, hjoin, List.head?_append_of_ne_nil _ hne]
  rw [hstart, ← walk_of_pads (pads_steps_join hne hname)] at hwalk
  obtain ⟨parent, e', hparent, hdir, hentry⟩ := exists_parent_of_walk hwalk hfile
  -- the path of the directory is the front of the other one, and so it is fit for a walk as well
  have hroot : fs.locate cwd true root = .ok parent := by
    rw [hjoin] at hnul hshort
    rw [Path.byteLength_append] at hshort
    rw [locate, if_neg fun hmem => hnul (List.mem_append_left _ hmem),
      if_neg (by simpa using hne), if_neg (by omega), hparent]
  exact ⟨fs.names parent, list_of_locate hroot hdir, mem_names_of_get? hentry⟩

end Caretaker.FileSystem

import Caretaker.Proofs.FileSystem.Walk
import Caretaker.Proofs.Path.Components

/-!
# Following links

A walk through a link goes on along the text of the link, with one link less to follow. Texts with
the same components lead the same way, except that one which ends with a slash or a dot asks for a
directory; and a walk that does not run out of links does not notice how many it had left.
-/

namespace Caretaker.FileSystem

open Caretaker.Path (IsName IsMoving ofNames)

variable {fs : FileSystem} {links : ℕ} {follow : Bool} {here p : Place} {todo rest : List Step}

/-! ## The number of links left -/

/-- A walk that does not run out of links goes the same way with more of them. -/
lemma walk_of_le {more : ℕ} (hle : links ≤ more)
    (h : fs.walk links follow here todo ≠ .error .tooManyLinks) :
    fs.walk more follow here todo = fs.walk links follow here todo := by
  -- only a link on the way takes one of `links`, so `more` is generalized and shrinks with them
  fun_induction walk fs links follow here todo generalizing more with
  | case1 => rw [walk_nil]
  | case2 links here s rest hnone => rw [walk_of_none hnone]
  | case3 links here s rest content executable hfile => rw [walk_of_not_dir hfile (by simp)]
  | case4 links here s rest target hlink => rw [walk_of_not_dir hlink (by simp)]
  | case5 links here rest hdir ih => rw [walk_stay hdir, ih hle h]
  | case6 links here rest hdir ih => rw [walk_up hdir, ih hle h]
  | case7 links here rest hdir n hlen => rw [walk_into_long hdir hlen]
  | case8 links here rest hdir n hlen next hnext =>
    rename_i hlast
    rw [List.isEmpty_iff.mp hlast, walk_into_last hdir hlen fun _ target ht => ?_]
    cases hnext.symm.trans ht
  | case9 links here rest hdir n hlen next hnext =>
    rename_i hlast
    rw [walk_into_none hdir hlen hnext (by simpa using hlast)]
  | case10 links here rest hdir n hlen next target hnext =>
    rename_i hlast
    simp only [Bool.and_eq_true, List.isEmpty_iff, Bool.not_eq_true'] at hlast
    rw [hlast.1, walk_into_last hdir hlen fun hfollow => ?_]
    rw [hlast.2] at hfollow
    cases hfollow
  | case11 => exact absurd rfl h
  | case12 here rest hdir n hlen next target hnext hlast left =>
    rename_i ih
    obtain ⟨more, rfl⟩ : ∃ more', more = more' + 1 := ⟨more - 1, by omega⟩
    rw [walk_into_link hdir hlen hnext (by simpa using hlast), ih (by omega) h]
  | case13 links here rest hdir n hlen next e hlink hnext =>
    rename_i ih
    rw [walk_into_other hdir hlen hnext fun target he => hlink target he, ih hle h]

/-! ## Steps that stay -/

/-- Steps with some more that stay put in front of others. -/
inductive Pads : List Step → List Step → Prop where
  | nil : Pads [] []
  | stay {t t' : List Step} : Pads t t' → t' ≠ [] → Pads (.stay :: t) t'
  | step {t t' : List Step} (s : Step) : Pads t t' → Pads (s :: t) (s :: t')

lemma Pads.append_left {t t' : List Step} (h : Pads t t') :
    ∀ s : List Step, Pads (s ++ t) (s ++ t')
  | [] => h
  | x :: s => .step x (h.append_left s)

lemma Pads.isEmpty_eq {t t' : List Step} (h : Pads t t') : t.isEmpty = t'.isEmpty := by
  cases h with
  | nil => rfl
  | stay h hne => simpa using hne
  | step s h => rfl

lemma Pads.exists_cons {s : Step} {t t' : List Step} (h : Pads (s :: t) t') :
    ∃ s' r', t' = s' :: r' := by
  cases h with
  | stay h hne => exact List.exists_cons_of_ne_nil hne
  | step s h => exact ⟨_, _, rfl⟩

lemma Pads.exists_into {n : EntryName} {t t' : List Step} (h : Pads (.into n :: t) t') :
    ∃ r', t' = .into n :: r' ∧ Pads t r' := by
  cases h with
  | step s h => exact ⟨_, rfl, h⟩

/-- In front of a step that needs a directory, staying in it says nothing. -/
lemma walk_of_pads {todo' : List Step} (h : Pads todo todo') :
    fs.walk links follow here todo = fs.walk links follow here todo' := by
  -- the induction is on the walk along the padded steps: where it stays, the other one waits
  fun_induction walk fs links follow here todo generalizing todo' with
  | case1 =>
    cases h
    rw [walk_nil]
  | case2 links here s rest hnone =>
    obtain ⟨s', r', rfl⟩ := h.exists_cons
    rw [walk_of_none hnone]
  | case3 links here s rest content executable hfile =>
    obtain ⟨s', r', rfl⟩ := h.exists_cons
    rw [walk_of_not_dir hfile (by simp)]
  | case4 links here s rest target hlink =>
    obtain ⟨s', r', rfl⟩ := h.exists_cons
    rw [walk_of_not_dir hlink (by simp)]
  | case5 links here rest hdir ih =>
    cases h with
    | stay h hne => exact ih h
    | step s h => rw [walk_stay hdir, ih h]
  | case6 links here rest hdir ih =>
    cases h with
    | step s h => rw [walk_up hdir, ih h]
  | case7 links here rest hdir n hlen =>
    obtain ⟨r', rfl, -⟩ := h.exists_into
    rw [walk_into_long hdir hlen]
  | case8 links here rest hdir n hlen next hnext =>
    rename_i hlast
    obtain ⟨r', rfl, hr⟩ := h.exists_into
    rw [hr.isEmpty_eq, List.isEmpty_iff] at hlast
    rw [hlast, walk_into_last hdir hlen fun _ target ht => ?_]
    cases hnext.symm.trans ht
  | case9 links here rest hdir n hlen next hnext =>
    rename_i hlast
    obtain ⟨r', rfl, hr⟩ := h.exists_into
    rw [hr.isEmpty_eq] at hlast
    rw [walk_into_none hdir hlen hnext (by simpa using hlast)]
  | case10 links here rest hdir n hlen next target hnext =>
    rename_i hlast
    obtain ⟨r', rfl, hr⟩ := h.exists_into
    rw [hr.isEmpty_eq] at hlast
    simp only [Bool.and_eq_true, List.isEmpty_iff, Bool.not_eq_true'] at hlast
    rw [hlast.1, walk_into_last hdir hlen fun hfollow => ?_]
    rw [hlast.2] at hfollow
    cases hfollow
  | case11 here rest hdir n hlen next target hnext =>
    rename_i hlast
    obtain ⟨r', rfl, hr⟩ := h.exists_into
    rw [hr.isEmpty_eq] at hlast
    rw [walk_into_link_zero hdir hlen hnext (by simpa using hlast)]
  | case12 here rest hdir n hlen next target hnext hlast left =>
    rename_i ih
    -- the text of the link comes in front of both, and is not padded
    obtain ⟨r', rfl, hr⟩ := h.exists_into
    rw [hr.isEmpty_eq] at hlast
    rw [walk_into_link hdir hlen hnext (by simpa using hlast), ih (hr.append_left (steps target))]
  | case13 links here rest hdir n hlen next e hlink hnext =>
    rename_i ih
    obtain ⟨r', rfl, hr⟩ := h.exists_into
    rw [walk_into_other hdir hlen hnext fun target he => hlink target he, ih hr]

/-- Steps that do not end in staying are what is left of them without it, padded. -/
lemma pads_filter (h : todo.getLast? ≠ some .stay) : Pads todo (todo.filter (· ≠ .stay)) := by
  induction todo with
  | nil => exact .nil
  | cons s rest ih =>
    have hrest : rest.getLast? ≠ some .stay := by
      cases rest with
      | nil => exact nofun
      | cons s' rest => exact h
    by_cases hs : s = .stay
    · subst hs
      rw [List.filter_cons_of_neg (by simp)]
      refine .stay (ih hrest) fun hnil => ?_
      -- something that does not stay is still to come, or this would be the last step
      have hne : rest ≠ [] := by
        rintro rfl
        exact h rfl
      rw [List.getLast?_eq_some_getLast hne] at hrest
      have hmem : rest.getLast hne ∈ rest.filter (· ≠ .stay) :=
        List.mem_filter.mpr ⟨List.getLast_mem hne, by simpa using hrest⟩
      rw [hnil] at hmem
      cases hmem
    · rw [List.filter_cons_of_pos (by simpa using hs)]
      exact .step s (ih hrest)

/-- Behind any other step, the last one is still to come. -/
lemma getLast?_of_cons {s t : Step} (hne : s ≠ t) (h : (s :: rest).getLast? = some t) :
    rest.getLast? = some t := by
  cases rest with
  | nil => exact absurd (Option.some.inj h) hne
  | cons s' rest => exact h

/-- A walk that ends in staying ends at a directory. -/
lemma isDir_of_walk (hlast : todo.getLast? = some .stay)
    (h : fs.walk links follow here todo = .ok p) : fs.get? p = some .dir := by
  induction h using walk_induction with
  | done links => cases hlast
  | last links here n h hdir hlen hend => cases hlast
  | stay links here rest hdir h ih =>
    cases rest with
    | nil =>
      rw [← Except.ok.inj (walk_nil.symm.trans h)]
      exact hdir
    | cons s rest => exact ih hlast
  | up links here rest hdir h ih => exact ih (getLast?_of_cons (by simp) hlast)
  | link left here n rest target hdir hlen hnext hfollow h ih =>
    refine ih ?_
    rw [List.getLast?_append, getLast?_of_cons (by simp) hlast]
    rfl
  | into links here n rest e hdir hlen hnext he h ih => exact ih (getLast?_of_cons (by simp) hlast)

/-! ## The last step -/

/-- A walk that ends at a link goes on along its text when it follows it. -/
lemma exists_walk_of_link {n : EntryName} {target : Text} (hlast : todo.getLast? = some (.into n))
    (h : fs.walk links false here todo = .ok p) (hp : fs.get? p = some (.link target)) :
    ∃ left ≤ links, ∃ parent, fs.walk links true here todo =
      match left with
      | 0 => .error .tooManyLinks
      | left + 1 => fs.walk left true (start parent target) (steps target) := by
  -- both walks meet the same entries up to the last step, where only the second goes on
  induction h using walk_induction with
  | done links => cases hlast
  | last links here m h hdir hlen hend =>
    subst hend
    refine ⟨links, le_rfl, here, ?_⟩
    cases links with
    | zero => exact walk_into_link_zero hdir hlen hp rfl
    | succ left => rw [walk_into_link hdir hlen hp rfl, List.append_nil]
  | stay links here rest hdir h ih =>
    rw [walk_stay hdir]
    exact ih (getLast?_of_cons (by simp) hlast)
  | up links here rest hdir h ih =>
    rw [walk_up hdir]
    exact ih (getLast?_of_cons (by simp) hlast)
  | link left here m rest target' hdir hlen hnext hfollow h ih =>
    -- the first walk does not follow links at the end, so that this one is on the way
    have hrest : rest.getLast? = some (.into n) := by
      cases rest with
      | nil => cases hfollow
      | cons s r => exact hlast
    have hsteps : (steps target' ++ rest).getLast? = some (.into n) := by
      rw [List.getLast?_append, hrest]
      rfl
    obtain ⟨left', hle, parent, hwalk⟩ := ih hsteps
    refine ⟨left', by omega, parent, ?_⟩
    rw [walk_into_link hdir hlen hnext (by simp), hwalk]
  | into links here m rest e hdir hlen hnext he h ih =>
    cases rest with
    | nil =>
      -- the place is no link after all
      rw [← Except.ok.inj (walk_nil.symm.trans h), hnext] at hp
      exact absurd (Option.some.inj hp) (he target)
    | cons s r =>
      rw [walk_into_other hdir hlen hnext he]
      exact ih hlast

/-! ## Texts of links -/

/-- Whether a path asks for a directory, by a slash or a dot at its end. -/
def AsksForDir (t : Path) : Prop :=
  t.text.getLast? = some '/' ∨ t.segments.getLast? = some ['.']

/-- A path asks for a directory if its last step is a dot. -/
lemma asksForDir_iff (t : Path) : AsksForDir t ↔ (steps t.text).getLast? = some .stay := by
  have hsegment : (t.segments.map Step.ofSegment).getLast? = some .stay ↔
      t.segments.getLast? = some ['.'] := by
    rw [List.getLast?_map, Option.map_eq_some_iff]
    constructor
    · rintro ⟨s, hs, hstay⟩
      rw [Step.ofSegment] at hstay
      split_ifs at hstay with hdot
      rw [hs, hdot]
    · exact fun h => ⟨_, h, rfl⟩
  rw [AsksForDir, ← hsegment, steps]
  by_cases hslash : t.text.getLast? = some '/'
  · simp [hslash]
  · rw [if_neg hslash, List.append_nil]
    exact or_iff_right hslash

lemma filter_steps (t : Path) :
    (steps t.text).filter (· ≠ .stay) = t.moving.map Step.ofSegment := by
  have hofSegment : ∀ s, Step.ofSegment s ≠ .stay ↔ s ≠ ['.'] := by
    intro s
    rw [Step.ofSegment]
    split_ifs with hdot hdots <;> simp [hdot]
  have hend : (if t.text.getLast? = some '/' then [Step.stay] else []).filter (· ≠ .stay) = [] := by
    split_ifs <;> rfl
  rw [steps, List.filter_append, hend, List.append_nil, List.filter_map]
  refine congrArg (List.map _) (List.filter_congr fun s _ => ?_)
  exact decide_eq_decide.mpr (hofSegment s)

variable {cwd : Place} {link source target : Path}

lemma exists_of_readLink (h : fs.readLink cwd link = .ok target) :
    ∃ place, fs.locate cwd false link = .ok place ∧ fs.get? place = some (.link target.text) := by
  rw [readLink] at h
  rcases hf : fs.find cwd false link with e | ⟨place, e⟩
  · rw [hf] at h
    cases h
  · rw [hf] at h
    obtain ⟨hlocate, hget⟩ := find_eq_ok_iff.mp hf
    cases e with
    | dir => cases h
    | file content executable => cases h
    | link text =>
      obtain rfl := Except.ok.inj h
      exact ⟨place, hlocate, hget⟩

/-- A path that ends with a name leads on along the text of the link to which it leads. -/
lemma exists_locate_of_readLink {front name : Text} (hlink : link.text = front ++ '/' :: name)
    (hname : IsName name) (h : fs.readLink cwd link = .ok target) :
    ∃ left ≤ maxLinks, ∃ parent, fs.locate cwd true link =
      match left with
      | 0 => .error .tooManyLinks
      | left + 1 => fs.walk left true (start parent target.text) (steps target.text) := by
  obtain ⟨place, hlocate, hget⟩ := exists_of_readLink h
  obtain ⟨-, -, -, hwalk⟩ := walk_of_locate hlocate
  have hlast : (steps link.text).getLast? = some (.into (.text name)) :=
    hlink ▸ getLast?_steps hname
  obtain ⟨left, hle, parent, hto⟩ := exists_walk_of_link hlast hwalk hget
  refine ⟨left, hle, parent, ?_⟩
  rw [locate_eq_walk hlocate, hto]

/-! ## Texts that are accepted -/

/-- Every link has a text that the operating system takes: no other link can be made. -/
def LinksAccepted (fs : FileSystem) : Prop :=
  ∀ (p : Place) (text : Text), fs.get? p = some (.link text) → linkText ⟨text⟩ = .ok text

lemma linksAccepted_of_entries
    (h : ∀ e ∈ fs.entries, ∀ text, e.2 = .link text → linkText ⟨text⟩ = .ok text) :
    fs.LinksAccepted := by
  intro p text hget
  rw [get?] at hget
  split_ifs at hget
  · cases hget
  · obtain ⟨e, he, htext⟩ := Option.map_eq_some_iff.mp hget
    exact h e (List.mem_of_find?_eq_some he) text htext

/-- Making a link adds none with a text that is not accepted, -/
lemma LinksAccepted.makeLink {fs' : FileSystem} {p : Path} (h : fs.LinksAccepted)
    (hmake : fs.makeLink cwd target p = .ok fs') : fs'.LinksAccepted := by
  obtain ⟨haccepted, place, -, hnone, rfl⟩ := exists_of_makeLink hmake
  have hne : place ≠ [] := by
    rintro rfl
    cases (get?_root fs).symm.trans hnone
  intro q text hget
  rw [get?_put fs hne] at hget
  split_ifs at hget
  · rw [← Entry.link.inj (Option.some.inj hget)]
    exact haccepted
  · exact h q text hget

/-- and neither does removing something. -/
lemma LinksAccepted.remove {fs' : FileSystem} {p : Path} (h : fs.LinksAccepted)
    (hremove : fs.remove cwd p = .ok fs') : fs'.LinksAccepted := by
  rw [FileSystem.remove] at hremove
  rcases hf : fs.find cwd false p with f | ⟨place, e⟩
  · rw [hf] at hremove
    cases hremove
  · rw [hf] at hremove
    obtain ⟨-, hat⟩ := find_eq_ok_iff.mp hf
    -- what is removed is no directory, and so it is not the root
    have hne : e ≠ .dir := by
      rintro rfl
      cases hremove
    have hplace : place ≠ [] := by
      rintro rfl
      exact hne (Option.some.inj (hat.symm.trans (get?_root fs)))
    obtain rfl : fs.clear place = fs' := by
      cases e with
      | dir => exact absurd rfl hne
      | file content executable => exact Except.ok.inj hremove
      | link text => exact Except.ok.inj hremove
    intro q text hget
    rw [get?_clear fs hplace] at hget
    split_ifs at hget
    exact h q text hget

/-! ## Reading through a link -/

/-- From the root, a path put together from moving segments takes one step for each. -/
lemma walk_ofNames {names : List Text} (hnames : ∀ n ∈ names, IsMoving n) :
    fs.walk links follow [] (steps (ofNames true names).text) =
      fs.walk links follow [] (names.map Step.ofSegment) := by
  by_cases hne : names = []
  · subst hne
    exact walk_stay (get?_root fs)
  · rw [steps_ofNames hne fun n hn => (hnames n hn).1]

/-- A path is located along the segments of another one with the same components, which the
operating system accepts. -/
lemma locate_ofNames {names : List Text} (haccepted : linkText target = .ok target.text)
    (habsolute : target.isAbsolute) (hmoving : target.moving = names) :
    fs.locate cwd true (ofNames true names) =
      fs.walk maxLinks true [] (names.map Step.ofSegment) := by
  subst hmoving
  obtain ⟨hnul, -, hshort⟩ := linkText_eq_ok_iff.mp haccepted
  have hempty : (ofNames true target.moving).text.isEmpty = false := rfl
  have hstart : start cwd (ofNames true target.moving).text = [] := rfl
  rw [locate, if_neg fun hmem => hnul (Path.mem_text_of_mem_ofNames habsolute hmem), hempty,
    if_neg Bool.false_ne_true,
    if_neg (Nat.not_le.mpr ((Path.byteLength_ofNames_le habsolute).trans_lt hshort)), hstart,
    walk_ofNames fun n hn => Path.isMoving_of_mem_moving hn]

/-- Through a link whose text has the components of a path in normal form, and asks for no
directory, one finds what one finds along the path, if the links do not run out. -/
theorem find_of_readLink {front name : Text} {names : List Text}
    (hlink : link.text = front ++ '/' :: name) (hname : IsName name)
    (h : fs.readLink cwd link = .ok target) (haccepted : linkText target = .ok target.text)
    (hnames : ∀ n ∈ names, IsMoving n) (hsame : target.same (ofNames true names))
    (hask : ¬ AsksForDir target) (hlinks : fs.locate cwd true link ≠ .error .tooManyLinks) :
    fs.find cwd true link = fs.find cwd true (ofNames true names) := by
  obtain ⟨habsolute, hmoving⟩ := (Path.same_iff_of_isAbsolute rfl).mp hsame
  rw [Path.moving_ofNames hnames] at hmoving
  obtain ⟨left, hle, parent, hto⟩ := exists_locate_of_readLink hlink hname h
  cases left with
  | zero => exact absurd hto hlinks
  | succ left =>
    have hstart : start parent target.text = [] := by
      obtain ⟨r, hr⟩ := Path.exists_text_of_isAbsolute habsolute
      rw [hr]
      rfl
    have hpads : Pads (steps target.text) (names.map Step.ofSegment) := by
      rw [← hmoving, ← filter_steps]
      exact pads_filter fun hlast => hask ((asksForDir_iff target).mpr hlast)
    dsimp only at hto
    rw [hstart, walk_of_pads hpads] at hto
    have hlocate : fs.locate cwd true (ofNames true names) = fs.locate cwd true link := by
      rw [locate_ofNames haccepted habsolute hmoving, hto]
      -- the way through the link has one link less to follow from here on
      exact walk_of_le (by omega) (hto ▸ hlinks)
    rw [find, find, hlocate]

/-- Through a link whose text asks for a directory one finds no file. -/
theorem find_ne_file_of_asksForDir {front name : Text} (hlink : link.text = front ++ '/' :: name)
    (hname : IsName name) (h : fs.readLink cwd link = .ok target) (hask : AsksForDir target)
    (place : Place) (content : Bytes) (executable : Bool) :
    fs.find cwd true link ≠ .ok (place, .file content executable) := by
  intro hfile
  obtain ⟨hlocate, hget⟩ := find_eq_ok_iff.mp hfile
  obtain ⟨left, -, parent, hto⟩ := exists_locate_of_readLink hlink hname h
  rw [hlocate] at hto
  cases left with
  | zero => cases hto
  | succ left => cases hget.symm.trans (isDir_of_walk ((asksForDir_iff target).mp hask) hto.symm)

end Caretaker.FileSystem

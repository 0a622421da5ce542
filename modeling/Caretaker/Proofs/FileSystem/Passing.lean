import Caretaker.Proofs.FileSystem.Canonical
import Caretaker.Proofs.FileSystem.Following

/-!
# Entries on the way

A walk comes through the entries on its way. It does not notice a change to an entry that it does
not meet. Where an entry that it meets is gone, it ends right there or fails; and where a link stands
instead from which one comes to the same place again, it goes round until the links run out.
-/

namespace Caretaker.FileSystem

open Caretaker.Path (IsName isAbsolute_join)

variable {fs fs' : FileSystem} {links : ℕ} {follow : Bool} {p q here : Place}
  {todo todo' rest : List Step} {n : EntryName}

/-! ## Meeting an entry -/

/-- A walk that follows all links comes to a place: it is to go there from a directory. -/
inductive Meets (fs : FileSystem) (p : Place) : ℕ → Place → List Step → Prop where
  | here {links : ℕ} {here : Place} {n : EntryName} {rest : List Step}
      (hdir : fs.get? here = some .dir) (hlen : ¬ maxName < n.byteLength) (hp : here ++ [n] = p) :
      Meets fs p links here (.into n :: rest)
  | stay {links : ℕ} {here : Place} {rest : List Step} (hdir : fs.get? here = some .dir)
      (hrest : Meets fs p links here rest) : Meets fs p links here (.stay :: rest)
  | up {links : ℕ} {here : Place} {rest : List Step} (hdir : fs.get? here = some .dir)
      (hrest : Meets fs p links here.dropLast rest) : Meets fs p links here (.up :: rest)
  | into {links : ℕ} {here : Place} {n : EntryName} {rest : List Step} {e : Entry}
      (hdir : fs.get? here = some .dir) (hlen : ¬ maxName < n.byteLength)
      (hnext : fs.get? (here ++ [n]) = some e) (he : ∀ target, e ≠ .link target)
      (hrest : Meets fs p links (here ++ [n]) rest) : Meets fs p links here (.into n :: rest)
  | through {links : ℕ} {here : Place} {n : EntryName} {rest : List Step} {target : Text}
      (hdir : fs.get? here = some .dir) (hlen : ¬ maxName < n.byteLength)
      (hnext : fs.get? (here ++ [n]) = some (.link target))
      (hrest : Meets fs p links (start here target) (steps target ++ rest)) :
      Meets fs p (links + 1) here (.into n :: rest)

/-- What is met on the way is met whatever is to follow. -/
lemma Meets.append (h : Meets fs p links here todo) (more : List Step) :
    Meets fs p links here (todo ++ more) := by
  induction h with
  | here hdir hlen hp => exact .here hdir hlen hp
  | stay hdir _ ih => exact .stay hdir ih
  | up hdir _ ih => exact .up hdir ih
  | into hdir hlen hnext he _ ih => exact .into hdir hlen hnext he ih
  | through hdir hlen hnext _ ih =>
    rw [List.append_assoc] at ih
    exact .through hdir hlen hnext ih

/-- Staying on the way leads past the same places. -/
lemma Meets.of_pads (hpads : Pads todo todo') (h : Meets fs p links here todo) :
    Meets fs p links here todo' := by
  induction h generalizing todo' with
  | here hdir hlen hend =>
    obtain ⟨r, rfl, -⟩ := hpads.exists_into
    exact .here hdir hlen hend
  | stay hdir _ ih =>
    cases hpads with
    | stay hpads hne => exact ih hpads
    | step s hpads => exact .stay hdir (ih hpads)
  | up hdir _ ih =>
    cases hpads with
    | step s hpads => exact .up hdir (ih hpads)
  | into hdir hlen hnext he _ ih =>
    obtain ⟨r, rfl, hrest⟩ := hpads.exists_into
    exact .into hdir hlen hnext he (ih hrest)
  | through hdir hlen hnext _ ih =>
    obtain ⟨r, rfl, hrest⟩ := hpads.exists_into
    exact .through hdir hlen hnext (ih (hrest.append_left _))

/-! ## A change on the way -/

/-- A way to a place is one whatever becomes of the place. -/
theorem Meets.of_agreeOff (hagree : AgreeOff p fs fs') (hp : fs.get? p ≠ some .dir)
    (h : Meets fs p links here todo) : Meets fs' p links here todo := by
  induction h with
  | here hdir hlen hend => exact .here (hagree.get?_dir hp hdir) hlen hend
  | stay hdir _ ih => exact .stay (hagree.get?_dir hp hdir) ih
  | up hdir _ ih => exact .up (hagree.get?_dir hp hdir) ih
  | @into links here n rest e hdir hlen hnext he _ ih =>
    by_cases heq : here ++ [n] = p
    · exact .here (hagree.get?_dir hp hdir) hlen heq
    · exact .into (hagree.get?_dir hp hdir) hlen ((hagree _ heq).trans hnext) he ih
  | @through links here n rest target hdir hlen hnext _ ih =>
    by_cases heq : here ++ [n] = p
    · exact .here (hagree.get?_dir hp hdir) hlen heq
    · exact .through (hagree.get?_dir hp hdir) hlen ((hagree _ heq).trans hnext) ih

/-- What a walk does not meet can be changed, if no walk can stand there. -/
lemma walk_of_not_meets (hagree : AgreeOff p fs fs') (hp : fs.get? p ≠ some .dir)
    (hmeets : ¬ Meets fs p links here todo) (h : fs.walk links true here todo = .ok q) :
    fs'.walk links true here todo = .ok q := by
  have hkept : ∀ {links : ℕ} {here : Place} {n : EntryName} {rest : List Step},
      ¬ Meets fs p links here (.into n :: rest) → fs.get? here = some .dir →
      ¬ maxName < n.byteLength → fs'.get? (here ++ [n]) = fs.get? (here ++ [n]) :=
    fun hmeets hdir hlen => hagree _ fun heq => hmeets (.here hdir hlen heq)
  induction h using walk_induction with
  | done links => exact walk_nil
  | last links here n h hdir hlen hend hnolink =>
    rw [walk_into_last (hagree.get?_dir hp hdir) hlen fun hfollow => ?_, hend]
    rw [hkept hmeets hdir hlen, hend]
    exact hnolink hfollow
  | stay links here rest hdir h ih =>
    rw [walk_stay (hagree.get?_dir hp hdir), ih fun hm => hmeets (.stay hdir hm)]
  | up links here rest hdir h ih =>
    rw [walk_up (hagree.get?_dir hp hdir), ih fun hm => hmeets (.up hdir hm)]
  | link left here n rest target hdir hlen hnext hfollow h ih =>
    rw [walk_into_link (hagree.get?_dir hp hdir) hlen ((hkept hmeets hdir hlen).trans hnext) hfollow,
      ih fun hm => hmeets (.through hdir hlen hnext hm)]
  | into links here n rest e hdir hlen hnext he h ih =>
    rw [walk_into_other (hagree.get?_dir hp hdir) hlen ((hkept hmeets hdir hlen).trans hnext) he,
      ih fun hm => hmeets (.into hdir hlen hnext he hm)]

/-! ## An entry that is gone -/

lemma walk_into_gone (hdir : fs.get? here = some .dir) (hlen : ¬ maxName < n.byteLength)
    (hgone : fs.get? (here ++ [n]) = none) :
    fs.walk links follow here (.into n :: rest) = .ok (here ++ [n]) ∨
      fs.walk links follow here (.into n :: rest) = .error .noEntry := by
  by_cases hrest : rest = []
  · subst hrest
    refine Or.inl (walk_into_last hdir hlen fun _ target ht => ?_)
    cases hgone.symm.trans ht
  · exact Or.inr (walk_into_none hdir hlen hgone hrest)

/-- Where an entry is gone, a walk goes as before, or it ends there, or it fails. -/
lemma walk_of_gone (hagree : AgreeOff p fs fs') (hgone : fs'.get? p = none) :
    fs'.walk links follow here todo = fs.walk links follow here todo ∨
      fs'.walk links follow here todo = .ok p ∨
        fs'.walk links follow here todo = .error .noEntry := by
  -- what the walk still finds is not the entry that is gone, so that it has been there before
  have hseen : ∀ {q e}, fs'.get? q = some e → fs.get? q = some e := by
    intro q e hq
    have hne : q ≠ p := by
      rintro rfl
      cases hgone.symm.trans hq
    rw [← hagree q hne, hq]
  fun_induction walk fs' links follow here todo with
  | case1 => exact Or.inl walk_nil.symm
  | case2 => exact Or.inr (Or.inr rfl)
  | case3 links here s rest content executable hfile =>
    exact Or.inl (walk_of_not_dir (hseen hfile) (by simp)).symm
  | case4 links here s rest target hlink =>
    exact Or.inl (walk_of_not_dir (hseen hlink) (by simp)).symm
  | case5 links here rest hdir ih =>
    rw [walk_stay (hseen hdir)]
    exact ih
  | case6 links here rest hdir ih =>
    rw [walk_up (hseen hdir)]
    exact ih
  | case7 links here rest hdir n hlen => exact Or.inl (walk_into_long (hseen hdir) hlen).symm
  | case8 links here rest hdir n hlen next hnext hlast =>
    by_cases hne : next = p
    · exact Or.inr (Or.inl (by rw [hne]))
    · rw [List.isEmpty_iff.mp hlast]
      refine Or.inl (walk_into_last (hseen hdir) hlen fun _ target ht => ?_).symm
      cases ((hagree next hne).trans ht).symm.trans hnext
  | case9 => exact Or.inr (Or.inr rfl)
  | case10 links here rest hdir n hlen next target hnext hlast =>
    simp only [Bool.and_eq_true, List.isEmpty_iff, Bool.not_eq_true'] at hlast
    rw [hlast.1, hlast.2]
    exact Or.inl (walk_into_last (hseen hdir) hlen fun hf => absurd hf Bool.false_ne_true).symm
  | case11 here rest hdir n hlen next target hnext hlast =>
    exact Or.inl (walk_into_link_zero (hseen hdir) hlen (hseen hnext) (by simpa using hlast)).symm
  | case12 here rest hdir n hlen next target hnext hlast left ih =>
    rw [walk_into_link (hseen hdir) hlen (hseen hnext) (by simpa using hlast)]
    exact ih
  | case13 links here rest hdir n hlen next e hlink hnext ih =>
    rw [walk_into_other (hseen hdir) hlen (hseen hnext) fun target heq => hlink target heq]
    exact ih

/-- A walk that meets the entry that is gone comes no further. -/
lemma walk_of_meets_gone (hagree : AgreeOff p fs fs') (hgone : fs'.get? p = none)
    (h : Meets fs p links here todo) : fs'.walk links true here todo = .ok p ∨
      fs'.walk links true here todo = .error .noEntry := by
  -- wherever the walk stands, it stands in the directory that it found, or the place is the one
  have hstand : ∀ {here : Place}, fs.get? here = some .dir →
      fs'.get? here = none ∨ fs'.get? here = some .dir := by
    intro here hdir
    by_cases heq : here = p
    · exact Or.inl (heq ▸ hgone)
    · exact Or.inr ((hagree here heq).trans hdir)
  have hinto : ∀ {links : ℕ} {here : Place} {n : EntryName} {rest : List Step},
      fs'.get? here = some .dir → ¬ maxName < n.byteLength → here ++ [n] = p →
      fs'.walk links true here (.into n :: rest) = .ok p ∨
        fs'.walk links true here (.into n :: rest) = .error .noEntry := by
    rintro links here n rest hdir hlen rfl
    exact walk_into_gone hdir hlen hgone
  induction h with
  | here hdir hlen hp =>
    rcases hstand hdir with hnone | hdir'
    · exact Or.inr (walk_of_none hnone)
    · exact hinto hdir' hlen hp
  | stay hdir _ ih =>
    rcases hstand hdir with hnone | hdir'
    · exact Or.inr (walk_of_none hnone)
    · rwa [walk_stay hdir']
  | up hdir _ ih =>
    rcases hstand hdir with hnone | hdir'
    · exact Or.inr (walk_of_none hnone)
    · rwa [walk_up hdir']
  | @into links here n rest e hdir hlen hnext he _ ih =>
    rcases hstand hdir with hnone | hdir'
    · exact Or.inr (walk_of_none hnone)
    by_cases heq : here ++ [n] = p
    · exact hinto hdir' hlen heq
    · rwa [walk_into_other hdir' hlen ((hagree _ heq).trans hnext) he]
  | @through links here n rest target hdir hlen hnext _ ih =>
    rcases hstand hdir with hnone | hdir'
    · exact Or.inr (walk_of_none hnone)
    by_cases heq : here ++ [n] = p
    · exact hinto hdir' hlen heq
    · rwa [walk_into_link hdir' hlen ((hagree _ heq).trans hnext) (by simp)]

/-! ## A link back to the entry -/

/-- A walk that meets a link from which it comes to the same link again goes round until the links
run out. -/
lemma walk_of_meets_loop {target : Text} {most : ℕ} (hagree : AgreeOff p fs fs')
    (hp : fs.get? p ≠ some .dir) (hlink : fs'.get? p = some (.link target))
    (hroot : target.head? = some '/') (hback : Meets fs p most [] (steps target))
    (h : Meets fs p links here todo) (left : ℕ) :
    fs'.walk left true here todo = .error .tooManyLinks := by
  -- the induction is on the links that are left: each one on the way takes one of them
  induction left using Nat.strong_induction_on generalizing links here todo with
  | _ left ihleft =>
  have hthrough : ∀ {here : Place} {n : EntryName} {rest : List Step} {text : Text},
      fs.get? here = some .dir → ¬ maxName < n.byteLength →
      fs'.get? (here ++ [n]) = some (.link text) →
      (∀ k < left, fs'.walk k true (start here text) (steps text ++ rest) =
        .error .tooManyLinks) →
      fs'.walk left true here (.into n :: rest) = .error .tooManyLinks := by
    intro here n rest text hdir hlen hnext hgo
    cases left with
    | zero => exact walk_into_link_zero (hagree.get?_dir hp hdir) hlen hnext (by simp)
    | succ left =>
      rw [walk_into_link (hagree.get?_dir hp hdir) hlen hnext (by simp)]
      exact hgo left (Nat.lt_succ_self left)
  have hround : ∀ {here : Place} {n : EntryName} {rest : List Step}, fs.get? here = some .dir →
      ¬ maxName < n.byteLength → here ++ [n] = p →
      fs'.walk left true here (.into n :: rest) = .error .tooManyLinks := by
    rintro here n rest hdir hlen rfl
    refine hthrough hdir hlen hlink fun k hk => ?_
    rw [start, if_pos hroot]
    exact ihleft k hk (hback.append rest)
  induction h with
  | here hdir hlen hp => exact hround hdir hlen hp
  | stay hdir _ ih => rwa [walk_stay (hagree.get?_dir hp hdir)]
  | up hdir _ ih => rwa [walk_up (hagree.get?_dir hp hdir)]
  | @into links here n rest e hdir hlen hnext he _ ih =>
    by_cases heq : here ++ [n] = p
    · exact hround hdir hlen heq
    · rwa [walk_into_other (hagree.get?_dir hp hdir) hlen ((hagree _ heq).trans hnext) he]
  | @through links here n rest text hdir hlen hnext hrest _ =>
    by_cases heq : here ++ [n] = p
    · exact hround hdir hlen heq
    · exact hthrough hdir hlen ((hagree _ heq).trans hnext) fun k hk => ihleft k hk hrest

/-! ## Paths that pass an entry -/

/-- The way along a path passes a place, when all links are followed. -/
def Passes (fs : FileSystem) (cwd : Place) (path : Path) (p : Place) : Prop :=
  Meets fs p maxLinks (start cwd path.text) (steps path.text)

variable {cwd : Place} {path root : Path} {name : Text}

/-- A path that does not pass a place leads where it did, whatever becomes of the place. -/
theorem locate_of_not_passes (hagree : AgreeOff p fs fs') (hp : fs.get? p ≠ some .dir)
    (hpasses : ¬ Passes fs cwd path p) (h : fs.locate cwd true path = .ok q) :
    fs'.locate cwd true path = .ok q := by
  obtain ⟨-, -, -, hwalk⟩ := walk_of_locate h
  rw [locate_eq_walk h]
  exact walk_of_not_meets hagree hp hpasses hwalk

lemma isDir_of_not_passes (hagree : AgreeOff p fs fs') (hp : fs.get? p ≠ some .dir)
    (hpasses : ¬ Passes fs cwd path p) (h : fs.isDir cwd path) : fs'.isDir cwd path := by
  obtain ⟨place, hplace, hdir⟩ := exists_locate_of_isDir h
  have hne : place ≠ p := by
    rintro rfl
    exact hp hdir
  have hplace' := locate_of_not_passes hagree hp hpasses hplace
  have hdir' := (hagree place hne).trans hdir
  rw [FileSystem.isDir, find_eq_ok_iff.mpr ⟨hplace', hdir'⟩]

/-- Whether a path leads to a directory does not depend on an entry that it does not pass. -/
lemma isDir_eq_of_not_passes (hagree : AgreeOff p fs fs') (hp : fs.get? p ≠ some .dir)
    (hp' : fs'.get? p ≠ some .dir) (hpasses : ¬ Passes fs cwd path p) :
    fs'.isDir cwd path = fs.isDir cwd path := by
  have hpasses' : ¬ Passes fs' cwd path p := fun h => hpasses (h.of_agreeOff hagree.symm hp')
  rw [Bool.eq_iff_iff]
  exact ⟨isDir_of_not_passes hagree.symm hp' hpasses', isDir_of_not_passes hagree hp hpasses⟩

/-- A path that leads to an entry passes no place at which nothing stands. -/
lemma not_passes_of_none (hp : fs.get? p = none) {e : Entry}
    (h : fs.find cwd true path = .ok (q, e)) : ¬ Passes fs cwd path p := by
  intro hpasses
  obtain ⟨hlocate, hget⟩ := find_eq_ok_iff.mp h
  obtain ⟨-, -, -, hwalk⟩ := walk_of_locate hlocate
  rcases walk_of_meets_gone (AgreeOff.refl p fs) hp hpasses with hend | hfail
  · rw [Except.ok.inj (hwalk.symm.trans hend), hp] at hget
    cases hget
  · cases hwalk.symm.trans hfail

/-- Once an entry is gone, a path that led to it leads to it still, or nowhere. -/
theorem locate_of_gone (hagree : AgreeOff p fs fs') (hgone : fs'.get? p = none)
    (h : fs.locate cwd follow path = .ok p) :
    fs'.locate cwd follow path = .ok p ∨ fs'.locate cwd follow path = .error .noEntry := by
  obtain ⟨-, -, -, hwalk⟩ := walk_of_locate h
  rw [locate_eq_walk h]
  rcases walk_of_gone hagree hgone with hsame | hgone
  · exact Or.inl (hsame.trans hwalk)
  · exact hgone

/-- Names that spell a directory meet no place below it. -/
lemma Spells.length_le_of_meets {names done todo : List Text} (h : Spells fs names)
    (hnames : done ++ todo = names)
    (hmeets : Meets fs p links (done.map .text) (todo.map fun n => .into (.text n))) :
    p.length ≤ names.length := by
  induction todo generalizing done with
  | nil => cases hmeets
  | cons n todo ih =>
    have hdone : (done ++ [n]) ++ todo = names := by rw [← hnames, List.append_assoc]; rfl
    have hnext := h.dirs (done ++ [n]) ⟨todo, hdone⟩
    rw [List.map_append] at hnext
    cases hmeets with
    | here hdir hlen hp =>
      rw [← hp, ← hdone]
      simp
    | into hdir hlen hnext' he hrest =>
      refine ih hdone ?_
      rwa [List.map_append]
    | through hdir hlen hlink => cases hnext.symm.trans hlink

/-- The canonical path of a directory passes nothing but the directories above it. -/
lemma Spells.length_le_of_passes {names : List Text} (h : Spells fs names)
    (hpasses : Passes fs cwd (Path.ofNames true names) p) : p.length ≤ names.length := by
  by_cases hne : names = []
  · subst hne
    cases hpasses with
    | stay hdir hrest => cases hrest
  · have hstart : start cwd (Path.ofNames true names).text = [].map .text := rfl
    rw [Passes, hstart, steps_ofNames_of_isName hne h.isName] at hpasses
    exact h.length_le_of_meets rfl hpasses

/-! ## A path with one more name -/

/-- The last step of a walk that does not follow a link at its end takes no link. -/
lemma walk_into_of_not_follow (links : ℕ) :
    fs.walk links false here [.into n] = fs.walk 0 false here [.into n] := by
  rw [walk, walk]
  simp only [List.isEmpty_nil, Bool.not_false, Bool.and_self, if_true, walk_nil]

/-- A walk into one more name first goes where the walk without it leads, through every link. -/
lemma walk_concat_into : fs.walk links false here (todo ++ [.into n]) =
    fs.walk links true here todo >>= fun parent => fs.walk 0 false parent [.into n] := by
  generalize hfollow : true = follow
  fun_induction walk fs links follow here todo with
  | case1 links here => exact walk_into_of_not_follow links
  | case2 links here s rest hnone => exact walk_of_none hnone
  | case3 links here s rest content executable hfile => exact walk_of_not_dir hfile (by simp)
  | case4 links here s rest target hlink => exact walk_of_not_dir hlink (by simp)
  | case5 links here rest hdir ih => exact (walk_stay hdir).trans ih
  | case6 links here rest hdir ih => exact (walk_up hdir).trans ih
  | case7 links here rest hdir m hlen => exact walk_into_long hdir hlen
  | case8 links here rest hdir m hlen next hnext hlast =>
    rw [List.isEmpty_iff.mp hlast]
    -- the shorter walk ends at the missing name, and nothing leads on from there
    exact (walk_into_none hdir hlen hnext (by simp)).trans (walk_of_none hnext).symm
  | case9 links here rest hdir m hlen next hnext => exact walk_into_none hdir hlen hnext (by simp)
  | case10 links here rest hdir m hlen next target hnext hlast => simp [← hfollow] at hlast
  | case11 here rest hdir m hlen next target hnext =>
    exact walk_into_link_zero hdir hlen hnext (by simp)
  | case12 here rest hdir m hlen next target hnext hlast left ih =>
    rw [List.cons_append, walk_into_link hdir hlen hnext (by simp), ← List.append_assoc]
    exact ih
  | case13 links here rest hdir m hlen next e hlink hnext ih =>
    exact (walk_into_other hdir hlen hnext fun target heq => hlink target heq).trans ih

/-- Joined to a path, a name is one more step, except for staying in front of it. -/
lemma pads_steps_join (hne : root.text ≠ []) (hname : IsName name) :
    Pads (steps root.text ++ [.into (.text name)]) (steps (root.join name).text) := by
  have hhead : name.head? ≠ some '/' :=
    fun hc => hname.slash_not_mem (List.mem_of_mem_head? hc)
  rw [Path.join, if_neg hhead]
  by_cases hslash : root.text.getLast? = some '/'
  · obtain ⟨front, hfront⟩ := List.getLast?_eq_some_iff.mp hslash
    have hsegments : root.segments = Path.segments ⟨front⟩ := by
      have hcut : Path.splitSlashes root.text = Path.splitSlashes front ++ [[]] := by
        rw [hfront, Path.splitSlashes_append_slash]
        rfl
      rw [Path.segments, hcut, List.filter_append]
      exact List.append_nil _
    have hjoin : root.text ++ name = front ++ '/' :: name := by
      rw [hfront, List.append_assoc]
      rfl
    rw [if_pos (Or.inr hslash)]
    dsimp only
    -- the slash at the end of the root would be one more stay
    rw [hjoin, steps_append_slash hname, steps, if_pos hslash, ← hsegments, List.append_assoc]
    exact Pads.append_left (.stay (.step _ .nil) (by simp)) _
  · rw [if_neg (by simp [hne, hslash])]
    dsimp only
    rw [steps_append_slash hname, steps, if_neg hslash, List.append_nil]
    exact Pads.append_left (.step _ .nil) _

/-- A name in a directory is looked up where the path of the directory leads. -/
lemma locate_join (hne : root.text ≠ []) (hname : IsName name) (hnul : '\x00' ∉ name)
    (hshort : Text.byteLength (root.join name).text < maxPath) :
    fs.locate cwd false (root.join name) =
      fs.locate cwd true root >>= fun parent => fs.walk 0 false parent [.into (.text name)] := by
  obtain ⟨behind, hjoin, hbehind⟩ := root.exists_join_eq_append hname
  have hroot : Text.byteLength root.text < maxPath := by
    rw [hjoin, Path.byteLength_append] at hshort
    omega
  have hstart : start cwd (root.join name).text = start cwd root.text := by
    rw [start, start, hjoin, List.head?_append_of_ne_nil _ hne]
  have hroot' : ¬ root.text.isEmpty := by simpa using hne
  have hempty : ¬ (root.join name).text.isEmpty := by
    rw [hjoin]
    simp [hne]
  -- whatever is wrong with the longer path is wrong with the path of the directory
  have hmem : '\x00' ∈ (root.join name).text ↔ '\x00' ∈ root.text := by
    have hnot : '\x00' ∉ behind := by
      intro hc
      rcases hbehind _ hc with hslash | hc
      · exact absurd hslash (by decide)
      · exact hnul hc
    rw [hjoin, List.mem_append, or_iff_left hnot]
  rw [locate, locate]
  by_cases hc : '\x00' ∈ root.text
  · rw [if_pos (hmem.mpr hc), if_pos hc]
    rfl
  · rw [if_neg fun h => hc (hmem.mp h), if_neg hempty, if_neg (Nat.not_le.mpr hshort), if_neg hc,
      if_neg hroot', if_neg (Nat.not_le.mpr hroot), hstart,
      ← walk_of_pads (pads_steps_join hne hname)]
    exact walk_concat_into

/-- A directory that is reached through an entry is not reached any more once the entry is a link to
something in it. -/
lemma not_isDir_of_loop (hagree : AgreeOff p fs fs') (hp : fs.get? p ≠ some .dir)
    (habsolute : path.isAbsolute) (hname : IsName name)
    (hlink : fs'.get? p = some (.link (path.join name).text)) (hpasses : Passes fs cwd path p)
    (h : fs.isDir cwd path) : ¬ fs'.isDir cwd path := by
  obtain ⟨place, hplace, -⟩ := exists_locate_of_isDir h
  obtain ⟨-, hne, -, -⟩ := walk_of_locate hplace
  have hhead : path.text.head? = some '/' := beq_iff_eq.mp habsolute
  have hhead' : (path.join name).text.head? = some '/' :=
    beq_iff_eq.mp (isAbsolute_join habsolute name)
  have hstart : start cwd path.text = [] := by rw [start, if_pos hhead]
  have hmeets : Meets fs p maxLinks [] (steps path.text) := hstart ▸ hpasses
  have hback : Meets fs p maxLinks [] (steps (path.join name).text) :=
    (hmeets.append _).of_pads (pads_steps_join hne hname)
  have hloop : fs'.locate cwd true path = .error .tooManyLinks := by
    rw [locate_eq_walk hplace, hstart]
    exact walk_of_meets_loop hagree hp hlink hhead' hback hmeets maxLinks
  intro hdir
  obtain ⟨place', hplace', -⟩ := exists_locate_of_isDir hdir
  cases hloop.symm.trans hplace'

end Caretaker.FileSystem

import Caretaker.FileSystem.Calls
import Caretaker.Proofs.Path.Segments

/-!
# Walks along paths

Where a walk leads depends only on the entries that it meets. A walk from the root meets nothing but
directories above the place where it ends, so a change at that place alone leaves the walk as it is;
and a path without links in it leads to the place that its names spell.
-/

namespace Caretaker.FileSystem

open Caretaker.Path (IsName IsSegment ofNames)

/-! ## Steps of a path -/

lemma ofSegment_of_isName {t : Text} (h : IsName t) : Step.ofSegment t = .into (.text t) := by
  rw [Step.ofSegment, if_neg h.ne_dot, if_neg h.ne_dots]

/-- A walk along a path put together from segments takes a step for each of them. -/
lemma steps_ofNames {names : List Text} (hne : names ≠ []) (h : ∀ n ∈ names, IsSegment n) :
    steps (ofNames true names).text = names.map Step.ofSegment := by
  have hsegments : (Path.splitSlashes (ofNames true names).text).filter (!·.isEmpty) = names :=
    Path.segments_ofNames true h
  obtain ⟨c, hc, hslash⟩ := Path.getLast?_intercalate hne h
  have hlast : (ofNames true names).text.getLast? = some c := by
    simp only [ofNames, if_true, List.getLast?_append, hc]
    rfl
  rw [steps, hsegments, hlast, if_neg (by simp [hslash]), List.append_nil]

/-- A walk along a path of names goes into each of them. -/
lemma steps_ofNames_of_isName {names : List Text} (hne : names ≠ []) (h : ∀ n ∈ names, IsName n) :
    steps (ofNames true names).text = names.map fun n => .into (.text n) := by
  rw [steps_ofNames hne fun n hn => (h n hn).toIsSegment]
  exact List.map_congr_left fun n hn => ofSegment_of_isName (h n hn)

/-- Behind a slash, a name is one more step. -/
lemma steps_append_slash {front name : Text} (hname : IsName name) :
    steps (front ++ '/' :: name) =
      (Path.segments ⟨front⟩).map Step.ofSegment ++ [.into (.text name)] := by
  obtain ⟨c, hc⟩ : ∃ c, name.getLast? = some c :=
    ⟨_, List.getLast?_eq_some_getLast hname.ne_nil⟩
  have hslash : c ≠ '/' := by
    rintro rfl
    exact hname.slash_not_mem (List.mem_of_getLast? hc)
  have hlast : (front ++ '/' :: name).getLast? = some c := by
    rw [List.getLast?_append, List.getLast?_cons, hc]
    rfl
  have hfilter : [name].filter (!·.isEmpty) = [name] :=
    List.filter_cons_of_pos (by simpa using hname.ne_nil)
  rw [steps, hlast, if_neg (by simp [hslash]), List.append_nil, Path.splitSlashes_append_slash,
    Path.splitSlashes_of_not_mem hname.slash_not_mem, List.filter_append, hfilter, List.map_append,
    List.map_singleton, ofSegment_of_isName hname]
  rfl

/-- A path that ends with a name is walked into it last. -/
lemma getLast?_steps {front name : Text} (hname : IsName name) :
    (steps (front ++ '/' :: name)).getLast? = some (.into (.text name)) := by
  rw [steps_append_slash hname, List.getLast?_append]
  rfl

/-- Whatever text a path has, a walk along it goes into proper names only. -/
lemma isName_of_into_mem_steps {t : Text} {n : EntryName} (h : .into n ∈ steps t) :
    ∃ s, n = .text s ∧ IsName s := by
  rw [steps, List.mem_append] at h
  rcases h with h | h
  · obtain ⟨s, hs, heq⟩ := List.mem_map.mp h
    have hslash := Path.slash_not_mem_of_mem_segments (p := ⟨t⟩) hs
    have hne := Path.ne_nil_of_mem_segments (p := ⟨t⟩) hs
    by_cases hdot : s = ['.']
    · simp [Step.ofSegment, hdot] at heq
    · by_cases hdots : s = ['.', '.']
      · simp [Step.ofSegment, hdots] at heq
      · rw [Step.ofSegment, if_neg hdot, if_neg hdots, Step.into.injEq] at heq
        exact ⟨s, heq.symm, ⟨hne, hslash⟩, hdot, hdots⟩
  · split at h <;> simp at h

/-! ## Single steps -/

section
variable {fs : FileSystem} {links : ℕ} {follow : Bool} {here : Place} {rest : List Step}

lemma walk_nil : fs.walk links follow here [] = .ok here := by rw [walk]

/-- Nothing leads on from where nothing is, -/
lemma walk_of_none {s : Step} (h : fs.get? here = none) :
    fs.walk links follow here (s :: rest) = .error .noEntry := by
  cases s <;> rw [walk, h]

/-- and nothing but a directory can be left by a step. -/
lemma walk_of_not_dir {s : Step} {e : Entry} (h : fs.get? here = some e) (he : e ≠ .dir) :
    fs.walk links follow here (s :: rest) = .error .notDirectory := by
  cases e with
  | dir => exact absurd rfl he
  | file content executable => cases s <;> rw [walk, h]
  | link target => cases s <;> rw [walk, h]

/-- A dot stays in the directory, -/
lemma walk_stay (hdir : fs.get? here = some .dir) :
    fs.walk links follow here (.stay :: rest) = fs.walk links follow here rest := by
  rw [walk, hdir]

/-- and two dots lead to the one above. -/
lemma walk_up (hdir : fs.get? here = some .dir) :
    fs.walk links follow here (.up :: rest) = fs.walk links follow here.dropLast rest := by
  rw [walk, hdir]

lemma walk_into_long {n : EntryName} (hdir : fs.get? here = some .dir)
    (hlen : maxName < n.byteLength) :
    fs.walk links follow here (.into n :: rest) = .error .nameTooLong := by
  rw [walk, hdir]
  simp only [if_pos hlen]

/-- A name that is not there ends a walk, unless it is the last one. -/
lemma walk_into_none {n : EntryName} (hdir : fs.get? here = some .dir)
    (hlen : ¬ maxName < n.byteLength) (hnext : fs.get? (here ++ [n]) = none) (hrest : rest ≠ []) :
    fs.walk links follow here (.into n :: rest) = .error .noEntry := by
  rw [walk, hdir]
  simp only [if_neg hlen, hnext, List.isEmpty_iff, if_neg hrest]

/-- What is no link is entered. -/
lemma walk_into_other {n : EntryName} {e : Entry} (hdir : fs.get? here = some .dir)
    (hlen : ¬ maxName < n.byteLength) (hnext : fs.get? (here ++ [n]) = some e)
    (he : ∀ target, e ≠ .link target) :
    fs.walk links follow here (.into n :: rest) = fs.walk links follow (here ++ [n]) rest := by
  rw [walk, hdir]
  simp only [if_neg hlen, hnext]

/-- A link that is followed puts the steps of its text in front of the others, -/
lemma walk_into_link {n : EntryName} {target : Text} (hdir : fs.get? here = some .dir)
    (hlen : ¬ maxName < n.byteLength) (hnext : fs.get? (here ++ [n]) = some (.link target))
    (hfollow : (rest.isEmpty && !follow) = false) :
    fs.walk (links + 1) follow here (.into n :: rest) =
      fs.walk links follow (start here target) (steps target ++ rest) := by
  rw [walk, hdir]
  simp only [if_neg hlen, hnext, hfollow, Bool.false_eq_true, if_false]

/-- as long as links may be followed. -/
lemma walk_into_link_zero {n : EntryName} {target : Text} (hdir : fs.get? here = some .dir)
    (hlen : ¬ maxName < n.byteLength) (hnext : fs.get? (here ++ [n]) = some (.link target))
    (hfollow : (rest.isEmpty && !follow) = false) :
    fs.walk 0 follow here (.into n :: rest) = .error .tooManyLinks := by
  rw [walk, hdir]
  simp only [if_neg hlen, hnext, hfollow, Bool.false_eq_true, if_false]

/-- A walk to an entry in a directory reaches its place, whatever stands there, unless it is a link
that is to be followed. -/
lemma walk_into_last {n : EntryName} (hdir : fs.get? here = some .dir)
    (hlen : ¬ maxName < n.byteLength)
    (hnext : follow = true → ∀ target, fs.get? (here ++ [n]) ≠ some (.link target)) :
    fs.walk links follow here [.into n] = .ok (here ++ [n]) := by
  rw [walk, hdir]
  simp only [if_neg hlen]
  cases hn : fs.get? (here ++ [n]) with
  | none => rfl
  | some e =>
    cases e with
    | dir => exact walk_nil
    | file content executable => exact walk_nil
    | link target =>
      have hfollow : follow = false := by
        cases hf : follow with
        | false => rfl
        | true => exact absurd hn (hnext hf target)
      simp [hfollow]

/-- A walk that comes to an end takes one step after the other that leads on. The last name may be
that of nothing, or of a link that is not followed. -/
@[elab_as_elim]
lemma walk_induction {p : Place}
    {P : (links : ℕ) → (here : Place) → (todo : List Step) →
      fs.walk links follow here todo = .ok p → Prop}
    (done : ∀ links, P links p [] walk_nil)
    (last : ∀ links here n h, fs.get? here = some .dir → ¬ maxName < n.byteLength → here ++ [n] = p →
      (follow = true → ∀ target, fs.get? p ≠ some (.link target)) → P links here [.into n] h)
    (stay : ∀ links here rest (hdir : fs.get? here = some .dir)
      (h : fs.walk links follow here rest = .ok p),
      P links here rest h → P links here (.stay :: rest) ((walk_stay hdir).trans h))
    (up : ∀ links here rest (hdir : fs.get? here = some .dir)
      (h : fs.walk links follow here.dropLast rest = .ok p),
      P links here.dropLast rest h → P links here (.up :: rest) ((walk_up hdir).trans h))
    (link : ∀ left here n rest target (hdir : fs.get? here = some .dir)
      (hlen : ¬ maxName < n.byteLength) (hnext : fs.get? (here ++ [n]) = some (.link target))
      (hfollow : (rest.isEmpty && !follow) = false)
      (h : fs.walk left follow (start here target) (steps target ++ rest) = .ok p),
      P left (start here target) (steps target ++ rest) h →
        P (left + 1) here (.into n :: rest) ((walk_into_link hdir hlen hnext hfollow).trans h))
    (into : ∀ links here n rest e (hdir : fs.get? here = some .dir)
      (hlen : ¬ maxName < n.byteLength) (hnext : fs.get? (here ++ [n]) = some e)
      (he : ∀ target, e ≠ .link target) (h : fs.walk links follow (here ++ [n]) rest = .ok p),
      P links (here ++ [n]) rest h →
        P links here (.into n :: rest) ((walk_into_other hdir hlen hnext he).trans h))
    {todo : List Step} (h : fs.walk links follow here todo = .ok p) : P links here todo h := by
  fun_induction walk fs links follow here todo with
  | case1 links here =>
    obtain rfl := Except.ok.inj (walk_nil.symm.trans h)
    exact done links
  | case2 links here s rest hnone => cases (walk_of_none hnone).symm.trans h
  | case3 links here s rest content executable hfile =>
    cases (walk_of_not_dir hfile (by simp)).symm.trans h
  | case4 links here s rest target hlink => cases (walk_of_not_dir hlink (by simp)).symm.trans h
  | case5 links here rest hdir ih =>
    have hrest := (walk_stay hdir).symm.trans h
    exact stay links here rest hdir hrest (ih hrest)
  | case6 links here rest hdir ih =>
    have hrest := (walk_up hdir).symm.trans h
    exact up links here rest hdir hrest (ih hrest)
  | case7 links here rest hdir n hlen => cases (walk_into_long hdir hlen).symm.trans h
  | case8 links here rest hdir n hlen next hnext hempty =>
    obtain rfl := List.isEmpty_iff.mp hempty
    have hnolink : ∀ target, fs.get? next ≠ some (.link target) := by
      intro target ht
      cases hnext.symm.trans ht
    obtain rfl := Except.ok.inj ((walk_into_last hdir hlen fun _ => hnolink).symm.trans h)
    exact last links here n h hdir hlen rfl fun _ => hnolink
  | case9 links here rest hdir n hlen next hnext hempty =>
    cases (walk_into_none hdir hlen hnext (by simpa using hempty)).symm.trans h
  | case10 links here rest hdir n hlen next target hnext hempty =>
    simp only [Bool.and_eq_true, List.isEmpty_iff, Bool.not_eq_true'] at hempty
    obtain ⟨rfl, rfl⟩ := hempty
    have hnolink : false = true → ∀ target, fs.get? next ≠ some (.link target) :=
      fun hf => absurd hf Bool.false_ne_true
    obtain rfl := Except.ok.inj ((walk_into_last hdir hlen hnolink).symm.trans h)
    exact last links here n h hdir hlen rfl hnolink
  | case11 here rest hdir n hlen next target hnext hempty =>
    cases (walk_into_link_zero hdir hlen hnext (by simpa using hempty)).symm.trans h
  | case12 here rest hdir n hlen next target hnext hempty left ih =>
    have hfollow : (rest.isEmpty && !follow) = false := by simpa using hempty
    have hrest := (walk_into_link hdir hlen hnext hfollow).symm.trans h
    exact link left here n rest target hdir hlen hnext hfollow hrest (ih hrest)
  | case13 links here rest hdir n hlen next e hlink hnext ih =>
    have he : ∀ target, e ≠ .link target := fun target heq => hlink target heq
    have hrest := (walk_into_other hdir hlen hnext he).symm.trans h
    exact into links here n rest e hdir hlen hnext he hrest (ih hrest)

end

/-! ## File systems that differ at one place -/

/-- Both file systems show the same everywhere but at one place. -/
def AgreeOff (p : Place) (fs fs' : FileSystem) : Prop := ∀ q, q ≠ p → fs'.get? q = fs.get? q

lemma AgreeOff.refl (p : Place) (fs : FileSystem) : AgreeOff p fs fs := fun _ _ => rfl

lemma AgreeOff.symm {p : Place} {fs fs' : FileSystem} (h : AgreeOff p fs fs') :
    AgreeOff p fs' fs := fun q hq => (h q hq).symm

lemma agreeOff_put {p : Place} (hp : p ≠ []) (fs : FileSystem) (e : Entry) :
    AgreeOff p fs (fs.put p e) := fun q hq => by rw [get?_put fs hp, if_neg hq.symm]

lemma agreeOff_clear {p : Place} (hp : p ≠ []) (fs : FileSystem) : AgreeOff p fs (fs.clear p) :=
  fun q hq => by rw [get?_clear fs hp, if_neg hq.symm]

/-- If no directory stands at the one place, every directory stays. -/
lemma AgreeOff.get?_dir {fs fs' : FileSystem} {p q : Place} (h : AgreeOff p fs fs')
    (hp : fs.get? p ≠ some .dir) (hq : fs.get? q = some .dir) : fs'.get? q = some .dir := by
  have hne : q ≠ p := by
    rintro rfl
    exact hp hq
  rw [h q hne, hq]

/-- Only a directory stands at the root. -/
lemma ne_nil_of_get? {fs : FileSystem} {p : Place} {e : Entry} (h : fs.get? p = some e)
    (he : e ≠ .dir) : p ≠ [] := by
  rintro rfl
  exact he (Option.some.inj (h.symm.trans (get?_root fs)))

lemma get?_clear_self {fs : FileSystem} {p : Place} {e : Entry} (h : fs.get? p = some e)
    (he : e ≠ .dir) : (fs.clear p).get? p = none := by
  rw [get?_clear fs (ne_nil_of_get? h he), if_pos rfl]

lemma put_clear (fs : FileSystem) (p : Place) (e : Entry) :
    (fs.clear p).put p e = fs.put p e := by
  rw [put, put, clear]
  simp only [List.filter_filter, Bool.and_self]

/-! ## What a walk meets -/

/-- A walk that ends where nothing stands goes the same way once something stands there. -/
theorem walk_of_agree {fs fs' : FileSystem} {p : Place} (hp : fs.get? p = none)
    (hagree : AgreeOff p fs fs') {links : ℕ} {here : Place} {todo : List Step}
    (h : fs.walk links false here todo = .ok p) : fs'.walk links false here todo = .ok p := by
  -- whatever the walk finds an entry at is not `p`, so both file systems show the same there
  have hseen : ∀ {q e}, fs.get? q = some e → fs'.get? q = some e := by
    intro q e hq
    rw [hagree q fun heq => by simp [heq, hp] at hq, hq]
  induction h using walk_induction with
  | done links => exact walk_nil
  | last links here n h hdir hlen hend =>
    rw [walk_into_last (hseen hdir) hlen fun hf => absurd hf Bool.false_ne_true, hend]
  | stay links here rest hdir h ih => rw [walk_stay (hseen hdir), ih]
  | up links here rest hdir h ih => rw [walk_up (hseen hdir), ih]
  | link left here n rest target hdir hlen hnext hfollow h ih =>
    rw [walk_into_link (hseen hdir) hlen (hseen hnext) hfollow, ih]
  | into links here n rest e hdir hlen hnext he h ih =>
    rw [walk_into_other (hseen hdir) hlen (hseen hnext) he, ih]

/-- Where a walk ends at something else than a link, it makes no difference whether links are followed
there. -/
lemma walk_of_not_link {fs : FileSystem} {links : ℕ} {here p : Place} {todo : List Step}
    (h : fs.walk links false here todo = .ok p)
    (hp : ∀ target, fs.get? p ≠ some (.link target)) : fs.walk links true here todo = .ok p := by
  induction h using walk_induction with
  | done links => exact walk_nil
  | last links here n h hdir hlen hend => rw [walk_into_last hdir hlen fun _ => hend ▸ hp, hend]
  | stay links here rest hdir h ih => rw [walk_stay hdir, ih]
  | up links here rest hdir h ih => rw [walk_up hdir, ih]
  | link left here n rest target hdir hlen hnext hfollow h ih =>
    rw [walk_into_link hdir hlen hnext (by simp), ih]
  | into links here n rest e hdir hlen hnext he h ih => rw [walk_into_other hdir hlen hnext he, ih]

/-! ## What stands above a place -/

/-- A place as a walk from the root reaches it: by proper names, through directories alone. -/
structure Reached (fs : FileSystem) (p : Place) : Prop where
  names : ∀ n ∈ p, ∃ t, n = .text t ∧ IsName t ∧ Text.byteLength t ≤ maxName
  above : ∀ q, q <+: p → q ≠ p → fs.get? q = some .dir

lemma reached_root (fs : FileSystem) : Reached fs [] where
  names _ hn := absurd hn List.not_mem_nil
  above _ hq hne := absurd (List.prefix_nil.mp hq) hne

lemma Reached.dropLast {fs : FileSystem} {p : Place} (h : Reached fs p) :
    Reached fs p.dropLast where
  names n hn := h.names n (List.dropLast_subset p hn)
  above q hq hne := by
    refine h.above q (hq.trans (List.dropLast_prefix p)) fun heq => hne ?_
    have hlen := hq.length_le
    rw [heq, List.length_dropLast] at hlen
    -- only the root is its own parent
    have hnil : p = [] := List.length_eq_zero_iff.mp (by omega)
    rw [heq, hnil, List.dropLast_nil]

lemma Reached.snoc {fs : FileSystem} {p : Place} {t : Text} (h : Reached fs p)
    (hdir : fs.get? p = some .dir) (ht : IsName t) (hlen : Text.byteLength t ≤ maxName) :
    Reached fs (p ++ [.text t]) where
  names n hn := by
    rcases List.mem_append.mp hn with hp | hs
    · exact h.names n hp
    · exact ⟨t, List.mem_singleton.mp hs, ht, hlen⟩
  above q hq hne := by
    rcases List.prefix_concat_iff.mp hq with heq | hp
    · exact absurd heq hne
    · by_cases heq : q = p
      · rw [heq, hdir]
      · exact h.above q hp heq

/-- Where a link leads from is the root again, or the directory that holds it. -/
lemma Reached.start {fs : FileSystem} {p : Place} (h : Reached fs p) (t : Text) :
    Reached fs (start p t) := by
  rw [FileSystem.start]
  split
  · exact reached_root fs
  · exact h

/-- Every walk from the root ends below directories alone, however many links it follows. -/
theorem reached_of_walk {fs : FileSystem} {links : ℕ} {follow : Bool} {here p : Place}
    {todo : List Step} (hhere : Reached fs here)
    (htodo : ∀ n, .into n ∈ todo → ∃ t, n = .text t ∧ IsName t)
    (h : fs.walk links follow here todo = .ok p) : Reached fs p := by
  -- the invariant is that the walk stands below directories and has proper names before it
  have hstep : ∀ {here : Place} {n : EntryName} {rest : List Step}, Reached fs here →
      fs.get? here = some .dir → ¬ maxName < n.byteLength →
      (∀ m, .into m ∈ .into n :: rest → ∃ t, m = .text t ∧ IsName t) →
      Reached fs (here ++ [n]) := by
    intro here n rest hhere hdir hlen hnames
    obtain ⟨t, rfl, ht⟩ := hnames n (List.mem_cons_self ..)
    exact hhere.snoc hdir ht (Nat.not_lt.mp hlen)
  have htail : ∀ {s : Step} {rest : List Step},
      (∀ n, .into n ∈ s :: rest → ∃ t, n = .text t ∧ IsName t) →
      ∀ n, .into n ∈ rest → ∃ t, n = .text t ∧ IsName t :=
    fun hnames n hn => hnames n (List.mem_cons_of_mem _ hn)
  induction h using walk_induction with
  | done links => exact hhere
  | last links here n h hdir hlen hend => exact hend ▸ hstep hhere hdir hlen htodo
  | stay links here rest hdir h ih => exact ih hhere (htail htodo)
  | up links here rest hdir h ih => exact ih hhere.dropLast (htail htodo)
  | link left here n rest target hdir hlen hnext hfollow h ih =>
    -- a link adds the steps of its text, which go into proper names like those of a path
    refine ih (hhere.start target) fun m hm => ?_
    rcases List.mem_append.mp hm with ht | hr
    · exact isName_of_into_mem_steps ht
    · exact htail htodo m hr
  | into links here n rest e hdir hlen hnext he h ih =>
    exact ih (hstep hhere hdir hlen htodo) (htail htodo)

/-! ## Locating and finding -/

/-- Once a path is located, finding is looking at its place. -/
lemma find_of_locate {fs : FileSystem} {cwd : Place} {follow : Bool} {p : Path} {place : Place}
    (h : fs.locate cwd follow p = .ok place) :
    fs.find cwd follow p = match fs.get? place with
      | some e => .ok (place, e)
      | none => .error .noEntry := by
  rw [find, h]
  rfl

/-- To find an entry is to locate its place, where the entry stands. -/
lemma find_eq_ok_iff {fs : FileSystem} {cwd : Place} {follow : Bool} {p : Path} {place : Place}
    {e : Entry} : fs.find cwd follow p = .ok (place, e) ↔
      fs.locate cwd follow p = .ok place ∧ fs.get? place = some e := by
  cases hl : fs.locate cwd follow p with
  | error f =>
    rw [find, hl]
    exact ⟨fun h => (nomatch h), fun h => (nomatch h.1)⟩
  | ok q =>
    rw [find_of_locate hl]
    cases hq : fs.get? q with
    | none =>
      refine ⟨fun h => (nomatch h), fun h => ?_⟩
      rw [← Except.ok.inj h.1, hq] at h
      cases h.2
    | some e' =>
      simp only [Except.ok.injEq, Prod.mk.injEq]
      refine and_congr_right fun heq => ?_
      rw [← heq, hq, Option.some.injEq]

lemma exists_locate_of_isDir {fs : FileSystem} {cwd : Place} {p : Path} (h : fs.isDir cwd p) :
    ∃ place, fs.locate cwd true p = .ok place ∧ fs.get? place = some .dir := by
  rw [FileSystem.isDir] at h
  rcases hf : fs.find cwd true p with f | ⟨place, e⟩
  · rw [hf] at h
    cases h
  · rw [hf] at h
    cases e with
    | dir => exact ⟨place, find_eq_ok_iff.mp hf⟩
    | file content executable => cases h
    | link target => cases h

/-- What is located along a path was reached by a walk, and the path is fit for one. -/
lemma walk_of_locate {fs : FileSystem} {cwd : Place} {follow : Bool} {p : Path} {place : Place}
    (h : fs.locate cwd follow p = .ok place) :
    '\x00' ∉ p.text ∧ p.text ≠ [] ∧ Text.byteLength p.text < maxPath ∧
      fs.walk maxLinks follow (start cwd p.text) (steps p.text) = .ok place := by
  rw [locate] at h
  split at h
  · cases h
  · split at h
    · cases h
    · split at h
      · cases h
      · rename_i hnul hempty hlong
        exact ⟨hnul, by simpa using hempty, Nat.not_le.mp hlong, h⟩

/-- No walk fails since something is there. -/
lemma walk_ne_alreadyExists {fs : FileSystem} {links : ℕ} {follow : Bool} {here : Place}
    {todo : List Step} : fs.walk links follow here todo ≠ .error .alreadyExists := by
  fun_induction walk fs links follow here todo <;> first | assumption | simp

/-- Looking a path up does not fail since something is there. -/
lemma locate_ne_alreadyExists {fs : FileSystem} {cwd : Place} {follow : Bool} {p : Path} :
    fs.locate cwd follow p ≠ .error .alreadyExists := by
  rw [locate]
  split_ifs
  · exact nofun
  · simp
  · simp
  · exact walk_ne_alreadyExists

/-- A path that is fit for a walk is located by one, in any file system. -/
lemma locate_eq_walk {fs : FileSystem} {cwd : Place} {follow : Bool} {p : Path} {place : Place}
    (h : fs.locate cwd follow p = .ok place) (fs' : FileSystem) (follow' : Bool) :
    fs'.locate cwd follow' p = fs'.walk maxLinks follow' (start cwd p.text) (steps p.text) := by
  obtain ⟨hnul, hempty, hshort, -⟩ := walk_of_locate h
  rw [locate, if_neg hnul, if_neg (by simpa using hempty), if_neg (Nat.not_le.mpr hshort)]

lemma text_of_linkText {source : Path} {text : Text} (h : linkText source = .ok text) :
    text = source.text := by
  rw [linkText] at h
  split_ifs at h
  exact (Except.ok.inj h).symm

/-- The text of a link has no NUL, is not empty and is not too long. -/
lemma linkText_eq_ok_iff {target : Path} : linkText target = .ok target.text ↔
    '\x00' ∉ target.text ∧ target.text ≠ [] ∧ Text.byteLength target.text < maxPath := by
  rw [linkText]
  split_ifs with hnul hempty hlong
  · simp [hnul]
  · simp [List.isEmpty_iff.mp hempty]
  · simp [Nat.not_lt.mpr hlong]
  · simp [hnul, List.isEmpty_iff.not.mp hempty, Nat.not_le.mp hlong]

/-- A link is made where its text is taken and nothing stands in its place. -/
lemma makeLink_of_locate {fs : FileSystem} {cwd place : Place} {source link : Path}
    (haccepted : linkText source = .ok source.text) (hplace : fs.locate cwd false link = .ok place)
    (hnone : fs.get? place = none) :
    fs.makeLink cwd source link = .ok (fs.put place (.link source.text)) := by
  rw [makeLink, haccepted]
  simp only [create, hplace, hnone, bind, Except.bind]

/-- A link is made where a path leads, if nothing stands there and it may have the text. -/
lemma exists_of_makeLink {fs fs' : FileSystem} {cwd : Place} {target p : Path}
    (h : fs.makeLink cwd target p = .ok fs') : linkText target = .ok target.text ∧
      ∃ place, fs.locate cwd false p = .ok place ∧ fs.get? place = none ∧
        fs' = fs.put place (.link target.text) := by
  cases ht : linkText target with
  | error refusal =>
    rw [makeLink, ht] at h
    cases h
  | ok text =>
    obtain rfl := text_of_linkText ht
    rw [makeLink, ht] at h
    cases hl : fs.locate cwd false p with
    | error f =>
      simp only [create, hl, bind, Except.bind] at h
      cases h
    | ok place =>
      cases hg : fs.get? place with
      | some e =>
        simp only [create, hl, hg, bind, Except.bind] at h
        cases h
      | none =>
        simp only [create, hl, hg, bind, Except.bind, Except.ok.injEq] at h
        exact ⟨rfl, place, rfl, hg, h.symm⟩

/-- A link that has been made can be read. -/
lemma readLink_of_makeLink {fs fs' : FileSystem} {cwd : Place} {target p : Path}
    (h : fs.makeLink cwd target p = .ok fs') : fs'.readLink cwd p = .ok target := by
  obtain ⟨-, place, hl, hg, rfl⟩ := exists_of_makeLink h
  have hne : place ≠ [] := by
    rintro rfl
    rw [get?_root] at hg
    cases hg
  obtain ⟨-, -, -, hwalk⟩ := walk_of_locate hl
  have hlocate : (fs.put place (.link target.text)).locate cwd false p = .ok place := by
    rw [locate_eq_walk hl]
    exact walk_of_agree hg (agreeOff_put hne fs _) hwalk
  rw [readLink, find_of_locate hlocate, get?_put fs hne, if_pos rfl]
  rfl

/-! ## Reading files -/

section
variable {fs : FileSystem} {cwd q : Place} {path : Path} {content : Bytes} {t : Text}

/-- What is read is the content of the file to which a path leads. -/
lemma exists_of_read (h : fs.read cwd path = .ok content) :
    ∃ place executable, fs.locate cwd true path = .ok place ∧
      fs.get? place = some (.file content executable) := by
  rw [FileSystem.read] at h
  rcases hf : fs.find cwd true path with f | ⟨place, e⟩
  · rw [hf] at h
    cases h
  · rw [hf] at h
    obtain ⟨hlocate, hget⟩ := find_eq_ok_iff.mp hf
    cases e with
    | dir => cases h
    | file found executable =>
      obtain rfl : found = content := Except.ok.inj h
      exact ⟨place, executable, hlocate, hget⟩
    | link target => cases h

lemma read_of_locate {executable : Bool} (h : fs.locate cwd true path = .ok q)
    (hget : fs.get? q = some (.file content executable)) : fs.read cwd path = .ok content := by
  rw [FileSystem.read, find_eq_ok_iff.mpr ⟨h, hget⟩]
  rfl

/-- A text is read from a file, -/
lemma exists_of_readText (h : fs.readText cwd path = .ok t) : ∃ place content executable,
    fs.locate cwd true path = .ok place ∧ fs.get? place = some (.file content executable) := by
  rw [readText] at h
  cases hread : fs.read cwd path with
  | error f =>
    rw [hread] at h
    cases h
  | ok content =>
    obtain ⟨place, executable, hplace, hget⟩ := exists_of_read hread
    exact ⟨place, content, executable, hplace, hget⟩

lemma isFile_of_readText (h : fs.readText cwd path = .ok t) : fs.isFile cwd path := by
  obtain ⟨place, content, executable, hplace, hget⟩ := exists_of_readText h
  rw [isFile, find_eq_ok_iff.mpr ⟨hplace, hget⟩]

/-- and from a path that the operating system takes as the text of a link. -/
lemma accepted_of_readText (h : fs.readText cwd path = .ok t) : linkText path = .ok path.text := by
  obtain ⟨place, -, -, hplace, -⟩ := exists_of_readText h
  obtain ⟨hnul, hempty, hshort, -⟩ := walk_of_locate hplace
  exact linkText_eq_ok_iff.mpr ⟨hnul, hempty, hshort⟩

/-- Paths that lead to the same entry read alike. -/
lemma readText_congr {path' : Path} (h : fs.find cwd true path = fs.find cwd true path') :
    fs.readText cwd path = fs.readText cwd path' := by
  rw [readText, readText, FileSystem.read, FileSystem.read, h]

end

end Caretaker.FileSystem

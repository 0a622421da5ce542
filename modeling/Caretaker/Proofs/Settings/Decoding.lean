import Caretaker.Proofs.Yaml.Blank
import Caretaker.Settings.File

/-!
# Reading a mapping of settings

A document that maps texts to texts gives settings exactly if its keys are keys of settings and no
two of them are equal. Then each setting has the value of its entry, or its default if it has none,
and so the order of the entries does not matter. Otherwise the first entry that is wrong is named.
-/

namespace Caretaker

namespace Yaml.Document

/-! ## Mappings -/

/-- A part that stands for a text: a scalar, with a tag or without one, or an alias of one. -/
def Gives (d : Document) (p : Marked Part) (t : Text) : Prop :=
  ∃ s tag m, d.target? p = some ⟨.scalar s tag, m⟩ ∧ s.text = t

/-- Parts that are the keys and the values of entries in turn. -/
inductive Spells (d : Document) : List (Marked Part) → List (Text × Text) → Prop where
  | nil : Spells d [] []
  | cons {key value : Marked Part} {k v : Text} {parts : List (Marked Part)}
      {entries : List (Text × Text)} (hkey : d.Gives key k) (hvalue : d.Gives value v)
      (hparts : Spells d parts entries) : Spells d (key :: value :: parts) ((k, v) :: entries)

/-- A document that is one mapping with the given entries. -/
structure Maps (d : Document) (entries : List (Text × Text)) : Prop where
  parts : ∃ (start stop : Mark) (inner : List (Marked Part)),
    d.parts = ⟨.mappingStart, start⟩ :: (inner ++ [⟨.mappingEnd, stop⟩]) ∧ d.Spells inner entries
  ending : d.ending = .complete

variable {d : Document} {p : Marked Part} {t : Text}

lemma Gives.textOf (h : d.Gives p t) : ∃ m, Settings.textOf d p = .ok ⟨t, m⟩ := by
  obtain ⟨s, tag, m, htarget, rfl⟩ := h
  refine ⟨m, ?_⟩
  rw [Settings.textOf, htarget]

lemma Gives.ne_mappingEnd (h : d.Gives p t) (m : Mark) : p ≠ ⟨.mappingEnd, m⟩ := by
  obtain ⟨s, tag, m', htarget, -⟩ := h
  rintro rfl
  cases htarget

end Yaml.Document

/-! ## Keys -/

namespace Setting

lemma key_injective : Function.Injective fun s : Setting => s.key.toList := by
  intro s t h
  have hs := ofKey?_key s
  rw [show s.key.toList = t.key.toList from h, ofKey?_key] at hs
  exact (Option.some.inj hs).symm

end Setting

namespace Settings

open Yaml (Document Mark Marked Part)

/-- The entry by which a setting is configured. -/
def entryOf (e : Setting × Text) : Text × Text := (e.1.key.toList, e.2)

/-- Entries that configure settings, and none of them twice. -/
structure Admits (entries : List (Text × Text)) : Prop where
  known : ∀ e ∈ entries, ∃ x : Setting, e.1 = x.key.toList
  nodup : (entries.map Prod.fst).Nodup

/-- The flaw of the first entry that is wrong, all entries in front of it being right. -/
inductive Blames (entries : List (Text × Text)) : Flaw → Prop where
  | unknown {before behind : List (Text × Text)} {k v : Text}
      (hentries : entries = before ++ (k, v) :: behind) (hbefore : Admits before)
      (hkey : ∀ x : Setting, k ≠ x.key.toList) : Blames entries (.unknownKey k)
  | repeated {before behind : List (Text × Text)} {x : Setting} {v : Text}
      (hentries : entries = before ++ (x.key.toList, v) :: behind) (hbefore : Admits before)
      (hkey : x.key.toList ∈ before.map Prod.fst) : Blames entries (.repeatedKey x)

variable {entries entries' : List (Text × Text)} {read : List (Setting × Text)} {flaw : Flaw}

lemma map_fst_entryOf (read : List (Setting × Text)) :
    (read.map entryOf).map Prod.fst = (read.map Prod.fst).map fun s => s.key.toList := by
  rw [List.map_map, List.map_map]
  rfl

lemma admits_map_entryOf (h : (read.map Prod.fst).Nodup) : Admits (read.map entryOf) where
  known := by
    intro e he
    obtain ⟨e', -, rfl⟩ := List.mem_map.mp he
    exact ⟨e'.1, rfl⟩
  nodup := by
    rw [map_fst_entryOf]
    exact h.map Setting.key_injective

/-- Whether entries are admitted does not depend on their order. -/
lemma Admits.perm (h : Admits entries) (hperm : entries'.Perm entries) : Admits entries' where
  known e he := h.known e (hperm.mem_iff.mp he)
  nodup := (hperm.map Prod.fst).nodup_iff.mpr h.nodup

lemma Blames.not_admits (h : Blames entries flaw) : ¬ Admits entries := by
  intro hadmits
  cases h with
  | unknown hentries hbefore hkey =>
    obtain ⟨x, hx⟩ := hadmits.known _ (hentries ▸ List.mem_append_right _ (List.mem_cons_self ..))
    exact hkey x hx
  | repeated hentries hbefore hkey =>
    have hnodup := hadmits.nodup
    rw [hentries, List.map_append, List.nodup_append] at hnodup
    exact hnodup.2.2 _ hkey _ (List.mem_cons_self ..) rfl

/-! ## Reading entries -/

section
variable {d : Document} (start stop : Mark) {parts : List (Marked Part)}
  {done : List (Setting × Text)}

lemma readEntries_cons {key value : Marked Part} {k v : Text} (hkey : d.Gives key k)
    (hvalue : d.Gives value v) :
    readEntries d start (key :: value :: parts) done =
      (readKey d start done key).bind fun place =>
        readEntries d start parts (done ++ [(place, v)]) := by
  obtain ⟨m, htext⟩ := hvalue.textOf
  have hread : readValue d key value = .ok v := by rw [readValue, htext]
  rw [readEntries]
  · rw [hread]
    rfl
  · exact fun m' hend => hkey.ne_mappingEnd m' hend

/-- What reading entries comes to, behind those that have been read: all of them, or the flaw of the
first one that is wrong. -/
lemma readEntries_of_spells (h : d.Spells parts entries) (hdone : (done.map Prod.fst).Nodup) :
    match readEntries d start (parts ++ [⟨.mappingEnd, stop⟩]) done with
    | .ok all => ∃ read, all = done ++ read ∧ entries = read.map entryOf ∧ (all.map Prod.fst).Nodup
    | .error flaw => Blames (done.map entryOf ++ entries) flaw.value := by
  induction h generalizing done with
  | nil => exact ⟨[], (List.append_nil done).symm, rfl, hdone⟩
  | @cons key value k v parts entries hkey hvalue hparts ih =>
    rw [List.cons_append, List.cons_append, readEntries_cons start hkey hvalue]
    obtain ⟨m, htext⟩ := hkey.textOf
    rw [readKey, htext]
    dsimp only
    -- the key belongs to no setting, or to one that has been read, or it is right so far
    cases hplace : Setting.ofKey? k with
    | none =>
      have hunknown : ∀ x : Setting, k ≠ x.key.toList := by
        intro x hx
        rw [Setting.ofKey?_eq_some_iff.mpr hx] at hplace
        cases hplace
      exact .unknown rfl (admits_map_entryOf hdone) hunknown
    | some place =>
      obtain rfl := Setting.ofKey?_eq_some_iff.mp hplace
      dsimp only
      split_ifs with hany
      · have hmem : place.key.toList ∈ (done.map entryOf).map Prod.fst := by
          obtain ⟨e, he, heq⟩ := List.any_eq_true.mp hany
          obtain rfl := beq_iff_eq.mp heq
          exact List.mem_map_of_mem (List.mem_map_of_mem he)
        exact .repeated rfl (admits_map_entryOf hdone) hmem
      · have hnodup : ((done ++ [(place, v)]).map Prod.fst).Nodup := by
          rw [List.map_append, List.nodup_append]
          refine ⟨hdone, List.nodup_singleton _, fun x hx y hy hxy => hany ?_⟩
          obtain ⟨e, he, rfl⟩ := List.mem_map.mp hx
          obtain rfl := List.mem_singleton.mp hy
          exact List.any_eq_true.mpr ⟨e, he, beq_iff_eq.mpr hxy⟩
        have hrest := ih hnodup
        dsimp only [Except.bind]
        generalize readEntries d start (parts ++ [⟨.mappingEnd, stop⟩]) (done ++ [(place, v)]) =
          result at hrest ⊢
        rcases result with flaw | all
        · simpa [entryOf] using hrest
        · obtain ⟨read, rfl, rfl, hall⟩ := hrest
          exact ⟨(place, v) :: read, by simp, rfl, hall⟩

end

/-! ## Values -/

/-- A setting that was not read keeps its value, -/
lemma value_foldl_set_of_not_mem {s : Settings} {x : Setting} (hx : x ∉ read.map Prod.fst) :
    (read.foldl (fun s (place, value) => s.set place value) s).value x = s.value x := by
  induction read generalizing s with
  | nil => rfl
  | cons e read ih =>
    rw [List.map_cons, List.mem_cons, not_or] at hx
    rw [List.foldl_cons, ih hx.2, value_set, if_neg (Ne.symm hx.1)]

/-- and one that was read has the value that was read. -/
lemma value_ofEntries_of_mem {x : Setting} {v : Text} (hnodup : (read.map Prod.fst).Nodup)
    (hx : (x, v) ∈ read) : (ofEntries read).value x = v := by
  rw [ofEntries]
  generalize standard = s
  induction read generalizing s with
  | nil => cases hx
  | cons e read ih =>
    rw [List.map_cons, List.nodup_cons] at hnodup
    rw [List.foldl_cons]
    -- no later entry is for the same setting
    rcases List.mem_cons.mp hx with rfl | hx
    · rw [value_foldl_set_of_not_mem hnodup.1, value_set, if_pos rfl]
    · exact ih hnodup.2 hx _

/-- The settings that entries give: the value of its entry for each setting that has one, and the
default for the others. -/
structure GivenBy (s : Settings) (entries : List (Text × Text)) : Prop where
  given : ∀ (x : Setting) (v : Text), (x.key.toList, v) ∈ entries → s.value x = v
  standard : ∀ x : Setting, x.key.toList ∉ entries.map Prod.fst →
    s.value x = Settings.standard.value x

/-- The settings that were read are those given by their entries. -/
lemma givenBy_ofEntries (hnodup : (read.map Prod.fst).Nodup) :
    (ofEntries read).GivenBy (read.map entryOf) where
  given := by
    intro x v hx
    obtain ⟨e, he, heq⟩ := List.mem_map.mp hx
    obtain ⟨hkey, rfl⟩ := Prod.mk.inj heq
    obtain rfl := Setting.key_injective hkey
    exact value_ofEntries_of_mem hnodup he
  standard := by
    intro x hx
    refine value_foldl_set_of_not_mem fun hmem => hx ?_
    rw [map_fst_entryOf]
    exact List.mem_map_of_mem hmem

/-- Entries give the same settings in every order. -/
theorem GivenBy.unique {s s' : Settings} (h : s.GivenBy entries) (h' : s'.GivenBy entries')
    (hperm : entries'.Perm entries) : s' = s := by
  refine ext_value fun x => ?_
  by_cases hx : x.key.toList ∈ entries.map Prod.fst
  · obtain ⟨⟨k, v⟩, he, rfl⟩ := List.mem_map.mp hx
    rw [h.given x v he, h'.given x v (hperm.mem_iff.mpr he)]
  · have hx' : x.key.toList ∉ entries'.map Prod.fst :=
      fun hmem => hx ((hperm.map Prod.fst).mem_iff.mp hmem)
    rw [h.standard x hx, h'.standard x hx']

/-! ## Documents -/

/-- Reading a file that maps texts to texts comes to reading the entries. -/
theorem parse_of_maps (path : Path) {content : Text}
    (h : (Document.ofText content).Maps entries) :
    (∃ read, parse path content = .ok (ofEntries read) ∧ entries = read.map entryOf ∧
      (read.map Prod.fst).Nodup) ∨
    ∃ flaw mark, parse path content = .error (.settingsRejected path (flaw.messageAt mark)) ∧
      Blames entries flaw := by
  obtain ⟨start, stop, inner, hparts, hspells⟩ := h.parts
  -- a blank file is not looked at, but then it holds no mapping
  have hblank : ¬ (Text.trim content).isEmpty := by
    intro hempty
    have hcontent := Text.forall_isBlank_of_trim (List.isEmpty_iff.mp hempty)
    exact Document.value_ne_of_blank hcontent _ (hparts ▸ List.mem_cons_self ..) rfl
  have hdocument : ofDocument (Document.ofText content) =
      (readEntries (Document.ofText content) start (inner ++ [⟨.mappingEnd, stop⟩]) []).map
        ofEntries := by
    rw [ofDocument, ofParts, hparts, h.ending]
    dsimp only
    cases readEntries (Document.ofText content) start (inner ++ [⟨.mappingEnd, stop⟩]) [] <;> rfl
  have hnone : (([] : List (Setting × Text)).map Prod.fst).Nodup := List.nodup_nil
  have hentries := readEntries_of_spells start stop hspells hnone
  rw [parse, if_neg hblank, hdocument]
  generalize readEntries (Document.ofText content) start (inner ++ [⟨.mappingEnd, stop⟩]) [] =
    result at hentries ⊢
  rcases result with flaw | all
  · exact Or.inr ⟨flaw.value, flaw.mark, rfl, hentries⟩
  · obtain ⟨read, hread, hentries, hall⟩ := hentries
    rw [List.nil_append] at hread
    exact Or.inl ⟨all, rfl, hread ▸ hentries, hall⟩

/-- What becomes of a settings file that maps texts to texts. -/
structure Decodes (path : Path) (content : Text) (entries : List (Text × Text)) : Prop where
  /-- It gives settings exactly if every key is that of a setting and no two keys are equal. -/
  accepted : (∃ s, parse path content = .ok s) ↔
    (∀ e ∈ entries, ∃ x : Setting, e.1 = x.key.toList) ∧ (entries.map Prod.fst).Nodup
  /-- They have the values of the entries, and else the defaults. -/
  given : ∀ s, parse path content = .ok s → s.GivenBy entries
  /-- The same entries in another order, in another file, are read alike. -/
  permuted : ∀ content' entries', (Document.ofText content').Maps entries' → entries'.Perm entries →
    ∀ s, parse path content' = .ok s ↔ parse path content = .ok s
  /-- A file that gives none is rejected by its path, with the flaw of its first wrong entry. -/
  rejected : ∀ f, parse path content = .error f →
    ∃ flaw mark, f = .settingsRejected path (flaw.messageAt mark) ∧ Blames entries flaw

/-- A file that maps texts to texts is accepted exactly if its entries are admitted, -/
theorem exists_parse_iff (path : Path) {content : Text}
    (h : (Document.ofText content).Maps entries) :
    (∃ s, parse path content = .ok s) ↔ Admits entries := by
  rcases parse_of_maps path h with ⟨read, hparse, rfl, hnodup⟩ | ⟨flaw, mark, hparse, hblames⟩
  · exact iff_of_true ⟨_, hparse⟩ (admits_map_entryOf hnodup)
  · refine iff_of_false (fun ⟨s, hs⟩ => ?_) hblames.not_admits
    rw [hparse] at hs
    cases hs

/-- and then it gives the settings of its entries. -/
theorem givenBy_of_parse {path : Path} {content : Text} {s : Settings}
    (h : (Document.ofText content).Maps entries) (hs : parse path content = .ok s) :
    s.GivenBy entries := by
  rcases parse_of_maps path h with ⟨read, hparse, rfl, hnodup⟩ | ⟨flaw, mark, hparse, hblames⟩
  · rw [hparse] at hs
    rw [← Except.ok.inj hs]
    exact givenBy_ofEntries hnodup
  · rw [hparse] at hs
    cases hs

/-- Files with the same entries in another order give the same settings. -/
theorem parse_eq_of_perm {path : Path} {content content' : Text} {s : Settings}
    (h : (Document.ofText content).Maps entries) (h' : (Document.ofText content').Maps entries')
    (hperm : entries'.Perm entries) (hs : parse path content = .ok s) :
    parse path content' = .ok s := by
  have hadmits := (exists_parse_iff path h).mp ⟨s, hs⟩
  obtain ⟨s', hs'⟩ := (exists_parse_iff path h').mpr (hadmits.perm hperm)
  rw [hs', (givenBy_of_parse h hs).unique (givenBy_of_parse h' hs') hperm]

/-- For every file that maps texts to texts: it is read as its entries say, in whatever order they
stand, or rejected for the first of them that is wrong. -/
theorem decodes_parse (path : Path) {content : Text}
    (h : (Document.ofText content).Maps entries) : Decodes path content entries where
  accepted := by
    rw [exists_parse_iff path h]
    exact ⟨fun hadmits => ⟨hadmits.known, hadmits.nodup⟩, fun ⟨hknown, hnodup⟩ => ⟨hknown, hnodup⟩⟩
  given s hs := givenBy_of_parse h hs
  permuted := by
    intro content' entries' h' hperm s
    exact ⟨parse_eq_of_perm h' h hperm.symm, parse_eq_of_perm h h' hperm⟩
  rejected := by
    intro f hf
    rcases parse_of_maps path h with ⟨read, hparse, -, -⟩ | ⟨flaw, mark, hparse, hblames⟩
    · rw [hparse] at hf
      cases hf
    · rw [hparse] at hf
      exact ⟨flaw, mark, (Except.error.inj hf).symm, hblames⟩

/-- A nought is a path like any other scalar, and a key may be quoted. -/
theorem decodes_parse_quoted :
    (Document.ofText "scripts_dir: ~\n\"build_root\": '../..'\n".toList).Maps
        [("scripts_dir".toList, "~".toList), ("build_root".toList, "../..".toList)] ∧
      ∃ s, parse ⟨"/r/upkeep.yml".toList⟩
          "scripts_dir: ~\n\"build_root\": '../..'\n".toList = .ok s ∧
        s.GivenBy [("scripts_dir".toList, "~".toList), ("build_root".toList, "../..".toList)] := by
  have hdocument : Document.ofText "scripts_dir: ~\n\"build_root\": '../..'\n".toList =
      ⟨[⟨.mappingStart, ⟨0, 0, 0⟩⟩,
        ⟨.scalar ⟨"scripts_dir".toList, true⟩ none, ⟨0, 0, 0⟩⟩,
        ⟨.scalar ⟨"~".toList, true⟩ none, ⟨13, 0, 13⟩⟩,
        ⟨.scalar ⟨"build_root".toList, false⟩ none, ⟨15, 1, 0⟩⟩,
        ⟨.scalar ⟨"../..".toList, false⟩ none, ⟨29, 1, 14⟩⟩,
        ⟨.mappingEnd, ⟨37, 2, 0⟩⟩], .complete⟩ := by cbv
  have hmaps : (Document.ofText "scripts_dir: ~\n\"build_root\": '../..'\n".toList).Maps
      [("scripts_dir".toList, "~".toList), ("build_root".toList, "../..".toList)] := by
    rw [hdocument]
    exact ⟨⟨_, _, _, rfl, .cons ⟨_, _, _, rfl, rfl⟩ ⟨_, _, _, rfl, rfl⟩
      (.cons ⟨_, _, _, rfl, rfl⟩ ⟨_, _, _, rfl, rfl⟩ .nil)⟩, rfl⟩
  have hdecodes := decodes_parse ⟨"/r/upkeep.yml".toList⟩ hmaps
  obtain ⟨s, hs⟩ := hdecodes.accepted.mpr
    ⟨by simpa using ⟨⟨.scriptsDir, rfl⟩, ⟨.buildRoot, rfl⟩⟩, by decide⟩
  exact ⟨hmaps, s, hs, hdecodes.given s hs⟩

end Settings

end Caretaker

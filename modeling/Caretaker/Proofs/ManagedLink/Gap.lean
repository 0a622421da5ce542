import Caretaker.Proofs.ManagedLink.Race

/-!
# Between removing the right link and making it again

Once a repair has returned, the managed link is right or there is none. In the latter case another
repair is at work, which had read the link before it was right: it has taken the right link for the
wrong one that it had read, and removed it. Such a gap lasts no longer than it takes that repair to
make the link.
-/

namespace Caretaker.Repair

open FileSystem

variable {l : Layout} {source : Path} {e : Option Entry} {s : Stage}

namespace Stage

/-- A repair succeeds only with a call that leaves the link right. -/
lemma right_of_returned {status : LinkStatus}
    (h : (s.advance l source e).1 = returned (.ok status)) :
    s = returned (.ok status) ∨ Layout.leadsTo source (s.advance l source e).2 := by
  cases s with
  | reading =>
    simp only [advance] at h ⊢
    split at h
    · exact Or.inr ‹_›
    · cases h
  | looking previous =>
    simp only [advance] at h
    split at h <;> cases h
  | making previous =>
    rcases advance_making l source e previous with ⟨_, -, hto⟩ | ⟨-, -, hto⟩ | ⟨-, -, hto⟩
    · rw [hto] at h
      cases h
    · rw [hto] at h
      cases h
    · rw [hto]
      exact Or.inr (Layout.leadsTo_link_self source)
  | checking previous =>
    simp only [advance] at h ⊢
    split at h
    · exact Or.inr ‹_›
    · cases h
  | returned result => exact Or.inl h
  | _ => cases h

/-- The call has read the link, and it was not right. -/
def SeenWrong : Stage → Prop
  | looking _ | clearing _ | making _ | checking _ => True
  | asking | reading | returned _ => False

/-- A call comes to see the link wrong only by reading it. -/
lemma seenWrong_advance (h : (s.advance l source e).1.SeenWrong) :
    s.SeenWrong ∨ s = reading ∧ ¬ Layout.leadsTo source e := by
  cases s with
  | reading =>
    simp only [advance] at h
    split at h
    · cases h
    · exact Or.inr ⟨rfl, ‹_›⟩
  | asking => cases h
  | returned result => exact Or.inl h
  | _ => exact Or.inl trivial

/-- An entry is lost only to a call that removes it, and then the link is to be made. -/
lemma clearing_of_lost (he : e ≠ none) (hlost : (s.advance l source e).2 = none) :
    ∃ previous, s = clearing previous ∧ (s.advance l source e).1 = making previous := by
  cases s with
  | clearing previous => exact ⟨previous, rfl, rfl⟩
  | making previous =>
    rcases advance_making l source e previous with ⟨_, -, h⟩ | ⟨-, -, h⟩ | ⟨-, -, h⟩ <;>
      rw [h] at hlost
    · exact absurd hlost he
    · exact absurd hlost he
    · cases hlost
  | _ => exact absurd hlost he

/-- A call that makes the link where none is leaves one there. -/
lemma ne_none_of_making (haccepted : linkText source = .ok source.text) (previous : Option Path) :
    ((making previous).advance l source none).2 ≠ none := by
  rcases advance_making l source none previous with
    ⟨_, hrefused, -⟩ | ⟨-, hsome, -⟩ | ⟨-, -, hto⟩
  · cases haccepted.symm.trans hrefused
  · exact absurd rfl hsome
  · rw [hto]
    exact Option.some_ne_none _

end Stage

/-! ## Histories -/

/-- How the right link is undone, in a history that says for each sequence of turns whether the next
call of a repair is to read the link, to remove it or to make it, and which entry stands there. The
repair reads the link before it is right, removes it once it is, and then nothing stands there until
the repair makes it again. -/
structure Undoes (source : Path) (reads removes makes : List ℕ → Prop)
    (entry : List ℕ → Option Entry) (j : ℕ) (looked removed before : List ℕ) : Prop where
  reads : reads looked
  wrong : ¬ Layout.leadsTo source (entry looked)
  later : looked ++ [j] <+: removed
  removes : removes removed
  right : Layout.leadsTo source (entry removed)
  since : removed ++ [j] <+: before
  gone : ∀ between, removed ++ [j] <+: between → between <+: before → entry between = none
  makes : makes before

section
variable {reads removes makes : List ℕ → Prop} {entry : List ℕ → Option Entry} {j : ℕ}
  {looked removed before : List ℕ}

lemma Undoes.concat (h : Undoes source reads removes makes entry j looked removed before) {k : ℕ}
    (hgone : entry (before ++ [k]) = none) (hmakes : makes (before ++ [k])) :
    Undoes source reads removes makes entry j looked removed (before ++ [k]) where
  __ := h
  since := h.since.trans (List.prefix_append ..)
  gone between hsince hbetween := by
    rcases List.prefix_concat_iff.mp hbetween with rfl | hearlier
    · exact hgone
    · exact h.gone between hsince hearlier
  makes := hmakes

/-- A history that agrees with another one up to some turn tells the same of it. -/
lemma Undoes.of_history (h : Undoes source reads removes makes entry j looked removed before)
    {reads' removes' makes' : List ℕ → Prop} {entry' : List ℕ → Option Entry}
    (hreads : ∀ t, t <+: before → reads t → reads' t)
    (hremoves : ∀ t, t <+: before → removes t → removes' t)
    (hmakes : ∀ t, t <+: before → makes t → makes' t)
    (hentry : ∀ t, t <+: before → entry' t = entry t) :
    Undoes source reads' removes' makes' entry' j looked removed before := by
  have hremoved : removed <+: before := (List.prefix_append ..).trans h.since
  have hlooked : looked <+: before := ((List.prefix_append ..).trans h.later).trans hremoved
  exact
    { reads := hreads _ hlooked h.reads
      wrong := hentry _ hlooked ▸ h.wrong
      later := h.later
      removes := hremoves _ hremoved h.removes
      right := hentry _ hremoved ▸ h.right
      since := h.since
      gone := fun between hsince hbetween =>
        (hentry _ hbetween).trans (h.gone between hsince hbetween)
      makes := hmakes _ List.prefix_rfl h.makes }

end

namespace Race

variable {r : Race} {i : ℕ}

/-- One of the repairs has succeeded. -/
def Won (r : Race) : Prop :=
  ∃ (i : ℕ) (status : LinkStatus), r.stages[i]? = some (Stage.returned (.ok status))

/-- Once a repair has succeeded, the link is right if there is one. -/
def Kept (source : Path) (r : Race) : Prop :=
  r.Won → r.entry ≠ none → Layout.leadsTo source r.entry

lemma not_won_of_asking (h : ∀ (i : ℕ) (s : Stage), r.stages[i]? = some s → s = .asking) :
    ¬ r.Won := by
  rintro ⟨i, status, hi⟩
  cases h i _ hi

/-- Where a turn lets the first repair succeed, it leaves the link right. -/
lemma right_of_won_turn (hi : r.stages[i]? = some s) (h : (r.turn l source i).Won) :
    r.Won ∨ Layout.leadsTo source (s.advance l source r.entry).2 := by
  obtain ⟨j, status, hj⟩ := h
  rcases stage_of_turn hi hj with ⟨-, hs⟩ | ⟨-, hj⟩
  · rcases Stage.right_of_returned hs.symm with hs | hright
    · exact Or.inl ⟨i, status, hs ▸ hi⟩
    · exact Or.inr hright
  · exact Or.inl ⟨j, status, hj⟩

lemma not_leadsTo_none : ¬ Layout.leadsTo source none := Bool.false_ne_true

/-- This outlasts a turn, -/
theorem Kept.turn (h : Kept source r) (i : ℕ) : Kept source (r.turn l source i) := by
  cases hi : r.stages[i]? with
  | none => rwa [turn_of_none hi]
  | some s =>
    intro hwon hsome
    rw [entry_turn hi] at hsome ⊢
    rcases right_of_won_turn hi hwon with hwon | hright
    · have hentry : (s.advance l source r.entry).2 = r.entry ∨
          Fresh source (s.advance l source r.entry).2 := s.entry_advance
      rcases hentry with he | he | he
      · rw [he] at hsome ⊢
        exact h hwon hsome
      · exact absurd he hsome
      · rw [he]
        exact Layout.leadsTo_link_self source
    · exact hright

/-- and so any number of them. -/
theorem Kept.after (h : Kept source r) (schedule : List ℕ) :
    Kept source (r.after l source schedule) := after_of_turn (fun _ i h => h.turn i) h schedule

/-! ## Where a gap comes from -/

/-- How one of the repairs in a race undoes the right link. -/
def Undone (l : Layout) (source : Path) (r : Race) (j : ℕ) (looked removed before : List ℕ) : Prop :=
  Undoes source (fun turns => (r.after l source turns).stages[j]? = some Stage.reading)
    (fun turns => ∃ previous, (r.after l source turns).stages[j]? = some (Stage.clearing previous))
    (fun turns => ∃ previous, (r.after l source turns).stages[j]? = some (Stage.making previous))
    (fun turns => (r.after l source turns).entry) j looked removed before

/-- A repair that has seen the link wrong has read it at some turn. -/
lemma exists_looked {j : ℕ} (hstart : ∀ s, r.stages[j]? = some s → s = .asking) {schedule : List ℕ}
    (hj : (r.after l source schedule).stages[j]? = some s) (hs : s.SeenWrong) :
    ∃ looked, looked ++ [j] <+: schedule ∧
      (r.after l source looked).stages[j]? = some Stage.reading ∧
      ¬ Layout.leadsTo source (r.after l source looked).entry := by
  induction schedule using List.reverseRecOn generalizing s with
  | nil =>
    rw [hstart s hj] at hs
    cases hs
  | append_singleton before k ih =>
    have hearlier {t : Stage} (ht : (r.after l source before).stages[j]? = some t)
        (hseen : t.SeenWrong) := (ih ht hseen).imp fun _ h =>
      And.imp_left (·.trans (List.prefix_append before [k])) h
    rw [after_append] at hj
    rcases exists_stage_of_turn hj with ⟨rfl, t, hk, rfl⟩ | ⟨-, hold⟩
    · rcases Stage.seenWrong_advance hs with hseen | ⟨rfl, hwrong⟩
      · exact hearlier hk hseen
      · exact ⟨before, List.prefix_rfl, hk, hwrong⟩
    · exact hearlier hold hs

/-- Where nothing stands although a repair has succeeded, another one has undone the right link. -/
theorem exists_undone (haccepted : linkText source = .ok source.text)
    (hstart : ∀ (i : ℕ) (s : Stage), r.stages[i]? = some s → s = .asking) {schedule : List ℕ}
    (hwon : (r.after l source schedule).Won) (hnone : (r.after l source schedule).entry = none) :
    ∃ j looked removed, Undone l source r j looked removed schedule := by
  have hkept : Kept source r := fun h => absurd h (not_won_of_asking hstart)
  -- the last turn is taken off: it has removed the right link, or left the gap as it was
  induction schedule using List.reverseRecOn with
  | nil => exact absurd hwon (not_won_of_asking hstart)
  | append_singleton before k ih =>
    have hturn : r.after l source (before ++ [k]) = (r.after l source before).turn l source k :=
      after_append before [k]
    have hgone := hnone
    rw [hturn] at hwon hnone
    cases hk : (r.after l source before).stages[k]? with
    | none =>
      rw [turn_of_none hk] at hwon hnone
      obtain ⟨j, looked, removed, h⟩ := ih hwon hnone
      refine ⟨j, looked, removed, h.concat hgone ?_⟩
      obtain ⟨previous, hj⟩ := h.makes
      exact ⟨previous, by rw [hturn, turn_of_none hk, hj]⟩
    | some s =>
      rw [entry_turn hk] at hnone
      have hwon := (right_of_won_turn hk hwon).resolve_right fun hright =>
        not_leadsTo_none (hnone ▸ hright)
      by_cases he : (r.after l source before).entry = none
      · obtain ⟨j, looked, removed, h⟩ := ih hwon he
        obtain ⟨previous, hj⟩ := h.makes
        refine ⟨j, looked, removed, h.concat hgone ⟨previous, ?_⟩⟩
        -- the repair that is to make the link would have ended the gap at its turn
        have hjk : j ≠ k := by
          rintro rfl
          obtain rfl := Option.some.inj (hk.symm.trans hj)
          rw [he] at hnone
          exact Stage.ne_none_of_making haccepted previous hnone
        rw [hturn, stages_turn_of_ne hjk, hj]
      -- a repair had succeeded and an entry stood there, so it was the right link that this turn
      -- removed
      · obtain ⟨previous, rfl, hto⟩ := Stage.clearing_of_lost he hnone
        obtain ⟨looked, hlooked, hreads, hwrong⟩ :=
          exists_looked (hstart k) hk trivial
        exact ⟨k, looked, before,
          { reads := hreads
            wrong := hwrong
            later := hlooked
            removes := ⟨previous, hk⟩
            right := hkept.after before hwon he
            since := List.prefix_rfl
            gone := fun between hsince hbetween =>
              hbetween.eq_of_length_le hsince.length_le ▸ hgone
            makes := ⟨previous, by rw [hturn, stages_turn_self hk, hto]⟩ }⟩

end Race
end Caretaker.Repair

import Caretaker.Proofs.ManagedLink.Protocol

/-!
# Races for the managed link

Any number of repairs may race for one managed link. A stale entry that is gone stays gone, from
then on only the right link comes back, and as long as the link is not right one of the repairs has
yet to make it. With two repairs, one that comes too late to make the link finds it made for good.
-/

namespace Caretaker.Repair

open FileSystem LinkStatus

/-- Nothing, or the link as a repair makes it. -/
def Fresh (source : Path) (e : Option Entry) : Prop := e = none ∨ e = some (.link source.text)

namespace Stage

/-! ## What one call changes -/

/-- The call has found no reason to touch the entry. -/
def Untouching : Stage → Prop
  | asking | reading | returned (.ok .current) => True
  | _ => False

/-- The call has seen to it that no stale entry is there. -/
def PastClearing : Stage → Prop
  | making _ | checking _ => True
  | _ => False

/-- The call has yet to make the link, or to see that it is right. -/
def WillMake : Stage → Prop
  | asking | reading | looking _ | clearing _ | making _ => True
  | checking _ | returned _ => False

variable {l : Layout} {source : Path} {e : Option Entry} (s : Stage)

/-- A call leaves the entry as it is, or it leaves a fresh one. -/
lemma entry_advance : (s.advance l source e).2 = e ∨ Fresh source (s.advance l source e).2 := by
  cases s with
  | clearing previous => exact Or.inr (Or.inl rfl)
  | making previous =>
    rcases advance_making l source e previous with ⟨_, -, h⟩ | ⟨-, -, h⟩ | ⟨-, -, h⟩ <;> rw [h]
    · exact Or.inl rfl
    · exact Or.inl rfl
    · exact Or.inr (Or.inr rfl)
  | _ => exact Or.inl rfl

variable {s}

/-- Where the link is right, a call that has not touched it will not. -/
lemma Untouching.advance (h : s.Untouching) (he : Layout.leadsTo source e) :
    (s.advance l source e).1.Untouching ∧ (s.advance l source e).2 = e := by
  cases s with
  | asking => exact ⟨trivial, rfl⟩
  | reading =>
    refine ⟨?_, rfl⟩
    simp only [Stage.advance, he, if_true]
    trivial
  | returned result => exact ⟨h, rfl⟩
  | _ => cases h

/-- Past clearing there is no stale entry, neither before a call nor after it. -/
lemma pastClearing_advance (hgone : s.PastClearing → Fresh source e)
    (h : (s.advance l source e).1.PastClearing) : Fresh source (s.advance l source e).2 := by
  cases s with
  | looking previous =>
    cases e with
    | none => exact Or.inl rfl
    | some e => cases h
  | clearing previous => exact Or.inl rfl
  | making previous =>
    rcases advance_making l source e previous with ⟨_, -, hto⟩ | ⟨-, -, hto⟩ | ⟨-, -, hto⟩ <;>
      rw [hto] at h ⊢
    · cases h
    · exact hgone trivial
    · cases h
  | reading =>
    simp only [Stage.advance] at h
    split at h <;> cases h
  | _ => cases h

/-- A call that can make the link goes on, or sees that the link is right. -/
lemma WillMake.advance (h : s.WillMake) (hgone : s.PastClearing → Fresh source e)
    (haccepted : linkText source = .ok source.text) :
    (s.advance l source e).1.WillMake ∨ Layout.leadsTo source (s.advance l source e).2 := by
  cases s with
  | asking => exact Or.inl trivial
  | reading =>
    cases hl : Layout.leadsTo source e with
    | true => exact Or.inr hl
    | false =>
      refine Or.inl ?_
      simp only [Stage.advance, hl, Bool.false_eq_true, if_false]
      trivial
  | looking previous => cases e <;> exact Or.inl trivial
  | clearing previous => exact Or.inl trivial
  | making previous =>
    refine Or.inr ?_
    rcases advance_making l source e previous with
      ⟨_, hrefused, -⟩ | ⟨-, hsome, hto⟩ | ⟨-, -, hto⟩
    · cases haccepted.symm.trans hrefused
    -- an entry in the way was put there after the stale one had gone, so it is right
    · rw [hto]
      rcases hgone trivial with he | he
      · exact absurd he hsome
      · rw [he]
        exact Layout.leadsTo_link_self source
    · rw [hto]
      exact Layout.leadsTo_link_self source
  | _ => cases h

/-- A call that takes the right link away is about to make it again. -/
lemma willMake_of_lost (he : Layout.leadsTo source e)
    (hlost : ¬ Layout.leadsTo source (s.advance l source e).2) :
    (s.advance l source e).1.WillMake := by
  cases s with
  | clearing previous => trivial
  | making previous =>
    rcases advance_making l source e previous with ⟨_, -, h⟩ | ⟨-, -, h⟩ | ⟨-, -, h⟩ <;>
      rw [h] at hlost
    · exact absurd he hlost
    · exact absurd he hlost
    · exact absurd (Layout.leadsTo_link_self source) hlost
  | _ => exact absurd he hlost

/-- The right link, where it was not right before, is the work of the call that has just made it. -/
lemma returned_of_right (he : ¬ Layout.leadsTo source e)
    (hright : Layout.leadsTo source (s.advance l source e).2) :
    ∃ status, (s.advance l source e).1 = returned (.ok status) := by
  cases s with
  | clearing previous => cases hright
  | making previous =>
    rcases advance_making l source e previous with ⟨_, -, h⟩ | ⟨-, -, h⟩ | ⟨-, -, h⟩ <;>
      rw [h] at hright
    · exact absurd hright he
    · exact absurd hright he
    · exact ⟨.repaired previous, by rw [h]⟩
  | _ => exact absurd hright he

/-- A call looks at the link again only after it could not make it. -/
lemma checking_advance {previous : Option Path}
    (h : (s.advance l source e).1 = checking previous) :
    s = making previous ∧ e ≠ none ∧ (s.advance l source e).2 = e := by
  cases s with
  | making asked =>
    rcases advance_making l source e asked with ⟨_, -, hto⟩ | ⟨-, hsome, hto⟩ | ⟨-, -, hto⟩ <;>
      rw [hto] at h ⊢ <;> cases h
    exact ⟨rfl, hsome, rfl⟩
  | reading =>
    simp only [Stage.advance] at h
    split at h <;> cases h
  | looking previous =>
    simp only [Stage.advance] at h
    split at h <;> cases h
  | _ => cases h

/-- A call fails when its text is refused, or when it finds, looking at the link again, that it is
not right. -/
lemma fault_advance {f : Fault} (h : (s.advance l source e).1 = returned (.error f)) :
    s = returned (.error f) ∨
    (∃ refusal, linkText source = .error refusal ∧
      f = .linkFailed l.environLink source refusal) ∨
    (∃ previous, s = checking previous) ∧ ¬ Layout.leadsTo source e ∧
      f = .linkFailed l.environLink source .alreadyExists := by
  cases s with
  | returned result => exact Or.inl h
  | checking previous =>
    simp only [Stage.advance] at h
    split at h
    · cases h
    · rename_i hwrong
      cases h
      exact Or.inr (Or.inr ⟨⟨previous, rfl⟩, hwrong, rfl⟩)
  | making previous =>
    rcases advance_making l source e previous with
      ⟨refusal, hrefused, hto⟩ | ⟨-, -, hto⟩ | ⟨-, -, hto⟩ <;> rw [hto] at h <;> cases h
    exact Or.inr (Or.inl ⟨refusal, hrefused, rfl⟩)
  | reading =>
    simp only [Stage.advance] at h
    split at h <;> cases h
  | looking previous =>
    simp only [Stage.advance] at h
    split at h <;> cases h
  | _ => cases h

/-- What a call can be at, in a race that began with `initial`, if no link may have the text of the
source. It never finds a link that it could not make, so that it either found the first one right or
fails for the text. -/
def Barred (l : Layout) (source : Path) (initial : Option Entry) (refusal : IoFault) : Stage → Prop
  | checking _ => False
  | returned (.ok status) => status = .current ∧ Layout.leadsTo source initial
  | returned (.error f) => f = .linkFailed l.environLink source refusal
  | _ => True

/-- Each call keeps to that, as long as the entry is the first one or none. -/
lemma Barred.advance {initial : Option Entry} {refusal : IoFault}
    (h : s.Barred l source initial refusal) (hrefused : linkText source = .error refusal)
    (he : e = initial ∨ e = none) :
    (s.advance l source e).1.Barred l source initial refusal ∧
      ((s.advance l source e).2 = initial ∨ (s.advance l source e).2 = none) := by
  cases s with
  | reading =>
    refine ⟨?_, he⟩
    simp only [Stage.advance]
    split_ifs with hright
    · -- nothing is no right link, so this is the first entry
      rcases he with rfl | rfl
      · exact ⟨rfl, hright⟩
      · cases hright
    · trivial
  | looking previous =>
    refine ⟨?_, he⟩
    simp only [Stage.advance]
    split_ifs <;> trivial
  | clearing previous => exact ⟨trivial, Or.inr rfl⟩
  | making previous =>
    rcases advance_making l source e previous with
      ⟨other, hother, hto⟩ | ⟨haccepted, -, -⟩ | ⟨haccepted, -, -⟩
    · obtain rfl : refusal = other := Except.error.inj (hrefused.symm.trans hother)
      rw [hto]
      exact ⟨rfl, he⟩
    · cases hrefused.symm.trans haccepted
    · cases hrefused.symm.trans haccepted
  | checking previous => exact h.elim
  | asking => exact ⟨trivial, he⟩
  | returned result => exact ⟨h, he⟩

end Stage

/-- Repairs beside each other, seen from the managed link. -/
structure Race where
  entry : Option Entry
  stages : List Stage

namespace Race

variable (l : Layout) (source : Path)

/-- The next call of one of the repairs. -/
def turn (r : Race) (i : ℕ) : Race :=
  match r.stages[i]? with
  | some s => ⟨(s.advance l source r.entry).2, r.stages.set i (s.advance l source r.entry).1⟩
  | none => r

variable {l : Layout} {source : Path} {r : Race} {i : ℕ} {s : Stage}

lemma turn_of_some (h : r.stages[i]? = some s) : r.turn l source i =
    ⟨(s.advance l source r.entry).2, r.stages.set i (s.advance l source r.entry).1⟩ := by
  rw [turn, h]

lemma turn_of_none (h : r.stages[i]? = none) : r.turn l source i = r := by rw [turn, h]

lemma entry_turn (h : r.stages[i]? = some s) :
    (r.turn l source i).entry = (s.advance l source r.entry).2 := by rw [turn_of_some h]

lemma stages_turn_self (h : r.stages[i]? = some s) :
    (r.turn l source i).stages[i]? = some (s.advance l source r.entry).1 := by
  rw [turn_of_some h]
  exact List.getElem?_set_self (List.getElem?_eq_some_iff.mp h).1

lemma stages_turn_of_ne {j : ℕ} (hne : j ≠ i) :
    (r.turn l source i).stages[j]? = r.stages[j]? := by
  cases h : r.stages[i]? with
  | none => rw [turn_of_none h]
  | some s =>
    rw [turn_of_some h]
    exact List.getElem?_set_ne hne.symm

lemma length_stages_turn : (r.turn l source i).stages.length = r.stages.length := by
  cases h : r.stages[i]? with
  | none => rw [turn_of_none h]
  | some s =>
    rw [turn_of_some h]
    exact List.length_set

/-! ## What holds at every moment of a race -/

/-- What ties the stages of the repairs to the entry, in a race that began with `initial`. -/
structure Sound (l : Layout) (source : Path) (initial : Option Entry) (r : Race) : Prop where
  entry : r.entry = initial ∨ Fresh source r.entry
  right : Layout.leadsTo source initial →
    r.entry = initial ∧ ∀ (i : ℕ) (s : Stage), r.stages[i]? = some s → s.Untouching
  gone : ∀ (i : ℕ) (s : Stage), r.stages[i]? = some s → s.PastClearing → Fresh source r.entry
  maker : linkText source = .ok source.text → ¬ Layout.leadsTo source r.entry → r.stages ≠ [] →
    ∃ (i : ℕ) (s : Stage), r.stages[i]? = some s ∧ s.WillMake
  fault : ∀ (i : ℕ) (f : Fault), r.stages[i]? = some (Stage.returned (.error f)) →
    f = .linkFailed l.environLink source .alreadyExists ∨
    ∃ refusal, linkText source = .error refusal ∧ f = .linkFailed l.environLink source refusal

variable {initial : Option Entry}

lemma stage_start {n i : ℕ} (h : (List.replicate n Stage.asking)[i]? = some s) : s = .asking :=
  List.eq_of_mem_replicate (List.mem_of_getElem? h)

lemma sound_start (n : ℕ) : Sound l source initial ⟨initial, List.replicate n .asking⟩ where
  entry := Or.inl rfl
  right _ := by
    refine ⟨rfl, fun i s hs => ?_⟩
    rw [stage_start hs]
    trivial
  gone i s hs hpast := by
    rw [stage_start hs] at hpast
    cases hpast
  maker _ _ hne := by
    obtain ⟨s, hs⟩ := List.exists_mem_of_ne_nil _ hne
    obtain ⟨i, hi⟩ := List.getElem?_of_mem hs
    exact ⟨i, s, hi, by rw [stage_start hi]; trivial⟩
  fault i f hf := by cases stage_start hf

/-- No later entry but a fresh one, once a repair has changed it. -/
lemma fresh_turn (h : Fresh source r.entry) (i : ℕ) :
    Fresh source (r.turn l source i).entry := by
  cases hi : r.stages[i]? with
  | none => rwa [turn_of_none hi]
  | some s =>
    rw [entry_turn hi]
    have hentry : (s.advance l source r.entry).2 = r.entry ∨
        Fresh source (s.advance l source r.entry).2 := s.entry_advance
    rcases hentry with he | he
    · rwa [he]
    · exact he

/-- The stages after a turn, one by one: the one whose turn it was has advanced, the others wait. -/
lemma stage_of_turn (hi : r.stages[i]? = some s) {j : ℕ} {t : Stage}
    (ht : (r.turn l source i).stages[j]? = some t) :
    (j = i ∧ t = (s.advance l source r.entry).1) ∨ (j ≠ i ∧ r.stages[j]? = some t) := by
  by_cases hj : j = i
  · rw [hj, stages_turn_self hi, Option.some.injEq] at ht
    exact Or.inl ⟨hj, ht.symm⟩
  · rw [stages_turn_of_ne hj] at ht
    exact Or.inr ⟨hj, ht⟩

/-- So a stage after a turn has advanced in this turn, or it has been there before. -/
lemma exists_stage_of_turn {j : ℕ} {t : Stage} (ht : (r.turn l source i).stages[j]? = some t) :
    (j = i ∧ ∃ s, r.stages[i]? = some s ∧ t = (s.advance l source r.entry).1) ∨
      (j ≠ i ∧ r.stages[j]? = some t) := by
  cases hi : r.stages[i]? with
  | none =>
    rw [turn_of_none hi] at ht
    refine Or.inr ⟨?_, ht⟩
    rintro rfl
    cases hi.symm.trans ht
  | some s => exact (stage_of_turn hi ht).imp_left fun ⟨hj, hs⟩ => ⟨hj, s, rfl, hs⟩

/-- A race stays sound, whichever repair has its turn. -/
theorem Sound.turn (h : Sound l source initial r) (i : ℕ) :
    Sound l source initial (r.turn l source i) := by
  cases hi : r.stages[i]? with
  | none => rwa [turn_of_none hi]
  | some s =>
    have hgone := h.gone i s hi
    refine ⟨?entry, ?right, ?gone, ?maker, ?fault⟩
    case entry =>
      rcases h.entry with he | he
      · rw [entry_turn hi]
        exact (s.entry_advance).imp_left fun hsame => hsame.trans he
      · exact Or.inr (fresh_turn he i)
    case right =>
      intro hinitial
      obtain ⟨he, huntouched⟩ := h.right hinitial
      have hs := (huntouched i s hi).advance (l := l) (he ▸ hinitial)
      rw [entry_turn hi]
      refine ⟨hs.2.trans he, fun j t ht => ?_⟩
      rcases stage_of_turn hi ht with ⟨-, rfl⟩ | ⟨-, hj⟩
      · exact hs.1
      · exact huntouched j t hj
    case gone =>
      intro j t ht hpast
      rcases stage_of_turn hi ht with ⟨-, rfl⟩ | ⟨-, hj⟩
      · rw [entry_turn hi]
        exact Stage.pastClearing_advance hgone hpast
      · exact fresh_turn (h.gone j t hj hpast) i
    case maker =>
      intro haccepted hwrong hne
      rw [entry_turn hi] at hwrong
      -- a turn that takes the right link away is the turn of a repair that will make it again
      by_cases he : Layout.leadsTo source r.entry
      · exact ⟨i, _, stages_turn_self hi, Stage.willMake_of_lost he hwrong⟩
      have hstages : r.stages ≠ [] := fun hnil => by
        rw [hnil] at hi
        cases hi
      obtain ⟨j, t, hj, hmaker⟩ := h.maker haccepted he hstages
      by_cases hji : j = i
      · rw [hji, hi, Option.some.injEq] at hj
        subst hj
        rcases hmaker.advance (l := l) hgone haccepted with hmaker | hright
        · exact ⟨i, _, stages_turn_self hi, hmaker⟩
        · exact absurd hright hwrong
      · exact ⟨j, t, (stages_turn_of_ne hji).trans hj, hmaker⟩
    case fault =>
      intro j f hf
      rcases stage_of_turn hi hf with ⟨-, hs⟩ | ⟨-, hj⟩
      · rcases Stage.fault_advance hs.symm with hs | hrefused | ⟨-, -, hfault⟩
        · exact h.fault i f (hs ▸ hi)
        · exact Or.inr hrefused
        · exact Or.inl hfault
      · exact h.fault j f hj

/-! ## A text that no link may have -/

/-- What ties the stages of the repairs to the entry if the text of the source is refused. -/
structure Barred (l : Layout) (source : Path) (initial : Option Entry) (refusal : IoFault)
    (r : Race) : Prop where
  entry : r.entry = initial ∨ r.entry = none
  stages : ∀ (i : ℕ) (s : Stage), r.stages[i]? = some s → s.Barred l source initial refusal

lemma barred_start (n : ℕ) (refusal : IoFault) :
    Barred l source initial refusal ⟨initial, List.replicate n .asking⟩ where
  entry := Or.inl rfl
  stages i s hs := by
    rw [stage_start hs]
    trivial

/-- A race in which no link can be made stays so. -/
theorem Barred.turn {refusal : IoFault} (h : Barred l source initial refusal r)
    (hrefused : linkText source = .error refusal) (i : ℕ) :
    Barred l source initial refusal (r.turn l source i) := by
  cases hi : r.stages[i]? with
  | none => rwa [turn_of_none hi]
  | some s =>
    obtain ⟨hstage, hentry⟩ := (h.stages i s hi).advance hrefused h.entry
    refine ⟨by rwa [entry_turn hi], fun j t ht => ?_⟩
    rcases stage_of_turn hi ht with ⟨-, rfl⟩ | ⟨-, hj⟩
    · exact hstage
    · exact h.stages j t hj

/-! ## Two repairs -/

/-- What ties two repairs to each other. -/
structure Paired (source : Path) (initial : Option Entry) (r : Race) : Prop where
  made : Layout.leadsTo source r.entry →
    Layout.leadsTo source initial ∨
      ∃ (i : ℕ) (status : LinkStatus), r.stages[i]? = some (.returned (.ok status))
  alone : ∀ (i : ℕ) (previous : Option Path), r.stages[i]? = some (.checking previous) →
    Layout.leadsTo source r.entry ∧
      ∀ (j : ℕ) (t : Stage), j ≠ i → r.stages[j]? = some t → ∃ result, t = .returned result
  calm : ∀ (i : ℕ) (f : Fault), r.stages[i]? ≠ some (.returned (.error f))

lemma paired_start (n : ℕ) : Paired source initial ⟨initial, List.replicate n .asking⟩ where
  made h := Or.inl h
  alone i previous h := by cases stage_start h
  calm i f h := by cases stage_start h

/-- What a repair that is about to make the link finds there, it finds made. -/
lemma Sound.right_of_making (h : Sound l source initial r) {previous : Option Path}
    (hi : r.stages[i]? = some (.making previous)) (hsome : r.entry ≠ none) :
    Layout.leadsTo source r.entry := by
  rcases h.gone i _ hi trivial with he | he
  · exact absurd he hsome
  · rw [he]
    exact Layout.leadsTo_link_self source

/-- The other repair has made the link, and is over, if one that is about to make it finds it made.
-/
lemma Paired.others_returned (h : Paired source initial r) (hsound : Sound l source initial r)
    (htwo : r.stages.length ≤ 2) {previous : Option Path}
    (hi : r.stages[i]? = some (.making previous)) (hright : Layout.leadsTo source r.entry)
    {j : ℕ} {t : Stage} (hj : j ≠ i) (ht : r.stages[j]? = some t) :
    ∃ result, t = .returned result := by
  rcases h.made hright with hinitial | ⟨o, status, ho⟩
  · cases (hsound.right hinitial).2 i _ hi
  · have hoi : o ≠ i := by
      rintro rfl
      cases hi.symm.trans ho
    have hlt := (List.getElem?_eq_some_iff.mp hi).1
    have hjlt := (List.getElem?_eq_some_iff.mp ht).1
    have holt := (List.getElem?_eq_some_iff.mp ho).1
    obtain rfl : j = o := by omega
    exact ⟨_, Option.some.inj (ht.symm.trans ho)⟩

/-- What holds of two repairs still holds after a turn of one of them. -/
theorem Paired.turn (h : Paired source initial r) (hsound : Sound l source initial r)
    (haccepted : linkText source = .ok source.text) (htwo : r.stages.length ≤ 2) (i : ℕ) :
    Paired source initial (r.turn l source i) := by
  cases hi : r.stages[i]? with
  | none => rwa [turn_of_none hi]
  | some s =>
    have hself : (r.turn l source i).stages[i]? = some (s.advance l source r.entry).1 :=
      stages_turn_self hi
    refine ⟨?made, ?alone, ?calm⟩
    case made =>
      intro hright
      by_cases he : Layout.leadsTo source r.entry
      · refine (h.made he).imp_right fun ⟨j, status, hj⟩ => ?_
        by_cases hji : j = i
        · rw [hji, hi, Option.some.injEq] at hj
          exact ⟨i, status, by rw [hself, hj]; rfl⟩
        · exact ⟨j, status, (stages_turn_of_ne hji).trans hj⟩
      · rw [entry_turn hi] at hright
        obtain ⟨status, hreturned⟩ := Stage.returned_of_right he hright
        exact Or.inr ⟨i, status, by rw [hself, hreturned]⟩
    case alone =>
      intro k previous hk
      rcases stage_of_turn hi hk with ⟨rfl, hs⟩ | ⟨hki, hk⟩
      · -- the repair could not make the link, since the other one has made it
        obtain ⟨rfl, hsome, hsame⟩ := Stage.checking_advance hs.symm
        have hright := hsound.right_of_making hi hsome
        refine ⟨by rw [entry_turn hi, hsame]; exact hright, fun j t hj ht => ?_⟩
        rw [stages_turn_of_ne hj] at ht
        exact h.others_returned hsound htwo hi hright hj ht
      · -- the other one was already checking, so that this one has nothing left to do
        obtain ⟨hright, hothers⟩ := h.alone k previous hk
        obtain ⟨result, rfl⟩ := hothers i s (Ne.symm hki) hi
        refine ⟨by rw [entry_turn hi]; exact hright, fun j t hj ht => ?_⟩
        rcases stage_of_turn hi ht with ⟨-, ht⟩ | ⟨-, ht⟩
        · exact ⟨result, ht⟩
        · exact hothers j t hj ht
    case calm =>
      intro j f hf
      rcases stage_of_turn hi hf with ⟨-, hs⟩ | ⟨-, hj⟩
      · rcases Stage.fault_advance hs.symm with
          hs | ⟨refusal, hrefused, -⟩ | ⟨⟨previous, hs⟩, hwrong, -⟩
        · exact h.calm i f (hs ▸ hi)
        · cases haccepted.symm.trans hrefused
        · exact hwrong (h.alone i previous (hs ▸ hi)).1
      · exact h.calm j f hj

/-! ## Schedules -/

/-- The race after the turns of a schedule. -/
def after (l : Layout) (source : Path) (r : Race) (schedule : List ℕ) : Race :=
  schedule.foldl (turn l source) r

lemma after_append (s t : List ℕ) :
    r.after l source (s ++ t) = (r.after l source s).after l source t := List.foldl_append ..

/-- What every turn keeps, a schedule of turns keeps. -/
lemma after_of_turn {P : Race → Prop} (hturn : ∀ r i, P r → P (r.turn l source i)) (h : P r)
    (schedule : List ℕ) : P (r.after l source schedule) := by
  induction schedule generalizing r with
  | nil => exact h
  | cons i schedule ih => exact ih (hturn r i h)

lemma length_stages_after (schedule : List ℕ) :
    (r.after l source schedule).stages.length = r.stages.length :=
  after_of_turn (P := (·.stages.length = r.stages.length))
    (fun _ _ h => length_stages_turn.trans h) rfl schedule

/-- A race that is sound stays sound, -/
theorem Sound.after (h : Sound l source initial r) (schedule : List ℕ) :
    Sound l source initial (r.after l source schedule) :=
  after_of_turn (fun _ i h => h.turn i) h schedule

/-- one that is barred stays barred, -/
theorem Barred.after {refusal : IoFault} (h : Barred l source initial refusal r)
    (hrefused : linkText source = .error refusal) (schedule : List ℕ) :
    Barred l source initial refusal (r.after l source schedule) :=
  after_of_turn (fun _ i h => h.turn hrefused i) h schedule

/-- a fresh entry stays fresh, -/
lemma fresh_after (h : Fresh source r.entry) (schedule : List ℕ) :
    Fresh source (r.after l source schedule).entry :=
  after_of_turn (P := (Fresh source ·.entry)) (fun _ i h => fresh_turn h i) h schedule

/-- and two repairs stay paired, in whichever order they have their turns. -/
theorem Paired.after (h : Paired source initial r) (hsound : Sound l source initial r)
    (haccepted : linkText source = .ok source.text) (htwo : r.stages.length ≤ 2)
    (schedule : List ℕ) : Paired source initial (r.after l source schedule) := by
  -- that a turn keeps two repairs paired rests on what any number of them keep
  suffices hall : Paired source initial (r.after l source schedule) ∧
      Sound l source initial (r.after l source schedule) ∧
      (r.after l source schedule).stages.length ≤ 2 from hall.1
  refine after_of_turn (P := fun r => Paired source initial r ∧ Sound l source initial r ∧
    r.stages.length ≤ 2) (fun r i ⟨hr, hsr, hlen⟩ => ?_) ⟨h, hsound, htwo⟩ schedule
  exact ⟨hr.turn hsr haccepted hlen i, hsr.turn i, by rwa [length_stages_turn]⟩

end Race
end Caretaker.Repair

import Caretaker.Proofs.Path.Components

/-!
# Where paths lead, and their normal forms

Read from left to right, without looking at any file, a path goes up to some parents of its start
and then down along names. Its normal form has the same names, and in front of them two dots for an
odd number of parents and nothing for an even one: each second pair of dots takes the first one
away. From the root there are no parents to go to, so the normal form leads to the same place.
-/

namespace Caretaker.Path

variable {p q : Path}

/-! ## Ways -/

/-- A way that does not turn back: up to a number of parents, and then down along names. -/
structure Way where
  parents : ℕ
  /-- The last one first. -/
  names : List Text
deriving DecidableEq

/-- Go on along a component. Two dots take back a name; where there is none, they lead to one more
parent. -/
def Way.go (w : Way) : Component → Way
  | .root | .here => w
  | .up =>
    match w.names with
    | [] => ⟨w.parents + 1, []⟩
    | _ :: r => ⟨w.parents, r⟩
  | .name n => ⟨w.parents, n :: w.names⟩

/-- The way of a path. -/
def way (p : Path) : Way := p.components.foldl Way.go ⟨0, []⟩

/-- Go on from a place along a component. The root starts anew, and two dots at the root lead
nowhere else. -/
def descend (names : List Text) : Component → List Text
  | .root => []
  | .here => names
  | .up => names.tail
  | .name n => n :: names

/-- The place to which a path leads from another place: the names from the root down, the last one
first. -/
def placeFrom (base : List Text) (p : Path) : List Text := p.components.foldl descend base

/-- The place to which a path leads from the root. -/
def place (p : Path) : List Text := p.placeFrom []

/-- The stack of names to which the components of a way collapse. -/
def Way.stack (w : Way) : List Text := w.names ++ if Odd w.parents then [['.', '.']] else []

/-! ### What one component does, and all of them -/

/-- Collapsing a component is a step of the way, -/
lemma Way.collapse_stack (w : Way) (c : Component) : collapse w.stack c = (w.go c).stack := by
  obtain ⟨parents, names⟩ := w
  cases c with
  | root => rfl
  | here => rfl
  | name n => rfl
  | up =>
    cases names with
    | cons n names => rfl
    | nil =>
      -- the dots that have been kept are taken for a name
      by_cases hodd : Odd parents
      · have heven : ¬ Odd (parents + 1) := by rwa [Nat.odd_add_one, not_not]
        simp [stack, go, collapse, hodd, heven]
      · have heven : Odd (parents + 1) := by rwa [Nat.odd_add_one]
        simp [stack, go, collapse, hodd, heven]

/-- and collapsing a path is the whole way. -/
lemma Way.foldl_collapse (w : Way) (cs : List Component) :
    cs.foldl collapse w.stack = (cs.foldl go w).stack := by
  induction cs generalizing w with
  | nil => rfl
  | cons c cs ih => rw [List.foldl_cons, List.foldl_cons, collapse_stack, ih]

/-- A step of the way descends among its names, -/
lemma Way.names_go (w : Way) {c : Component} (hc : c ≠ .root) :
    (w.go c).names = descend w.names c := by
  obtain ⟨parents, names⟩ := w
  cases c with
  | root => exact absurd rfl hc
  | here => rfl
  | name n => rfl
  | up => cases names <;> rfl

/-- and so does the whole way. -/
lemma Way.names_foldl (w : Way) {cs : List Component} (hcs : .root ∉ cs) :
    (cs.foldl go w).names = cs.foldl descend w.names := by
  induction cs generalizing w with
  | nil => rfl
  | cons c cs ih =>
    obtain ⟨hc, hcs⟩ := not_or.mp (mt List.mem_cons.mpr hcs)
    rw [List.foldl_cons, List.foldl_cons, ih _ hcs, names_go w (Ne.symm hc)]

/-- A way keeps to the names that there are. -/
lemma Way.forall_names_foldl {P : Text → Prop} {w : Way} {cs : List Component}
    (hw : ∀ n ∈ w.names, P n) (hcs : ∀ n, .name n ∈ cs → P n) :
    ∀ n ∈ (cs.foldl go w).names, P n := by
  induction cs generalizing w with
  | nil => exact hw
  | cons c cs ih =>
    refine ih ?_ fun n hn => hcs n (List.mem_cons_of_mem c hn)
    cases c with
    | root => exact hw
    | here => exact hw
    | up =>
      obtain ⟨parents, names⟩ := w
      cases names with
      | nil => exact hw
      | cons m names => exact fun n hn => hw n (List.mem_cons_of_mem m hn)
    | name m =>
      intro n hn
      rcases List.mem_cons.mp hn with rfl | hn
      · exact hcs n (List.mem_cons_self ..)
      · exact hw n hn

/-! ## Ways and places of written paths -/

lemma root_ne_ofMoving (s : Text) : .root ≠ Component.ofMoving s := by
  unfold Component.ofMoving
  split_ifs
  · exact nofun
  · exact nofun

lemma root_not_mem_map (segments : List Text) : .root ∉ segments.map Component.ofMoving := by
  intro hmem
  obtain ⟨s, -, hs⟩ := List.mem_map.mp hmem
  exact root_ne_ofMoving s hs.symm

lemma way_eq (p : Path) : p.way = (p.moving.map Component.ofMoving).foldl Way.go ⟨0, []⟩ := by
  unfold way
  by_cases hp : p.isAbsolute
  · rw [components_eq_of_isAbsolute hp]
    rfl
  · rw [components_eq_of_not_isAbsolute hp]
    split_ifs
    · rfl
    · rfl

/-- The place of a path is where its moving segments descend to. -/
lemma placeFrom_eq (base : List Text) (p : Path) : p.placeFrom base =
    (p.moving.map Component.ofMoving).foldl descend (if p.isAbsolute then [] else base) := by
  unfold placeFrom
  by_cases hp : p.isAbsolute
  · rw [components_eq_of_isAbsolute hp, if_pos hp]
    rfl
  · rw [components_eq_of_not_isAbsolute hp, if_neg hp]
    split_ifs
    · rfl
    · rfl

/-- From the root a path leads down the names of its way. -/
lemma place_eq (p : Path) : p.place = p.way.names := by
  unfold place
  rw [placeFrom_eq, ite_self, way_eq, Way.names_foldl _ (root_not_mem_map _)]

lemma isName_of_mem_way {n : Text} (h : n ∈ p.way.names) : IsName n := by
  have hall : ∀ n ∈ p.way.names, IsName n := by
    rw [way_eq]
    refine Way.forall_names_foldl (fun n hn => absurd hn List.not_mem_nil) ?_
    intro n hn
    obtain ⟨s, hs, hsn⟩ := List.mem_map.mp hn
    rw [Component.ofMoving] at hsn
    split_ifs at hsn with hdots
    obtain rfl : s = n := Component.name.inj hsn
    obtain ⟨hsegment, hdot⟩ := isMoving_of_mem_moving hs
    exact ⟨hsegment, hdot, hdots⟩
  exact hall n h

lemma dots_not_mem_way (p : Path) : ['.', '.'] ∉ p.way.names :=
  fun h => (isName_of_mem_way h).ne_dots rfl

/-! ## Paths put together from segments -/

section
variable {names : List Text} (absolute : Bool) (h : ∀ n ∈ names, IsMoving n)
include h

lemma isAbsolute_ofNames : (ofNames absolute names).isAbsolute = absolute := by
  cases absolute with
  | true => rfl
  | false =>
    cases names with
    | nil => rfl
    | cons n names =>
      have hn : IsSegment n := (h n (List.mem_cons_self ..)).1
      cases n with
      | nil => exact absurd rfl hn.ne_nil
      | cons c n =>
        have hc : c ≠ '/' := fun hc => hn.slash_not_mem (hc ▸ List.mem_cons_self ..)
        cases names <;> simp [isAbsolute, ofNames, hc]

lemma segments_ofNames_of_isMoving : (ofNames absolute names).segments = names :=
  segments_ofNames absolute fun n hn => (h n hn).1

lemma way_ofNames :
    (ofNames absolute names).way = (names.map Component.ofMoving).foldl Way.go ⟨0, []⟩ := by
  have hmoving : (ofNames absolute names).moving = names := by
    unfold moving
    rw [segments_ofNames_of_isMoving absolute h]
    exact List.filter_eq_self.mpr fun n hn => by simpa using (h n hn).2
  rw [way_eq, hmoving]

end

/-! ## Normal forms -/

/-- The normal form is put together from the stack of the way. -/
lemma normalize_eq (p : Path) : p.normalize = ofNames p.isAbsolute p.way.stack.reverse := by
  have hcollapse := Way.foldl_collapse ⟨0, []⟩ p.components
  unfold normalize way
  rw [← hcollapse]
  rfl

lemma isMoving_of_mem_stack {n : Text} (h : n ∈ p.way.stack.reverse) : IsMoving n := by
  rcases List.mem_append.mp (List.mem_reverse.mp h) with hn | hn
  · have hname := isName_of_mem_way hn
    exact ⟨hname.toIsSegment, hname.ne_dot⟩
  · split_ifs at hn
    · rw [List.mem_singleton.mp hn]
      exact ⟨⟨by decide, by decide⟩, by decide⟩
    · cases hn

lemma isAbsolute_normalize_eq (p : Path) : p.normalize.isAbsolute = p.isAbsolute := by
  rw [normalize_eq]
  exact isAbsolute_ofNames _ fun n => isMoving_of_mem_stack

lemma segments_normalize (p : Path) : p.normalize.segments = p.way.stack.reverse := by
  rw [normalize_eq]
  exact segments_ofNames_of_isMoving _ fun n => isMoving_of_mem_stack

lemma foldl_go_names (w : Way) (names : List Text) (h : ∀ n ∈ names, n ≠ ['.', '.']) :
    (names.map Component.ofMoving).foldl Way.go w = ⟨w.parents, names.reverse ++ w.names⟩ := by
  induction names generalizing w with
  | nil => rfl
  | cons n names ih =>
    have hn : Component.ofMoving n = .name n := if_neg (h n (List.mem_cons_self ..))
    rw [List.map_cons, List.foldl_cons, ih _ fun m hm => h m (List.mem_cons_of_mem n hm), hn]
    simp [Way.go]

/-- A normal form has the names of the path, and one parent or none. -/
theorem way_normalize (p : Path) : p.normalize.way = ⟨p.way.parents % 2, p.way.names⟩ := by
  have hnames : ∀ n ∈ p.way.names.reverse, n ≠ ['.', '.'] := by
    intro n hn
    exact (isName_of_mem_way (List.mem_reverse.mp hn)).ne_dots
  rw [normalize_eq, way_ofNames _ fun n => isMoving_of_mem_stack]
  unfold Way.stack
  split_ifs with hodd
  · rw [List.reverse_append, List.map_append, List.foldl_append, foldl_go_names _ _ hnames,
      Nat.odd_iff.mp hodd]
    simp [Way.go, Component.ofMoving]
  · rw [List.append_nil, foldl_go_names _ _ hnames, Nat.even_iff.mp (Nat.not_odd_iff_even.mp hodd)]
    simp

/-- A path in normal form is its own normal form. -/
theorem normalize_normalize (p : Path) : p.normalize.normalize = p.normalize := by
  -- one parent or none is what its parity stands for
  have hstack : (⟨p.way.parents % 2, p.way.names⟩ : Way).stack = p.way.stack := by
    simp [Way.stack, Nat.odd_iff]
  rw [normalize_eq p.normalize, isAbsolute_normalize_eq, way_normalize, hstack, ← normalize_eq]

/-- The normal form leads to the same place. -/
theorem place_normalize (p : Path) : p.normalize.place = p.place := by
  rw [place_eq, place_eq, way_normalize]

/-- Two ways collapse to the same stack if their numbers of parents are both odd or both even: two
dots are none of the names. -/
theorem stack_eq_iff : p.way.stack = q.way.stack ↔
    p.way.names = q.way.names ∧ (Odd p.way.parents ↔ Odd q.way.parents) := by
  constructor
  · intro heq
    unfold Way.stack at heq
    have hp := dots_not_mem_way p
    have hq := dots_not_mem_way q
    -- two dots at the bottom of one stack alone would be a name in the other
    by_cases hpodd : Odd p.way.parents
    · by_cases hqodd : Odd q.way.parents
      · rw [if_pos hpodd, if_pos hqodd] at heq
        exact ⟨List.append_cancel_right heq, iff_of_true hpodd hqodd⟩
      · rw [if_pos hpodd, if_neg hqodd, List.append_nil] at heq
        exact absurd (heq ▸ List.mem_append_right _ (List.mem_singleton_self _)) hq
    · by_cases hqodd : Odd q.way.parents
      · rw [if_neg hpodd, if_pos hqodd, List.append_nil] at heq
        exact absurd (heq ▸ List.mem_append_right _ (List.mem_singleton_self _)) hp
      · rw [if_neg hpodd, if_neg hqodd, List.append_nil, List.append_nil] at heq
        exact ⟨heq, iff_of_false hpodd hqodd⟩
  · rintro ⟨hnames, hodd⟩
    unfold Way.stack
    rw [hnames]
    simp only [hodd]

/-- A normal form consists of the names of the way, behind two dots if the number of parents is
odd. So two normal forms are the same exactly if both paths start at the root or neither does, their
ways have the same names, and their numbers of parents are both odd or both even. -/
theorem normalize_eq_iff (p q : Path) :
    (p.normalize.segments =
        (if Odd p.way.parents then [['.', '.']] else []) ++ p.way.names.reverse ∧
      ∀ n ∈ p.way.names, IsName n) ∧
    (p.normalize = q.normalize ↔ p.isAbsolute = q.isAbsolute ∧ p.way.names = q.way.names ∧
      (Odd p.way.parents ↔ Odd q.way.parents)) := by
  refine ⟨⟨?_, fun n => isName_of_mem_way⟩, ?_⟩
  · rw [segments_normalize]
    unfold Way.stack
    rw [List.reverse_append]
    split_ifs
    · rfl
    · rfl
  · constructor
    · intro heq
      have habsolute := congrArg isAbsolute heq
      have hsegments := congrArg segments heq
      rw [isAbsolute_normalize_eq, isAbsolute_normalize_eq] at habsolute
      rw [segments_normalize, segments_normalize, List.reverse_inj] at hsegments
      exact ⟨habsolute, stack_eq_iff.mp hsegments⟩
    · rintro ⟨habsolute, hway⟩
      rw [normalize_eq, normalize_eq, habsolute, stack_eq_iff.mpr hway]

/-- The parent of the root is the root, but its normal form keeps the dots, unless there are two. -/
theorem normalize_above_root :
    (⟨"/..".toList⟩ : Path).place = (⟨"/".toList⟩ : Path).place ∧
    (⟨"/..".toList⟩ : Path).normalize ≠ (⟨"/".toList⟩ : Path).normalize ∧
    (⟨"/../..".toList⟩ : Path).normalize = (⟨"/".toList⟩ : Path).normalize := by
  refine ⟨by decide, ?_, ?_⟩
  · intro heq
    obtain ⟨-, -, hodd⟩ := (normalize_eq_iff ⟨"/..".toList⟩ ⟨"/".toList⟩).2.mp heq
    exact absurd hodd (by decide)
  · exact (normalize_eq_iff ⟨"/../..".toList⟩ ⟨"/".toList⟩).2.mpr (by decide)

end Caretaker.Path

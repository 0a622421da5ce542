import Caretaker.FileSystem.Basic
import Mathlib.Data.List.Basic

/-!
# Segments of a written path

A path that is put together from names with `ofNames` is cut back into the same names: they are its
segments, and the steps that a walk along it takes. Joining one more name adds one more step.
-/

namespace Caretaker.Path

/-! ## Cutting at slashes -/

lemma splitSlashes_ne_nil (t : Text) : splitSlashes t ≠ [] := by
  fun_cases splitSlashes t <;> simp_all

/-- No stretch between slashes holds a slash. -/
lemma slash_not_mem_of_mem_splitSlashes {s t : Text} (h : s ∈ splitSlashes t) : '/' ∉ s := by
  fun_induction splitSlashes t generalizing s with
  | case1 =>
    rw [List.mem_singleton.mp h]
    exact List.not_mem_nil
  | case2 r ih =>
    rcases List.mem_cons.mp h with rfl | hr
    · exact List.not_mem_nil
    · exact ih hr
  | case3 c r hc hs => exact absurd hs (splitSlashes_ne_nil r)
  | case4 c r hc s' ss hs ih =>
    rw [hs] at ih
    rcases List.mem_cons.mp h with rfl | hr
    · have hne : '/' ≠ c := fun he => hc he.symm
      simp only [List.mem_cons, not_or]
      exact ⟨hne, ih (List.mem_cons_self ..)⟩
    · exact ih (List.mem_cons_of_mem _ hr)

/-- A slash cuts, whatever stands around it. -/
lemma splitSlashes_append_slash (s t : Text) :
    splitSlashes (s ++ '/' :: t) = splitSlashes s ++ splitSlashes t := by
  fun_induction splitSlashes s with
  | case1 => rfl
  | case2 r ih => rw [List.cons_append, splitSlashes, ih, List.cons_append]
  | case3 c r hc hs => exact absurd hs (splitSlashes_ne_nil r)
  | case4 c r hc s' ss hs ih =>
    rw [hs] at ih
    rw [List.cons_append, splitSlashes, ih]
    · rfl
    · exact hc

lemma splitSlashes_of_not_mem {s : Text} (hs : '/' ∉ s) : splitSlashes s = [s] := by
  induction s with
  | nil => rfl
  | cons c r ih =>
    simp only [List.mem_cons, not_or] at hs
    rw [splitSlashes, ih hs.2]
    exact fun he => hs.1 he.symm

lemma splitSlashes_intercalate {names : List Text} (hne : names ≠ [])
    (h : ∀ n ∈ names, '/' ∉ n) : splitSlashes (['/'].intercalate names) = names := by
  induction names with
  | nil => exact absurd rfl hne
  | cons n rest ih =>
    have hn : '/' ∉ n := h n (List.mem_cons_self ..)
    cases rest with
    | nil => rw [List.intercalate_singleton, splitSlashes_of_not_mem hn]
    | cons m rest =>
      have hrest := ih (by simp) fun k hk => h k (List.mem_cons_of_mem _ hk)
      rw [List.intercalate_cons_cons, List.append_assoc, List.singleton_append,
        splitSlashes_append_slash, splitSlashes_of_not_mem hn, hrest]
      rfl

/-! ## Names -/

/-- A stretch that a path can have: neither empty nor cut by a slash. -/
structure IsSegment (t : Text) : Prop where
  ne_nil : t ≠ []
  slash_not_mem : '/' ∉ t

/-- A stretch that a walk goes into: a segment, but no dots. -/
structure IsName (t : Text) : Prop extends IsSegment t where
  ne_dot : t ≠ ['.']
  ne_dots : t ≠ ['.', '.']

lemma slash_not_mem_of_mem_segments {p : Path} {s : Text} (h : s ∈ p.segments) : '/' ∉ s :=
  slash_not_mem_of_mem_splitSlashes (List.mem_filter.mp h).1

lemma ne_nil_of_mem_segments {p : Path} {s : Text} (h : s ∈ p.segments) : s ≠ [] := by
  have hs := (List.mem_filter.mp h).2
  simpa using hs

lemma isSegment_of_mem_segments {p : Path} {s : Text} (h : s ∈ p.segments) : IsSegment s :=
  ⟨ne_nil_of_mem_segments h, slash_not_mem_of_mem_segments h⟩

/-- A path put together from segments has these segments. -/
lemma segments_ofNames {names : List Text} (absolute : Bool) (h : ∀ n ∈ names, IsSegment n) :
    (ofNames absolute names).segments = names := by
  have hcut : (splitSlashes (['/'].intercalate names)).filter (!·.isEmpty) = names := by
    by_cases hne : names = []
    · rw [hne]
      rfl
    · rw [splitSlashes_intercalate hne fun n hn => (h n hn).slash_not_mem]
      refine List.filter_eq_self.mpr fun n hn => ?_
      simpa using (h n hn).ne_nil
  cases absolute with
  | false => exact hcut
  | true => exact hcut

lemma intercalate_append_singleton {names : List Text} (hne : names ≠ []) (n : Text) :
    ['/'].intercalate (names ++ [n]) = ['/'].intercalate names ++ '/' :: n := by
  induction names with
  | nil => exact absurd rfl hne
  | cons m rest ih =>
    cases rest with
    | nil => simp
    | cons k rest =>
      rw [List.cons_append, List.cons_append, List.intercalate_cons_cons, ← List.cons_append,
        ih (by simp), List.intercalate_cons_cons]
      simp only [List.append_assoc]

/-- A path put together from segments does not end with a slash. -/
lemma getLast?_intercalate {names : List Text} (hne : names ≠ [])
    (h : ∀ n ∈ names, IsSegment n) :
    ∃ c, (['/'].intercalate names).getLast? = some c ∧ c ≠ '/' := by
  induction names with
  | nil => exact absurd rfl hne
  | cons n rest ih =>
    cases rest with
    | nil =>
      have hn := h n (List.mem_cons_self ..)
      rw [List.intercalate_singleton]
      refine ⟨n.getLast hn.ne_nil, List.getLast?_eq_some_getLast hn.ne_nil, fun hc => ?_⟩
      exact hn.slash_not_mem (hc ▸ List.getLast_mem hn.ne_nil)
    | cons m rest =>
      obtain ⟨c, hc, hne⟩ := ih (by simp) fun k hk => h k (List.mem_cons_of_mem _ hk)
      refine ⟨c, ?_, hne⟩
      rw [List.intercalate_cons_cons, List.getLast?_append, hc]
      rfl

/-- Joining a segment to a path from the root adds it behind the others. -/
lemma join_ofNames {names : List Text} {n : Text} (h : ∀ m ∈ names, IsSegment m)
    (hn : IsSegment n) : (ofNames true names).join n = ofNames true (names ++ [n]) := by
  have hhead : n.head? ≠ some '/' := fun hc => hn.slash_not_mem (List.mem_of_mem_head? hc)
  rw [join, if_neg hhead]
  by_cases hne : names = []
  · subst hne
    simp [ofNames]
  · obtain ⟨c, hc, hslash⟩ := getLast?_intercalate hne h
    have hlast : (ofNames true names).text.getLast? = some c := by
      simp only [ofNames, if_true, List.getLast?_append, hc]
      rfl
    -- It does not end with a slash, so `join` puts one in between.
    rw [if_neg]
    · simp only [ofNames, if_true, intercalate_append_singleton hne, List.append_assoc]
    · rw [hlast]
      simp [ofNames, hslash]

end Caretaker.Path

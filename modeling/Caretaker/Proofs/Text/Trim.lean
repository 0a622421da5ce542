import Caretaker.Text
import Mathlib

/-!
# Trimming

Trimming takes away the blanks at both ends of a text and nothing else. What is left is tight: it is
empty, or a character that is no blank stands at either end of it.
-/

namespace Caretaker.Text

variable {l r s t blanks : Text} {c : Char}

/-! ## Tight texts -/

/-- No blank stands at either end. -/
structure Tight (s : Text) : Prop where
  head : ∀ c ∈ s.head?, ¬ isBlank c
  last : ∀ c ∈ s.getLast?, ¬ isBlank c

lemma tight_of_forall (h : ∀ c ∈ s, ¬ isBlank c) : Tight s where
  head c hc := h c (List.mem_of_head? hc)
  last c hc := h c (List.mem_of_getLast? hc)

/-- Blanks between two tight texts are not at the ends. -/
lemma Tight.between (hl : Tight l) (hlne : l ≠ []) (hr : Tight r) (hrne : r ≠ []) (s : Text) :
    Tight (l ++ s ++ r) where
  head := by
    cases l with
    | nil => exact absurd rfl hlne
    | cons c l => exact hl.head
  last := by
    intro c hc
    rw [List.getLast?_append_of_ne_nil _ hrne] at hc
    exact hr.last c hc

lemma Tight.append (hl : Tight l) (hr : Tight r) : Tight (l ++ r) := by
  by_cases hlne : l = []
  · rwa [hlne, List.nil_append]
  by_cases hrne : r = []
  · rwa [hrne, List.append_nil]
  simpa using hl.between hlne hr hrne []

/-! ## The end of a text -/

/-- What stands behind a character that is no blank is trimmed by itself. -/
lemma trimEnd_append_cons (s r : Text) (hc : ¬ isBlank c) :
    trimEnd (s ++ c :: r) = s ++ c :: trimEnd r := by
  have hreverse : (s ++ c :: r).reverse = r.reverse ++ c :: s.reverse := by simp
  unfold trimEnd
  rw [hreverse, List.dropWhile_append]
  split_ifs with hall
  · have hnil : r.reverse.dropWhile isBlank = [] := by simpa using hall
    rw [List.dropWhile_cons_of_neg hc, hnil]
    simp
  · simp

lemma trimEnd_cons (r : Text) (hc : ¬ isBlank c) : trimEnd (c :: r) = c :: trimEnd r :=
  trimEnd_append_cons [] r hc

/-- Trimming the end takes nothing but blanks away. -/
lemma exists_trimEnd_append (s : Text) :
    ∃ blanks, s = trimEnd s ++ blanks ∧ ∀ c ∈ blanks, isBlank c := by
  have hsplit := List.takeWhile_append_dropWhile (p := isBlank) (l := s.reverse)
  refine ⟨(s.reverse.takeWhile isBlank).reverse, ?_, ?_⟩
  · unfold trimEnd
    rw [← List.reverse_append, hsplit, List.reverse_reverse]
  · intro c hc
    exact List.mem_takeWhile_imp (List.mem_reverse.mp hc)

/-- The first character stays in place, unless it is a blank. -/
lemma head?_trimEnd_iff (hc : ¬ isBlank c) : (trimEnd s).head? = some c ↔ s.head? = some c := by
  constructor
  · intro h
    obtain ⟨blanks, hs, -⟩ := exists_trimEnd_append s
    rw [hs, List.head?_append, h]
    rfl
  · intro h
    obtain ⟨r, rfl⟩ := List.head?_eq_some_iff.mp h
    rw [trimEnd_cons r hc]
    rfl

/-! ## The start of a text -/

/-- A text is blank, or trimming it at the front leaves something. -/
lemma trimStart_eq_nil_iff : trimStart s = [] ↔ ∀ c ∈ s, isBlank c := List.dropWhile_eq_nil_iff

lemma not_isBlank_of_head?_trimStart (h : (trimStart s).head? = some c) : ¬ isBlank c := by
  have hhead := List.head?_dropWhile_not isBlank s
  unfold trimStart at h
  rw [h] at hhead
  simpa using hhead

/-! ## Both ends -/

/-- What is trimmed is tight, -/
lemma tight_trim (s : Text) : Tight (trim s) where
  head := by
    intro c hc
    obtain ⟨blanks, hs, -⟩ := exists_trimEnd_append (trimStart s)
    refine not_isBlank_of_head?_trimStart (s := s) ?_
    rw [hs, List.head?_append, ← trim, hc]
    rfl
  last := by
    intro c hc
    unfold trim trimEnd at hc
    rw [List.getLast?_reverse] at hc
    exact not_isBlank_of_head?_trimStart hc

/-- and what is tight is left as it is. -/
lemma trim_eq_self (h : Tight s) : trim s = s := by
  have hstart : trimStart s = s := by
    cases s with
    | nil => rfl
    | cons c s => exact List.dropWhile_cons_of_neg (h.head c rfl)
  unfold trim trimEnd
  rw [hstart]
  cases hrev : s.reverse with
  | nil => simp_all
  | cons c r =>
    have hc : ¬ isBlank c := h.last c (by rw [← List.head?_reverse, hrev]; rfl)
    rw [List.dropWhile_cons_of_neg hc, ← hrev, List.reverse_reverse]

lemma forall_isBlank_of_trim (h : trim s = []) : ∀ c ∈ s, isBlank c := by
  rw [← trimStart_eq_nil_iff]
  cases hstart : trimStart s with
  | nil => rfl
  | cons c r =>
    have hc : ¬ isBlank c := not_isBlank_of_head?_trimStart (by rw [hstart]; rfl)
    rw [trim, hstart, trimEnd_cons r hc] at h
    cases h

/-- A blank at the end is trimmed. -/
lemma trim_append_blank (hc : isBlank c) : trim (s ++ [c]) = trim s := by
  unfold trim trimStart trimEnd
  rw [List.dropWhile_append]
  split_ifs with hall
  · have hnil : s.dropWhile isBlank = [] := by simpa using hall
    simp [hnil, hc]
  · simp [hc]

lemma trim_append_blanks (s : Text) (ht : ∀ c ∈ t, isBlank c) : trim (s ++ t) = trim s := by
  induction t using List.reverseRecOn with
  | nil => rw [List.append_nil]
  | append_singleton t c ih =>
    have hc : isBlank c := ht c (List.mem_append_right t (List.mem_singleton_self c))
    have htrim := ih fun d hd => ht d (List.mem_append_left [c] hd)
    rw [← List.append_assoc, trim_append_blank hc, htrim]

lemma trim_trimEnd (s : Text) : trim (trimEnd s) = trim s := by
  obtain ⟨blanks, hs, hblanks⟩ := exists_trimEnd_append s
  have htrim := trim_append_blanks (trimEnd s) hblanks
  rw [← hs] at htrim
  exact htrim.symm

lemma trim_blanks_append (hblanks : ∀ c ∈ blanks, isBlank c) (s : Text) :
    trim (blanks ++ s) = trim s := by
  unfold trim trimStart
  rw [List.dropWhile_append_of_pos hblanks]

end Caretaker.Text

import Caretaker.Proofs.Environ.References
import Caretaker.Proofs.Environ.Written

/-!
# Defaults with references in them

A skeleton is written as a template. A default may hold references, and those with braces close it
too early: the first closing brace closes all that is open. So a written template is read as another
skeleton, in which no default holds a brace; it is the same skeleton exactly if none did.
-/

namespace Caretaker.Environ.Skeleton

variable {find : Lookup} {s d after : Skeleton} {t : Text}

/-! ## Writing a skeleton -/

/-- The template that a skeleton is written as. A dollar sign that stands for itself is escaped. -/
def write : Skeleton → Text
  | done => []
  | literal t rest => escapeDollars t ++ rest.write
  | bare name rest => '$' :: (name ++ rest.write)
  | braced name rest => '$' :: '{' :: (name ++ '}' :: rest.write)
  | defaulted name default rest =>
    '$' :: '{' :: (name ++ [':', '-'] ++ (default.write ++ '}' :: rest.write))

/-- What a skeleton has to meet if each part of it is to be seen in the template: text has no
backslash, and no closing brace in a default; and no character of a name follows a bare name. -/
def Writable (inDefault : Bool) : Skeleton → Prop
  | done => True
  | literal t rest => '\\' ∉ t ∧ (inDefault → '}' ∉ t) ∧ rest.Writable inDefault
  | bare name rest =>
    isName name ∧ (∀ c ∈ rest.write.head?, ¬ isNameChar c) ∧ rest.Writable inDefault
  | braced name rest => isName name ∧ rest.Writable inDefault
  | defaulted name default rest =>
    isName name ∧ default.Writable true ∧ rest.Writable inDefault

lemma write_append (s u : Skeleton) : (s.append u).write = s.write ++ u.write := by
  induction s with
  | done => rfl
  | literal t rest ih => simp only [append, write, ih, List.append_assoc]
  | bare name rest ih => simp only [append, write, ih, List.append_assoc, List.cons_append]
  | braced name rest ih => simp only [append, write, ih, List.append_assoc, List.cons_append]
  | defaulted name default rest _ ih =>
    simp only [append, write, ih, List.append_assoc, List.cons_append]

lemma write_braced_append (name : Text) (rest : Skeleton) (u : Text) :
    (braced name rest).write ++ u = ('$' :: '{' :: name) ++ '}' :: (rest.write ++ u) := by
  simp only [write, List.append_assoc, List.cons_append]

/-- A written default is opened by text without a closing brace, and closed by the brace in front of
the rest. -/
lemma write_defaulted_append (name : Text) (default rest : Skeleton) (u : Text) :
    (defaulted name default rest).write ++ u =
      ('$' :: '{' :: (name ++ [':', '-'])) ++ (default.write ++ '}' :: (rest.write ++ u)) := by
  simp only [write, List.append_assoc, List.cons_append]

lemma brace_not_mem_escapeDollars (h : '}' ∉ t) : '}' ∉ escapeDollars t := by
  intro hmem
  obtain ⟨c, hc, hmem⟩ := List.mem_flatMap.mp hmem
  split_ifs at hmem with hdollar
  · exact absurd hmem (by decide)
  · rw [List.mem_singleton] at hmem
    exact h (hmem ▸ hc)

lemma getLast?_ne_backslash (h : '\\' ∉ t) : t.getLast? ≠ some '\\' :=
  fun hlast => h (List.mem_of_getLast? hlast)

/-! ## Closing braces that stand for themselves -/

/-- A skeleton, then a closing brace, then another one. -/
def closing (s after : Skeleton) : Skeleton := s.append (literal ['}'] after)

lemma write_closing (s after : Skeleton) :
    (s.closing after).write = s.write ++ '}' :: after.write := write_append s _

/-- What could stand in a default can be written in front of a closing brace. -/
lemma Writable.closing (hs : s.Writable true) (hafter : after.Writable false) :
    (s.closing after).Writable false := by
  induction s with
  | done => exact ⟨by decide, nofun, hafter⟩
  | literal t rest ih => exact ⟨hs.1, nofun, ih hs.2.2⟩
  | bare name rest ih =>
    refine ⟨hs.1, fun c hc => ?_, ih hs.2.2⟩
    replace hc : c ∈ (rest.write ++ '}' :: after.write).head? := write_closing rest after ▸ hc
    rw [List.head?_append] at hc
    cases hrest : rest.write.head? with
    | none =>
      rw [hrest] at hc
      obtain rfl : '}' = c := Option.some.inj hc
      decide
    | some d =>
      rw [hrest] at hc
      exact hs.2.1 c (hrest.trans hc)
  | braced name rest ih => exact ⟨hs.1, ih hs.2⟩
  | defaulted name default rest _ ih => exact ⟨hs.1, hs.2.1, ih hs.2.2⟩

/-! ## Reading it back -/

/-- What stands before the first closing brace, where a default has been opened. All that is open
there is closed. -/
def front : Skeleton → Skeleton
  | done => done
  | literal t rest => literal t rest.front
  | bare name rest => bare name rest.front
  | braced name _ => braced name done
  | defaulted name default _ => defaulted name default.front done

/-- What stands behind the first closing brace, where a default has been opened and `after` follows
its own closing brace. -/
def behind : Skeleton → (after : Skeleton) → Skeleton
  | done, after => after
  | literal _ rest, after => rest.behind after
  | bare _ rest, after => rest.behind after
  | braced _ rest, after => rest.closing after
  | defaulted _ default rest, after => default.behind (rest.closing after)

/-- Number of parts, those of defaults included. -/
def size : Skeleton → ℕ
  | done => 0
  | literal _ rest | bare _ rest | braced _ rest => rest.size + 1
  | defaulted _ default rest => default.size + rest.size + 1

lemma size_closing (s after : Skeleton) : (s.closing after).size = s.size + after.size + 1 := by
  unfold closing
  induction s with
  | done => simp only [append, size]; omega
  | literal t rest ih => simp only [append, size, ih]; omega
  | bare name rest ih => simp only [append, size, ih]; omega
  | braced name rest ih => simp only [append, size, ih]; omega
  | defaulted name default rest _ ih => simp only [append, size, ih]; omega

lemma size_behind_le (d after : Skeleton) : (d.behind after).size ≤ d.size + after.size := by
  induction d generalizing after with
  | done => exact Nat.le_add_left _ _
  | literal t rest ih =>
    have := ih after
    simp only [behind, size]
    omega
  | bare name rest ih =>
    have := ih after
    simp only [behind, size]
    omega
  | braced name rest ih =>
    simp only [behind, size, size_closing]
    omega
  | defaulted name default rest ihd _ =>
    have := ihd (rest.closing after)
    simp only [size_closing] at this
    simp only [behind, size]
    omega

/-- The skeleton that is read where another one has been written. -/
def read : Skeleton → Skeleton
  | done => done
  | literal t rest => literal t rest.read
  | bare name rest => bare name rest.read
  | braced name rest => braced name rest.read
  | defaulted name default rest => defaulted name default.front (default.behind rest).read
termination_by s => s.size
decreasing_by
  all_goals simp only [size]
  · omega
  · omega
  · omega
  · have := size_behind_le default rest
    omega

lemma Writable.behind (hd : d.Writable true) (hafter : after.Writable false) :
    (d.behind after).Writable false := by
  induction d generalizing after with
  | done => exact hafter
  | literal t rest ih => exact ih hd.2.2 hafter
  | bare name rest ih => exact ih hd.2.2 hafter
  | braced name rest => exact hd.2.closing hafter
  | defaulted name default rest ihd => exact ihd hd.2.1 (hd.2.2.closing hafter)

/-- What is left behind the first closing brace is what the reader goes on with. -/
lemma afterBrace_write (hd : d.Writable true) (after : Skeleton) :
    afterBrace (d.write ++ '}' :: after.write) = (d.behind after).write := by
  induction d generalizing after with
  | done => rfl
  | literal t rest ih =>
    rw [write, List.append_assoc,
      afterBrace_append_of_not_mem (brace_not_mem_escapeDollars (hd.2.1 rfl)), ih hd.2.2, behind]
  | bare name rest ih =>
    have hname : '}' ∉ '$' :: name := by simpa using brace_not_mem_of_isName hd.1
    show afterBrace (('$' :: (name ++ rest.write)) ++ _) = _
    rw [← List.cons_append, List.append_assoc, afterBrace_append_of_not_mem hname, ih hd.2.2,
      behind]
  | braced name rest =>
    have hname : '}' ∉ '$' :: '{' :: name := by simpa using brace_not_mem_of_isName hd.1
    rw [write_braced_append, afterBrace_append_of_not_mem hname, behind, write_closing]
    rfl
  | defaulted name default rest ihd =>
    have hopening := brace_not_mem_opening hd.1
    have hname : '}' ∉ '$' :: '{' :: (name ++ [':', '-']) := by simpa using hopening
    rw [write_defaulted_append, afterBrace_append_of_not_mem hname, ← write_closing, ihd hd.2.1,
      behind]

/-- What follows a bare name before the closing brace follows it in the template. -/
lemma not_isNameChar_of_mem_head? (h : ∀ c ∈ t.head?, ¬ isNameChar c) (u : Text) :
    ∀ c ∈ (braceBody (t ++ '}' :: u)).head?, ¬ isNameChar c := by
  intro c hc
  cases t with
  | nil => cases hc
  | cons d t =>
    unfold braceBody at hc
    rw [List.head?_takeWhile, Option.mem_def, Option.filter_eq_some_iff] at hc
    exact h c hc.1

/-- What stands before the first closing brace is expanded by itself. -/
lemma expand_braceBody_write (hd : d.Writable true) (u : Text) :
    expand find (braceBody (d.write ++ '}' :: u)) = d.front.fill find := by
  induction d generalizing u with
  | done => exact expand_nil
  | literal t rest ih =>
    rw [write, List.append_assoc,
      braceBody_append_of_not_mem (brace_not_mem_escapeDollars (hd.2.1 rfl)),
      expand_escapeDollars (getLast?_ne_backslash hd.1), ih hd.2.2, front, fill]
  | bare name rest ih =>
    have hname : '}' ∉ '$' :: name := by simpa using brace_not_mem_of_isName hd.1
    have hhead := not_isNameChar_of_mem_head? hd.2.1 u
    show expand find (braceBody (('$' :: (name ++ rest.write)) ++ _)) = _
    rw [← List.cons_append, List.append_assoc, braceBody_append_of_not_mem hname]
    show expand find ('$' :: (name ++ _)) = _
    rw [expand_bare hd.1 hhead, ih hd.2.2, front, fill]
  | braced name rest =>
    have hname := brace_not_mem_of_isName hd.1
    have hopened : '}' ∉ '$' :: '{' :: name := by simpa using hname
    have hnone : braceBody ('}' :: (rest.write ++ '}' :: u)) = [] := rfl
    rw [write_braced_append, braceBody_append_of_not_mem hopened, hnone, List.append_nil,
      expand_unclosed hname, bracedValue_name hd.1, front, fill, fill, List.append_nil]
  | defaulted name default rest ihd =>
    have hopening := brace_not_mem_opening hd.1
    have hopened : '}' ∉ '$' :: '{' :: (name ++ [':', '-']) := by simpa using hopening
    rw [write_defaulted_append, braceBody_append_of_not_mem hopened, front, fill, fill,
      List.append_nil, ← ihd hd.2.1 (rest.write ++ '}' :: u), ← bracedValue_default hd.1]
    -- the default is cut off before its closing brace, and the end of the text closes it
    refine expand_unclosed fun hmem => ?_
    exact (List.mem_append.mp hmem).elim hopening (brace_not_mem_braceBody _)

/-- A template that a skeleton is written as is expanded as what is read there. -/
theorem expand_write (hs : s.Writable false) : expand find s.write = s.read.fill find := by
  fun_induction read s with
  | case1 => exact expand_nil
  | case2 t rest ih =>
    rw [write, expand_escapeDollars (getLast?_ne_backslash hs.1), ih hs.2.2, fill]
  | case3 name rest ih =>
    rw [write, expand_bare hs.1 hs.2.1, ih hs.2.2, fill]
  | case4 name rest ih =>
    rw [write, expand_closed (brace_not_mem_of_isName hs.1), bracedValue_name hs.1, ih hs.2, fill]
  | case5 name default rest ih =>
    have hopening := brace_not_mem_opening hs.1
    rw [write, expand_braced, braceBody_append_of_not_mem hopening,
      afterBrace_append_of_not_mem hopening, bracedValue_default hs.1,
      expand_braceBody_write hs.2.1, afterBrace_write hs.2.1, ih (hs.2.1.behind hs.2.2), fill]

/-! ## Where both are the same -/

/-- Whether a reference with braces stands in a skeleton. -/
def holdsBrace : Skeleton → Bool
  | done => false
  | literal _ rest | bare _ rest => rest.holdsBrace
  | braced .. | defaulted .. => true

/-- No default holds a reference with braces. -/
def Flat : Skeleton → Prop
  | done => True
  | literal _ rest | bare _ rest | braced _ rest => rest.Flat
  | defaulted _ default rest => ¬ default.holdsBrace ∧ rest.Flat

/-- A default without a closing brace is read as a whole, -/
lemma front_of_not_holdsBrace (h : ¬ d.holdsBrace) : d.front = d := by
  induction d with
  | done => rfl
  | literal t rest ih => rw [front, ih h]
  | bare name rest ih => rw [front, ih h]
  | braced name rest => exact absurd rfl h
  | defaulted name default rest => exact absurd rfl h

/-- and nothing of it is left behind. -/
lemma behind_of_not_holdsBrace (h : ¬ d.holdsBrace) (after : Skeleton) :
    d.behind after = after := by
  induction d with
  | done => rfl
  | literal t rest ih => exact ih h
  | bare name rest ih => exact ih h
  | braced name rest => exact absurd rfl h
  | defaulted name default rest => exact absurd rfl h

/-- A skeleton without braces in defaults is read as it was written. -/
lemma Flat.read_eq (h : s.Flat) : s.read = s := by
  fun_induction read s with
  | case1 => rfl
  | case2 t rest ih => rw [ih h]
  | case3 name rest ih => rw [ih h]
  | case4 name rest ih => rw [ih h]
  | case5 name default rest ih =>
    rw [behind_of_not_holdsBrace h.1] at ih
    rw [behind_of_not_holdsBrace h.1, front_of_not_holdsBrace h.1, ih h.2]

lemma fill_closing (find : Lookup) (s after : Skeleton) :
    (s.closing after).fill find = s.fill find ++ '}' :: after.fill find := fill_append find s _

/-- What is left behind the first closing brace is longer than what follows the default by a closing
brace at least, if the default holds a reference with braces. -/
lemma length_fill_behind (find : Lookup) (d after : Skeleton) :
    (after.fill find).length + d.holdsBrace.toNat ≤ ((d.behind after).fill find).length := by
  induction d generalizing after with
  | done => exact Nat.le_refl _
  | literal t rest ih => exact ih after
  | bare name rest ih => exact ih after
  | braced name rest =>
    simp only [behind, holdsBrace, fill_closing, List.length_append, List.length_cons,
      Bool.toNat_true]
    omega
  | defaulted name default rest ihd =>
    have hd := ihd (rest.closing after)
    rw [fill_closing, List.length_append, List.length_cons] at hd
    simp only [behind, holdsBrace, Bool.toNat_true]
    omega

/-- A value stands for all defaults, or each default stands for itself. -/
lemma valueOr_or (value : Option Text) :
    (∃ v, ∀ default, valueOr value default = v) ∨ ∀ default, valueOr value default = default := by
  unfold valueOr
  cases value.filter (!·.isEmpty) with
  | some v => exact Or.inl ⟨v, fun _ => rfl⟩
  | none => exact Or.inr fun _ => rfl

/-- If what is read is longer where the default is taken, then it is longer in any case. -/
lemma length_valueOr (value : Option Text) (hfront : (d.fill find).length +
      (after.fill find).length + d.holdsBrace.toNat ≤
        (d.front.fill find).length + ((d.behind after).fill find).length) :
    (valueOr value (d.fill find)).length + (after.fill find).length + d.holdsBrace.toNat ≤
      (valueOr value (d.front.fill find)).length + ((d.behind after).fill find).length := by
  rcases valueOr_or value with ⟨v, hv⟩ | hv
  · have hbehind := length_fill_behind find d after
    rw [hv, hv]
    omega
  · rw [hv, hv]
    exact hfront

/-- So is what the default becomes together with it. -/
lemma length_fill_front (find : Lookup) (d after : Skeleton) :
    (d.fill find).length + (after.fill find).length + d.holdsBrace.toNat ≤
      (d.front.fill find).length + ((d.behind after).fill find).length := by
  induction d generalizing after with
  | done => simp only [front, behind, fill, holdsBrace, Bool.toNat_false]; omega
  | literal t rest ih =>
    have hrest := ih after
    simp only [front, behind, fill, holdsBrace, List.length_append]
    omega
  | bare name rest ih =>
    have hrest := ih after
    simp only [front, behind, fill, holdsBrace, List.length_append]
    omega
  | braced name rest =>
    simp only [front, behind, fill, holdsBrace, fill_closing, List.length_append, List.length_cons,
      Bool.toNat_true]
    omega
  | defaulted name default rest ihd =>
    have hfront := length_valueOr (find name) (ihd (rest.closing after))
    rw [fill_closing, List.length_append, List.length_cons] at hfront
    simp only [front, behind, fill, holdsBrace, List.length_append, Bool.toNat_true]
    omega

/-- What is read is never shorter than what was written, and no default held a reference with braces
if it is as long. -/
theorem length_fill_read (find : Lookup) (s : Skeleton) :
    (s.fill find).length ≤ (s.read.fill find).length ∧
      ((s.fill find).length = (s.read.fill find).length → s.Flat) := by
  fun_induction read s with
  | case1 => exact ⟨Nat.le_refl _, fun _ => trivial⟩
  | case2 t rest ih =>
    simp only [fill, List.length_append]
    exact ⟨by omega, fun h => ih.2 (by omega)⟩
  | case3 name rest ih =>
    simp only [fill, List.length_append]
    exact ⟨by omega, fun h => ih.2 (by omega)⟩
  | case4 name rest ih =>
    simp only [fill, List.length_append]
    exact ⟨by omega, fun h => ih.2 (by omega)⟩
  | case5 name default rest ih =>
    have hshorter := length_valueOr (find name) (length_fill_front find default rest)
    simp only [fill, List.length_append]
    refine ⟨by omega, fun h => ?_⟩
    -- one brace in the default, and what is read would be longer
    have hplain : ¬ default.holdsBrace := by
      intro hbrace
      rw [hbrace, Bool.toNat_true] at hshorter
      omega
    rw [behind_of_not_holdsBrace hplain] at ih hshorter h
    exact ⟨hplain, ih.2 (by omega)⟩

/-- In every environment a written template becomes what is read there. That is what the skeleton
means exactly if no default holds a reference with braces. -/
theorem expand_write_and_eq_fill_iff (find : Lookup) (hs : s.Writable false) :
    expand find s.write = s.read.fill find ∧ (expand find s.write = s.fill find ↔ s.Flat) := by
  have hread : expand find s.write = s.read.fill find := expand_write hs
  refine ⟨hread, fun h => ?_, fun hflat => ?_⟩
  · apply (length_fill_read find s).2
    rw [← hread, h]
  · rw [hread, hflat.read_eq]

/-- A default in a default. -/
def nested : Skeleton := defaulted ['X'] (defaulted ['Y'] (literal ['z'] done) done) done

/-- The first closing brace closes both defaults, and the second one is left over. -/
theorem expand_write_nested :
    nested.write = "${X:-${Y:-z}}".toList ∧ nested.Writable false ∧
      nested.fill (fun _ => none) = ['z'] ∧ expand (fun _ => none) nested.write = ['z', '}'] ∧
      ¬ nested.Flat := by
  have hwritable : nested.Writable false :=
    ⟨by decide, ⟨by decide, ⟨by decide, fun _ => by decide, trivial⟩, trivial⟩, trivial⟩
  have hboth := expand_write_and_eq_fill_iff (fun _ => none) hwritable
  have hexpand : expand (fun _ => none) nested.write = ['z', '}'] := by
    rw [hboth.1]
    cbv
  refine ⟨by cbv, hwritable, by cbv, hexpand, fun hflat => ?_⟩
  have hsame := hboth.2.mpr hflat
  rw [hexpand] at hsame
  exact absurd hsame (by decide)

end Caretaker.Environ.Skeleton

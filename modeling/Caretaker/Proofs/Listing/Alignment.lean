import Caretaker.Proofs.Dispatch.Site
import Caretaker.Proofs.Listing.Printed

/-!
# Descriptions in a column

For people, tasks are listed with their descriptions in a column behind the names. The width of the
names is that of the most bytes, but names are filled up by characters. So the descriptions start in
one column, which is two characters behind the longest name only if no name takes more bytes than
the longest name has characters.
-/

namespace Caretaker

/-! ## Sizes -/

/-- A text has no more characters than bytes, -/
lemma Text.length_le_byteLength (t : Text) : t.length ≤ t.byteLength := by
  induction t with
  | nil => exact Nat.le_refl 0
  | cons c t ih =>
    have hc := c.utf8Size_pos
    rw [Path.byteLength_cons, List.length_cons]
    omega

/-- and as many if all of them take one byte. -/
lemma Text.byteLength_eq_length {t : Text} (h : ∀ c ∈ t, c.toNat < 0x80) :
    t.byteLength = t.length := by
  induction t with
  | nil => rfl
  | cons c t ih =>
    rw [List.forall_mem_cons] at h
    have hc : c.utf8Size = 1 :=
      Char.utf8Size_eq_one_iff.mpr (UInt32.le_iff_toNat_le.mpr (Nat.le_of_lt_succ h.1))
    rw [Path.byteLength_cons, hc, ih h.2, List.length_cons, Nat.add_comm]

lemma foldl_max_le_iff {sizes : List Nat} {n k : Nat} :
    sizes.foldl max n ≤ k ↔ n ≤ k ∧ ∀ size ∈ sizes, size ≤ k := by
  induction sizes generalizing n with
  | nil => simp
  | cons size sizes ih =>
    rw [List.foldl_cons, ih, Nat.max_le, List.forall_mem_cons, and_assoc]

/-! ## Rows -/

namespace Task

variable {t : Task} {d row : Text} {column column' width : Nat}

/-- The row of a task: the name behind two spaces, and the description, if there is one, in a column
behind that. -/
def IsRow (t : Task) (column : Nat) (row : Text) : Prop :=
  match t.description with
  | none => row = "  ".toList ++ t.name
  | some d => ∃ gap, row = "  ".toList ++ t.name ++ List.replicate gap ' ' ++ d ∧
    2 + t.name.length + gap = column

/-- A row shows in which column the description starts. -/
lemma IsRow.column_eq (h : t.IsRow column row) (h' : t.IsRow column' row)
    (hdescription : t.description = some d) : column = column' := by
  unfold IsRow at h h'
  rw [hdescription] at h h'
  obtain ⟨gap, rfl, rfl⟩ := h
  obtain ⟨gap', hrow, rfl⟩ := h'
  -- the description ends the row, and so the gap is what its length leaves
  have hlength := congrArg List.length hrow
  simp only [List.length_append, List.length_replicate] at hlength
  omega

lemma isRow_of_description_eq_none (h : t.description = none) :
    t.IsRow column row ↔ row = "  ".toList ++ t.name := by
  unfold IsRow
  rw [h]

/-- A name is filled up to the width, and two spaces follow. -/
lemma taskRow_some (name d : Text) (width : Nat) : Theme.plain.taskRow name (some d) width =
    "  ".toList ++ name ++ List.replicate (width - name.length + 2) ' ' ++ d := by
  have hspaces : "  ".toList = List.replicate 2 ' ' := rfl
  show "  ".toList ++ (name ++ List.replicate (width - name.length) ' ') ++ "  ".toList ++ d = _
  rw [List.replicate_add, ← hspaces]
  simp only [List.append_assoc]

/-- A row fits if its name does not exceed the width. -/
lemma isRow_taskRow (h : t.name.length ≤ width) :
    t.IsRow (4 + width) (Theme.plain.taskRow t.name t.description width) := by
  unfold IsRow
  cases t.description with
  | none => rfl
  | some d => exact ⟨width - t.name.length + 2, taskRow_some t.name d width, by omega⟩

end Task

/-! ## Listings -/

namespace Registry

variable {r : Registry} {t : Task} {name : Text} {k : Nat}

/-- The length of the names: the most characters that one of them has. -/
def nameLength (r : Registry) : Nat := (r.names.map List.length).foldl max 0

/-- The width is the greatest number of bytes of a name, -/
lemma nameWidth_le_iff : r.nameWidth ≤ k ↔ ∀ name ∈ r.names, name.byteLength ≤ k := by
  unfold nameWidth
  rw [foldl_max_le_iff, List.forall_mem_map]
  exact and_iff_right (Nat.zero_le k)

/-- where the length is the greatest number of characters. -/
lemma nameLength_le_iff : r.nameLength ≤ k ↔ ∀ name ∈ r.names, name.length ≤ k := by
  unfold nameLength
  rw [foldl_max_le_iff, List.forall_mem_map]
  exact and_iff_right (Nat.zero_le k)

lemma nameLength_le_nameWidth (r : Registry) : r.nameLength ≤ r.nameWidth :=
  nameLength_le_iff.mpr fun name hname =>
    name.length_le_byteLength.trans (nameWidth_le_iff.mp (Nat.le_refl _) name hname)

lemma forall₂_rows {R : Task → Text → Prop} : List.Forall₂ R r.tasks (r.rows .plain) ↔
    ∀ t ∈ r.tasks, R t (Theme.plain.taskRow t.name t.description r.nameWidth) := by
  unfold rows
  rw [List.forall₂_map_right_iff, List.forall₂_same]

lemma isRow_of_mem (ht : t ∈ r.tasks) :
    t.IsRow (4 + r.nameWidth) (Theme.plain.taskRow t.name t.description r.nameWidth) := by
  have hname : t.name ∈ r.names := List.mem_map_of_mem ht
  exact Task.isRow_taskRow
    ((nameLength_le_iff.mp (Nat.le_refl _) t.name hname).trans r.nameLength_le_nameWidth)

/-- The descriptions start four characters and the length of the names from the left exactly if
there are none, or if that length is the width. -/
lemma forall₂_isRow_iff :
    List.Forall₂ (fun t row => t.IsRow (4 + r.nameLength) row) r.tasks (r.rows .plain) ↔
      (∀ t ∈ r.tasks, t.description = none) ∨
        ∀ name ∈ r.names, name.byteLength ≤ r.nameLength := by
  rw [forall₂_rows, ← nameWidth_le_iff]
  constructor
  · intro h
    by_contra hnone
    simp only [not_or, not_forall, exists_prop] at hnone
    obtain ⟨⟨t, ht, hdescription⟩, hwidth⟩ := hnone
    obtain ⟨d, hd⟩ := Option.ne_none_iff_exists'.mp hdescription
    -- this description starts behind the width, which is greater
    have hcolumn := (h t ht).column_eq (isRow_of_mem ht) hd
    omega
  · rintro (hnone | hwidth) t ht
    · -- without a description, a row is one for any column
      have hrow := isRow_of_mem ht
      rw [Task.isRow_of_description_eq_none (hnone t ht)] at hrow ⊢
      exact hrow
    · rw [Nat.le_antisymm r.nameLength_le_nameWidth hwidth]
      exact isRow_of_mem ht

/-- What a list for people looks like, and where the descriptions start in it. -/
structure Aligns (r : Registry) (b : Bytes) : Prop where
  /-- It is made of a header and rows, -/
  text : b = Text.encode (Text.unlines ("Tasks:".toList :: r.rows .plain))
  /-- which are its lines if no name and no description holds a line feed. -/
  lines : (∀ t ∈ r.tasks, '\n' ∉ t.name ∧ ∀ d, t.description = some d → '\n' ∉ d) →
    Text.readLines? b = some ("Tasks:".toList :: r.rows .plain)
  /-- There is one row for each task, in order, with all descriptions in one column, -/
  rows : List.Forall₂ (fun t row => t.IsRow (4 + r.nameWidth) row) r.tasks (r.rows .plain)
  /-- and behind a longest name there are two spaces, and one more for each byte that the width is
  greater. -/
  longest : ∀ t ∈ r.tasks, ∀ d, t.description = some d → t.name.length = r.nameLength →
    "  ".toList ++ t.name ++ List.replicate (2 + (r.nameWidth - r.nameLength)) ' ' ++ d ∈
      r.rows .plain
  /-- The column is that of the longest name exactly if there are no descriptions, or no name takes
  more bytes than the longest one has characters, -/
  aligned : List.Forall₂ (fun t row => t.IsRow (4 + r.nameLength) row) r.tasks (r.rows .plain) ↔
    (∀ t ∈ r.tasks, t.description = none) ∨ ∀ name ∈ r.names, name.byteLength ≤ r.nameLength
  /-- as is the case if no character takes more than one byte. -/
  ascii : (∀ name ∈ r.names, ∀ c ∈ name, c.toNat < 0x80) →
    List.Forall₂ (fun t row => t.IsRow (4 + r.nameLength) row) r.tasks (r.rows .plain)

/-- What is printed for people is a heading and a row for each task. -/
lemma textOn_human (hr : r.tasks ≠ []) (dir : Path) :
    Line.textOn .plain .output (r.lines dir .plain .human) =
      Text.unlines ("Tasks:".toList :: r.rows .plain) := by
  have hlines : r.lines dir .plain .human =
      ("Tasks:".toList :: r.rows .plain).map (⟨.message, ·⟩) :=
    if_neg (by simpa using hr)
  rw [hlines]
  exact Line.textOn_map (fun _ => rfl) (fun _ => rfl) _

lemma not_mem_taskRow {description : Option Text} {width : Nat} (hname : '\n' ∉ name)
    (hd : ∀ d, description = some d → '\n' ∉ d) :
    '\n' ∉ Theme.plain.taskRow name description width := by
  cases description with
  | none =>
    show '\n' ∉ "  ".toList ++ name
    simpa using hname
  | some d =>
    rw [Task.taskRow_some]
    simpa using ⟨hname, hd d rfl⟩

/-- The list for people, as it is put together. -/
theorem aligns_unlines (r : Registry) :
    r.Aligns (Text.encode (Text.unlines ("Tasks:".toList :: r.rows .plain))) where
  text := rfl
  lines := by
    intro h
    have hwhole : ∀ line ∈ "Tasks:".toList :: r.rows .plain, '\n' ∉ line := by
      rw [List.forall_mem_cons]
      refine ⟨by decide, fun row hrow => ?_⟩
      obtain ⟨t, ht, rfl⟩ := List.mem_map.mp hrow
      exact not_mem_taskRow (h t ht).1 (h t ht).2
    rw [Text.readLines?_unlines, (Text.flatMap_splitOn_eq_self_iff _).mpr hwhole]
  rows := forall₂_rows.mpr fun t ht => isRow_of_mem ht
  longest := by
    intro t ht d hd hlength
    have hrow : Theme.plain.taskRow t.name t.description r.nameWidth ∈ r.rows .plain :=
      List.mem_map_of_mem ht
    rwa [hd, Task.taskRow_some, hlength, Nat.add_comm] at hrow
  aligned := forall₂_isRow_iff
  ascii := by
    intro h
    refine forall₂_isRow_iff.mpr (Or.inr fun name hname => ?_)
    rw [Text.byteLength_eq_length (h name hname)]
    exact nameLength_le_iff.mp (Nat.le_refl _) name hname

end Registry

/-- For every command line that asks for the tasks, on every machine: if it is not refused, and
there are tasks, they are listed in rows with the descriptions in one column. -/
theorem CommandLine.aligns_tasks (line : CommandLine) (rest : List Text) (m : Machine)
    (children : Children) :
    { line with command := some (.tasks rest) }.Outputs .plain m children
      fun _ r added => r.tasks ≠ [] → r.Aligns added := by
  refine (outputs_of_resolve .plain m children fun _ _ => rfl).mono ?_
  rintro l r added rfl hr
  rw [Registry.textOn_human hr]
  exact r.aligns_unlines

/-- A name of one character that takes two bytes is followed by three spaces. -/
example : ((Machine.holding
    [([.text "r".toList], .dir), ([.text "r".toList, .text "tasks".toList], .dir),
     ([.text "r".toList, .text "tasks".toList, .text "é.sh".toList],
       .file (Text.encode "# Do".toList) true)]).run
      .absent (CommandLine.carryOut ⟨some ⟨"/r".toList⟩, false, false, some (.tasks [])⟩
        .plain)).2.bytesOn .output = Text.encode "Tasks:\n  é   Do\n".toList := by
  cbv

end Caretaker

import Caretaker.Proofs.Bindings
import Caretaker.Proofs.Environ.Assignments
import Caretaker.Proofs.Environ.Expansion

/-!
# The skeleton of a value

What a raw value says by itself is a skeleton: stretches of text, and references with their
defaults. The variables come in only when the skeleton is filled, and they fill it as they are: no
character of a value is ever taken for a quote, a reference or a comment. So a file reads the same
wherever the names that it looks up outside itself have the same values.
-/

namespace Caretaker.Environ

open Text (trim)

/-- A value before any variable is looked up. -/
inductive Skeleton where
  | done
  | literal (t : Text) (rest : Skeleton)
  /-- `$NAME` -/
  | bare (name : Text) (rest : Skeleton)
  /-- `${NAME}` -/
  | braced (name : Text) (rest : Skeleton)
  /-- `${NAME:-default}` -/
  | defaulted (name : Text) (default rest : Skeleton)
deriving DecidableEq, Repr

namespace Skeleton

variable {find find' : Lookup} {name : Text} {s s' : Skeleton}

/-! ## Filling a skeleton -/

/-- What stands for a braced reference: the value of the name, unless it has none or an empty one. -/
def valueOr (value : Option Text) (default : Text) : Text :=
  match value.filter (!·.isEmpty) with
  | some v => v
  | none => default

/-- The text that a skeleton becomes. Each value is put in as it is. -/
def fill (find : Lookup) : Skeleton → Text
  | done => []
  | literal t rest => t ++ rest.fill find
  | bare name rest => (find name).getD [] ++ rest.fill find
  | braced name rest => valueOr (find name) [] ++ rest.fill find
  | defaulted name default rest => valueOr (find name) (default.fill find) ++ rest.fill find

/-- The names that a skeleton refers to, those in defaults included. -/
def names : Skeleton → List Text
  | done => []
  | literal _ rest => rest.names
  | bare name rest | braced name rest => name :: rest.names
  | defaulted name default rest => name :: (default.names ++ rest.names)

/-- Lookups that agree on its names fill a skeleton alike. -/
lemma fill_congr (h : ∀ name ∈ s.names, find name = find' name) : s.fill find = s.fill find' := by
  induction s with
  | done => rfl
  | literal t rest ih => simp only [fill, ih h]
  | bare name rest ih =>
    have hname := h name (List.mem_cons_self ..)
    have hrest := ih fun n hn => h n (List.mem_cons_of_mem _ hn)
    simp only [fill, hname, hrest]
  | braced name rest ih =>
    have hname := h name (List.mem_cons_self ..)
    have hrest := ih fun n hn => h n (List.mem_cons_of_mem _ hn)
    simp only [fill, hname, hrest]
  | defaulted name default rest ihd ih =>
    have hname := h name (List.mem_cons_self ..)
    have hdefault := ihd fun n hn => h n (by simp [names, hn])
    have hrest := ih fun n hn => h n (by simp [names, hn])
    simp only [fill, hname, hdefault, hrest]

/-- One skeleton and then another. -/
def append : Skeleton → Skeleton → Skeleton
  | done, s' => s'
  | literal t rest, s' => literal t (rest.append s')
  | bare name rest, s' => bare name (rest.append s')
  | braced name rest, s' => braced name (rest.append s')
  | defaulted name default rest, s' => defaulted name default (rest.append s')

lemma fill_append (find : Lookup) (s s' : Skeleton) :
    (s.append s').fill find = s.fill find ++ s'.fill find := by
  induction s with
  | done => rfl
  | literal t rest ih => simp only [append, fill, ih, List.append_assoc]
  | bare name rest ih => simp only [append, fill, ih, List.append_assoc]
  | braced name rest ih => simp only [append, fill, ih, List.append_assoc]
  | defaulted name default rest _ ih => simp only [append, fill, ih, List.append_assoc]

/-! ## Reading a skeleton -/

/-- The skeleton of a template. -/
def ofTemplate : Text → Skeleton
  | [] => done
  | '\\' :: '$' :: r => literal ['$'] (ofTemplate r)
  | '$' :: '{' :: r =>
    match _h : cutDefault (braceBody r) with
    | (name, none) => braced name (ofTemplate (afterBrace r))
    | (name, some default) => defaulted name (ofTemplate default) (ofTemplate (afterBrace r))
  | '$' :: c :: r =>
    if isNameStart c then bare (c :: r.takeWhile isNameChar) (ofTemplate (r.dropWhile isNameChar))
    else literal ['$'] (ofTemplate (c :: r))
  | c :: r => literal [c] (ofTemplate r)
termination_by t => t.length
decreasing_by
  all_goals simp only [List.length_cons]
  · omega
  · have := length_afterBrace_le r
    omega
  · have := length_default_lt (s := braceBody r) (d := default) (by rw [_h])
    have := length_braceBody_le r
    omega
  · have := length_afterBrace_le r
    omega
  · have := (List.dropWhile_sublist (l := r) isNameChar).length_le
    omega
  · omega
  · omega

/-- The skeleton of pieces one after the other. -/
def ofPieces : List Piece → Skeleton
  | [] => done
  | .verbatim t :: rest => literal t (ofPieces rest)
  | .template t :: rest => (ofTemplate t).append (ofPieces rest)

/-- What stands in braces is a name with a default, if it has one. -/
lemma bracedValue_eq (find : Lookup) (body : Text) : bracedValue find body =
    valueOr (find (cutDefault body).1) (((cutDefault body).2.map (expand find)).getD []) := by
  unfold bracedValue valueOr
  cases (find (cutDefault body).1).filter (!·.isEmpty) with
  | some v => rfl
  | none => cases (cutDefault body).2 <;> rfl

/-- Expanding a template is filling its skeleton. -/
theorem fill_ofTemplate (find : Lookup) (t : Text) : (ofTemplate t).fill find = expand find t := by
  -- the cases of `ofTemplate` are those of `expand`, and each has an equation there
  fun_induction ofTemplate t with
  | case1 => rw [expand_nil, fill]
  | case2 r ih =>
    rw [expand_escaped, fill, ih]
    rfl
  | case3 r name hbody ih =>
    rw [expand_braced, bracedValue_eq, hbody, fill, ih]
    rfl
  | case4 r name default hbody ihd ih =>
    rw [expand_braced, bracedValue_eq, hbody, fill, ihd, ih]
    rfl
  | case5 c r hbrace hc ih =>
    rw [expand_reference hc, fill, ih]
  | case6 c r hbrace hc ih =>
    rw [expand_literal (literal_dollar hbrace hc), fill, ih]
    rfl
  | case7 c r hescape _ hdollar ih =>
    rw [expand_literal (literal_of_forall hescape hdollar), fill, ih]
    rfl

lemma fill_ofPieces (find : Lookup) (pieces : List Piece) :
    (ofPieces pieces).fill find = pieces.flatMap (Piece.value find) := by
  induction pieces with
  | nil => rfl
  | cons p pieces ih =>
    rw [List.flatMap_cons, ← ih]
    cases p with
    | verbatim t => rfl
    | template t =>
      show ((ofTemplate t).append (ofPieces pieces)).fill find = _
      rw [fill_append, fill_ofTemplate]
      rfl

end Skeleton

/-- The skeleton of a raw value. -/
def skeleton (raw : Text) : Skeleton := .ofPieces (pieces raw)

/-- A value is its skeleton, filled. -/
theorem fill_skeleton (find : Lookup) (raw : Text) : (skeleton raw).fill find = evaluate find raw :=
  Skeleton.fill_ofPieces find (pieces raw)

/-! ## Names that a file looks up outside itself -/

/-- The names that assignments refer to and that are not assigned by then. -/
def freeNames (above : List Text) : List Assignment → List Text
  | [] => []
  | a :: rest =>
    (skeleton (trim a.raw)).names.filter (!above.contains ·) ++ freeNames (a.name :: above) rest

/-- The names that a file refers to before it assigns them. -/
def outerNames (content : Text) : List Text := freeNames [] (assignments content)

variable {process process' base base' vars : Bindings} {name : Text}

/-- A lookup comes first upon what has been assigned, and else upon what was there at the beginning.
-/
theorem scope_eq (process base vars : Bindings) (name : Text) : scope process base vars name =
    (vars.value? name).orElse fun _ => scope process base [] name := by
  unfold scope
  cases vars.value? name <;> rfl

lemma isSome_value?_carryOut {a : Assignment} (h : name = a.name ∨ (vars.value? name).isSome) :
    ((carryOut process base vars a).value? name).isSome := by
  unfold carryOut
  rw [Bindings.value?_set]
  split_ifs with heq
  · rfl
  · exact h.resolve_left (Ne.symm heq)

/-- Where two runs of a file have the same variables, an assignment leaves them the same, if they
agree on the names that it looks up outside. -/
lemma carryOut_congr {above : List Text} {a : Assignment}
    (habove : ∀ name ∈ above, (vars.value? name).isSome)
    (hagree : ∀ name ∈ (skeleton (trim a.raw)).names.filter (!above.contains ·),
      scope process base [] name = scope process' base' [] name) :
    carryOut process base vars a = carryOut process' base' vars a := by
  unfold carryOut
  rw [← fill_skeleton, ← fill_skeleton]
  congr 1
  apply Skeleton.fill_congr
  intro name hname
  rw [scope_eq process, scope_eq process']
  cases hvalue : vars.value? name with
  | some v => rfl
  | none =>
    -- a name without a variable is assigned by no line above
    have hfree : name ∉ above := by
      intro hmem
      have hsome := habove name hmem
      rw [hvalue] at hsome
      cases hsome
    exact hagree name (List.mem_filter.mpr ⟨hname, by simpa using hfree⟩)

/-- Runs of a file that agree on its free names leave the same variables. -/
lemma foldl_carryOut_congr {above : List Text} {assigned : List Assignment}
    (habove : ∀ name ∈ above, (vars.value? name).isSome)
    (hagree : ∀ name ∈ freeNames above assigned,
      scope process base [] name = scope process' base' [] name) :
    assigned.foldl (carryOut process base) vars = assigned.foldl (carryOut process' base') vars := by
  induction assigned generalizing vars above with
  | nil => rfl
  | cons a assigned ih =>
    rw [freeNames] at hagree
    have hstep : carryOut process base vars a = carryOut process' base' vars a :=
      carryOut_congr habove fun name hname => hagree name (List.mem_append_left _ hname)
    have habove' : ∀ name ∈ a.name :: above,
        ((carryOut process base vars a).value? name).isSome := by
      intro name hname
      apply isSome_value?_carryOut
      exact (List.mem_cons.mp hname).imp_right (habove name)
    rw [List.foldl_cons, List.foldl_cons, ← hstep]
    exact ih habove' fun name hname => hagree name (List.mem_append_right _ hname)

/-- Every value is a skeleton that its raw text alone decides, filled with what is looked up. So two
processes read a file alike if they agree on the names that it refers to before it assigns them. -/
theorem evaluate_eq_fill_and_parse_congr :
    (∀ raw find, evaluate find raw = (skeleton raw).fill find) ∧
    ∀ process base process' base' content,
      (∀ name ∈ outerNames content,
        scope process base [] name = scope process' base' [] name) →
      parse process base content = parse process' base' content := by
  refine ⟨fun raw find => (fill_skeleton find raw).symm, ?_⟩
  intro process base process' base' content hagree
  rw [parse_eq, parse_eq]
  exact foldl_carryOut_congr (fun _ hname => absurd hname List.not_mem_nil) hagree

/-- The file looks up `B` and `D` outside. One process has `B` itself, to the other it is a base
variable: its value, with a reference, a quote and a mark in it, arrives in `C` as it is. -/
theorem parse_congr_hostile :
    outerNames "A=1\nC=\"${B}$A\"$D".toList = [['B'], ['D']] ∧
    parse [(['B'], "$A ' #".toList)] [(['A'], ['9'])] "A=1\nC=\"${B}$A\"$D".toList =
      parse [(['A'], ['2'])] [(['B'], "$A ' #".toList)] "A=1\nC=\"${B}$A\"$D".toList ∧
    parse [(['B'], "$A ' #".toList)] [(['A'], ['9'])] "A=1\nC=\"${B}$A\"$D".toList =
      [(['A'], ['1']), (['C'], "$A ' #1".toList)] := by
  have hnames : outerNames "A=1\nC=\"${B}$A\"$D".toList = [['B'], ['D']] := by cbv
  refine ⟨hnames, evaluate_eq_fill_and_parse_congr.2 _ _ _ _ _ ?_, by cbv⟩
  intro name hname
  rw [hnames] at hname
  rcases List.mem_pair.mp hname with rfl | rfl
  · rfl
  · rfl

end Caretaker.Environ

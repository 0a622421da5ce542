import Caretaker.Text

/-!
# Variables

Named values in the order in which they were bound: the variables of an environ file, those handed
to a script, and those of a process. A name that is bound again keeps its place.
-/

namespace Caretaker

/-- Names and their values, in order. -/
abbrev Bindings := List (Text × Text)

/-- Where the value of a name is found. -/
abbrev Lookup := Text → Option Text

namespace Bindings

/-- The value of the first binding of `name`. -/
def value? (b : Bindings) (name : Text) : Option Text := (b.find? (·.1 == name)).map (·.2)

/-- Bind `name`: in place where it is bound already, else at the end. -/
def set (name value : Text) : Bindings → Bindings
  | [] => [(name, value)]
  | (k, v) :: r => if k = name then (k, value) :: r else (k, v) :: set name value r

@[simp] theorem value?_nil (name : Text) : value? [] name = none := rfl

theorem value?_cons (k v name : Text) (r : Bindings) :
    value? ((k, v) :: r) name = if k = name then some v else value? r name := by
  by_cases h : k = name <;> simp [value?, h]

/-- Binding a name does nothing to the others. -/
theorem value?_set (name value other : Text) (b : Bindings) :
    value? (set name value b) other = if name = other then some value else value? b other := by
  induction b with
  | nil => simp [set, value?_cons]
  | cons kv r ih =>
    obtain ⟨k, v⟩ := kv
    by_cases hk : k = name
    · by_cases ho : name = other <;> simp [set, value?_cons, hk, ho]
    · by_cases ho : k = other
      · subst ho
        simp [set, value?_cons, hk, Ne.symm hk]
      · simp [set, value?_cons, hk, ho, ih]

/-- Layer `upper` on top of `b`, one binding after the other, so that the last binding of a name
counts. -/
def overlay (b upper : Bindings) : Bindings := upper.foldl (fun acc kv => set kv.1 kv.2 acc) b

/--
The value of `name` in a process environment. A process keeps its variables as texts `KEY=VALUE`,
and a name is looked up by the first text that starts with the name and an equals sign.
-/
def processValue? (b : Bindings) (name : Text) : Option Text :=
  if name.isEmpty then none
  else b.findSome? fun (k, v) => (name ++ ['=']).isPrefixOf? (k ++ '=' :: v)

/-- The name and the value that a text of a process binds. They are divided by the first equals sign,
which may not be the first character. -/
def ofText? : Text → Option (Text × Text)
  | [] => none
  | c :: r =>
    match r.dropWhile (· != '=') with
    | [] => none
    | _ :: value => some (c :: r.takeWhile (· != '='), value)

/-- What a process takes its variables to be when it goes through its texts. A name may be bound more
than once. -/
def taken (b : Bindings) : Bindings := b.filterMap fun (k, v) => ofText? (k ++ '=' :: v)

end Bindings
end Caretaker

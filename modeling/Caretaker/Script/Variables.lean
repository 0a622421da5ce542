import Caretaker.Script.Number

/-!
# The variables of a shell

A variable may be handed to other programs, may refuse assignments, and may be known without having
a value. Variables that are local to a command or a function hide those of the same name until it
ends.
-/

namespace Caretaker.Script

/-- What a variable is, apart from its value. -/
structure Marks where
  /-- Whether other programs get the variable. -/
  exported : Bool
  readOnly : Bool
  /-- Whether the variable stays known when its value is removed. -/
  fixed : Bool
deriving DecidableEq, Repr

namespace Marks

def none : Marks := ⟨false, false, false⟩

def or (a b : Marks) : Marks := ⟨a.exported || b.exported, a.readOnly || b.readOnly, a.fixed || b.fixed⟩

end Marks

structure Variable extends Marks where
  value : Option Octets
deriving DecidableEq, Repr

/-- Why a variable cannot be changed. -/
inductive VariableFault where
  | readOnly (name : Octets)
  | badName (name : Octets)
  | illegalNumber (text : Octets)
deriving DecidableEq, Repr

def VariableFault.message : VariableFault → Octets
  | readOnly name => name ++ ": is read only".toList
  | badName name => name ++ ": bad variable name".toList
  | illegalNumber text => "Illegal number: ".toList ++ text

/-- How far the options among the arguments have been read. -/
structure OptionPosition where
  /-- The argument that is next, from one on. -/
  next : Int
  /-- The place in the argument in front of it, unless that is complete. -/
  offset : Option Nat
deriving DecidableEq, Repr

def OptionPosition.start : OptionPosition := ⟨1, none⟩

structure Variables where
  entries : List (Octets × Variable)
  position : OptionPosition
  /-- Whether all variables that are assigned to are exported. -/
  exportsAll : Bool

namespace Variables

def empty : Variables := ⟨[], .start, false⟩

def find? (vs : Variables) (name : Octets) : Option Variable := (vs.entries.find? (·.1 == name)).map (·.2)

/-- The value of a variable. -/
def value? (vs : Variables) (name : Octets) : Option Octets := (vs.find? name).bind (·.value)

/-- Let a variable be as given, or unknown. -/
def put (vs : Variables) (name : Octets) (v : Option Variable) : Variables :=
  { vs with entries := (v.map (name, ·)).toList ++ vs.entries.filter (·.1 != name) }

/-- A variable is put under its name and under no other. -/
theorem find?_put (vs : Variables) (name : Octets) (v : Option Variable) (other : Octets) :
    (vs.put name v).find? other = if name = other then v else vs.find? other := by
  by_cases h : name = other
  · subst h
    cases v with
    | none => simp [put, find?, List.find?_filter]
    | some v => simp [put, find?]
  · have hb : (name == other) = false := beq_false_of_ne h
    have hf : (vs.entries.filter (·.1 != name)).find? (·.1 == other) = vs.entries.find? (·.1 == other) := by
      rw [List.find?_filter]
      congr 1
      funext a
      by_cases ha : a.1 = other <;> simp [ha, Ne.symm h]
    cases v with
    | none => simp [put, find?, h, hf]
    | some v => simp [put, find?, h, hb, hf]

/-! ## Assigning -/

/-- The name of the variable with the position among the options. -/
def positionName : Octets := "OPTIND".toList

/-- What an assignment to the position among the options does. -/
def reposition (vs : Variables) (name : Octets) (value : Option Octets) : Except VariableFault Variables :=
  if name ≠ positionName then .ok vs
  else
    match Number.count? (value.getD []) with
    | some n => .ok { vs with position := ⟨if n = 0 then 1 else n, none⟩ }
    | none => .error (.illegalNumber (value.getD []))

/-- Give a variable a value, or take it away, without looking at the name. -/
def assign (vs : Variables) (name : Octets) (value : Option Octets) (marks : Marks) : Except VariableFault Variables := do
  let marks := { marks with exported := marks.exported || vs.exportsAll }
  let old := vs.find? name
  if old.any (·.readOnly) then throw (.readOnly name)
  let vs ← if old.isSome then vs.reposition name value else pure vs
  let oldMarks := (old.map (·.toMarks)).getD .none
  if value.isNone && marks = .none && !oldMarks.fixed then return vs.put name none
  return vs.put name (some { marks.or oldMarks with value })

/-- Give a variable a value, or take it away. An equals sign ends the name. -/
def set (vs : Variables) (name : Octets) (value : Option Octets) (marks : Marks) : Except VariableFault Variables :=
  let name := name.takeWhile (· != '=')
  if Octets.isName name then vs.assign name value marks else .error (.badName name)

/-- Mark a variable, whether it has a value or not. -/
def mark (vs : Variables) (name : Octets) (marks : Marks) : Except VariableFault Variables :=
  match vs.find? name with
  | some v => .ok (vs.put name (some { v with toMarks := v.toMarks.or marks }))
  | none => vs.set name none marks

/-! ## Local variables -/

/-- What a local variable hides. -/
inductive Hidden where
  /-- Nothing: the variable was not known. -/
  | nothing (name : Octets)
  | variable (name : Octets) (v : Variable)

/-- Hide a variable. Without a value it keeps the old one. -/
def hide (vs : Variables) (name : Octets) (value : Option Octets) (marks : Marks) :
    Except VariableFault (Hidden × Variables) := do
  match vs.find? name with
  | none =>
    let marks := { marks with fixed := true }
    let vs ← if value.isSome then vs.assign name value marks else vs.set name none marks
    return (.nothing name, vs)
  | some v =>
    let vs := vs.put name (some { v with fixed := true })
    let vs ← if value.isSome then vs.assign name value marks else pure vs
    return (.variable name v, vs)

/-- Show again what was hidden. -/
def reveal (vs : Variables) : Hidden → Except VariableFault Variables
  | .nothing name =>
    match vs.find? name with
    | some v => (vs.put name (some { v with fixed := false, readOnly := false })).set name none .none
    | none => .ok vs
  | .variable name v => do return (← vs.reposition name v.value).put name (some v)

/-! ## Listing -/

/-- The variables that pass a test, in order of their names. -/
def listed (vs : Variables) (p : Variable → Bool) : List (Octets × Variable) :=
  (vs.entries.filter (p ·.2)).mergeSort fun a b => Octets.le a.1 b.1

/-- The texts by which variables are handed to other programs. -/
def environment (vs : Variables) : List Octets :=
  (vs.listed fun v => v.exported && v.value.isSome).map fun (name, v) => name ++ '=' :: v.value.getD []

end Variables
end Caretaker.Script

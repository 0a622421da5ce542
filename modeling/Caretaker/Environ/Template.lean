import Caretaker.Variables

/-!
# References in a value

The unquoted and double-quoted parts of a value may refer to variables: `$NAME`, `${NAME}` and
`${NAME:-default}`, where the default may refer to variables again. `expand` puts the values in;
a value that has been put in is never looked at again.
-/

namespace Caretaker.Environ

/-! ## Names -/

/-- A letter of the ASCII alphabet or an underscore: what a name starts with. -/
def isNameStart (c : Char) : Bool := c.isAlpha || c == '_'

/-- What a name goes on with. -/
def isNameChar (c : Char) : Bool := c.isAlphanum || c == '_'

/-- Names of variables. -/
def isName : Text → Bool
  | [] => false
  | c :: r => isNameStart c && r.all isNameChar

/-! ## Braced references -/

/-- What stands before the first closing brace; all of it where there is none. -/
def braceBody (s : Text) : Text := s.takeWhile (· != '}')

/-- What stands behind the first closing brace. -/
def afterBrace (s : Text) : Text := (s.dropWhile (· != '}')).drop 1

/-- Cut the body of a braced reference at its first `:-` into the name and the default. -/
def cutDefault : Text → Text × Option Text
  | [] => ([], none)
  | ':' :: '-' :: r => ([], some r)
  | c :: r => (c :: (cutDefault r).1, (cutDefault r).2)

theorem length_braceBody_le (s : Text) : (braceBody s).length ≤ s.length :=
  (List.takeWhile_sublist _).length_le

theorem length_afterBrace_le (s : Text) : (afterBrace s).length ≤ s.length :=
  ((List.drop_sublist _ _).trans (List.dropWhile_sublist _)).length_le

/-- A default is shorter than the body it is cut from, so defaults nest to a finite depth. -/
theorem length_default_lt {s d : Text} (h : (cutDefault s).2 = some d) : d.length < s.length := by
  fun_induction cutDefault s with
  | case1 => simp at h
  | case2 r =>
    obtain rfl : r = d := by simpa using h
    simp only [List.length_cons]
    omega
  | case3 c r _ ih =>
    have := ih h
    simp only [List.length_cons]
    omega

/-! ## Expansion -/

/--
Put the values of all references into a template. `\$` is a dollar sign; a bare reference to an
unknown name is empty; a braced one whose value is unknown or empty is its expanded default. A
dollar sign that starts no reference stands for itself, and a brace that is never closed is closed
by the end of the text.
-/
def expand (find : Lookup) : Text → Text
  | [] => []
  | '\\' :: '$' :: r => '$' :: expand find r
  | '$' :: '{' :: r =>
    let body := cutDefault (braceBody r)
    let value :=
      -- in braces an empty value is as good as none
      match (find body.1).filter (!·.isEmpty), _h : body.2 with
      | some v, _ => v
      | none, some d => expand find d
      | none, none => []
    value ++ expand find (afterBrace r)
  | '$' :: c :: r =>
    if isNameStart c then
      (find (c :: r.takeWhile isNameChar)).getD [] ++ expand find (r.dropWhile isNameChar)
    else '$' :: expand find (c :: r)
  | c :: r => c :: expand find r
termination_by s => s.length
decreasing_by
  all_goals simp only [List.length_cons]
  · omega
  · have := length_default_lt ‹_›
    have := length_braceBody_le r
    omega
  · have := length_afterBrace_le r
    omega
  · have := (List.dropWhile_sublist (l := r) isNameChar).length_le
    omega
  · omega
  · omega

theorem expand_nil {find : Lookup} : expand find [] = [] := by rw [expand]

end Caretaker.Environ

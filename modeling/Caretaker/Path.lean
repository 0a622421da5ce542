import Caretaker.Text

/-!
# Paths

A path is kept as it is written, because that is how it is printed and how the operating system
reads it. Two other views are derived: its components, by which paths are compared, and its
normal form, in which no component undoes another.
-/

namespace Caretaker

/-- A path as written. -/
structure Path where
  text : Text
deriving DecidableEq, Repr, Inhabited

namespace Path

def ofString (s : String) : Path := ⟨s.toList⟩

/-- The path as it is printed. -/
def display (p : Path) : String := String.ofList p.text

/-- Whether the path starts at the root. -/
def isAbsolute (p : Path) : Bool := p.text.head? == some '/'

/-! ## Segments and components -/

/-- The stretches between slashes, empty ones included. -/
def splitSlashes : Text → List Text
  | [] => [[]]
  | '/' :: r => [] :: splitSlashes r
  | c :: r =>
    match splitSlashes r with
    | [] => [[c]]
    | s :: ss => (c :: s) :: ss

/-- The stretches between slashes that are not empty. -/
def segments (p : Path) : List Text := (splitSlashes p.text).filter (!·.isEmpty)

/-- What a path is made of. -/
inductive Component where
  /-- The slash that an absolute path starts with. -/
  | root
  /-- A dot that a relative path starts with. -/
  | here
  /-- Two dots. -/
  | up
  | name (n : Text)
deriving DecidableEq, Repr

/-- The component that a segment stands for behind the first place: a dot there says nothing. -/
def Component.ofSegment? (s : Text) : Option Component :=
  if s = ['.'] then none else if s = ['.', '.'] then some .up else some (.name s)

/-- The components of a path. Repeated slashes, a slash at the end and inner dots say nothing. -/
def components (p : Path) : List Component :=
  let rest := p.segments.filterMap Component.ofSegment?
  if p.isAbsolute then .root :: rest
  else if p.segments.head? = some ['.'] then .here :: rest
  else rest

/-- Whether two paths have the same components. -/
def same (p q : Path) : Bool := p.components == q.components

/-! ## Joining -/

/-- Append text to a path: an absolute text replaces the path, another one follows a slash. -/
def join (base : Path) (part : Text) : Path :=
  if part.head? = some '/' then ⟨part⟩
  else if base.text = [] ∨ base.text.getLast? = some '/' then ⟨base.text ++ part⟩
  else ⟨base.text ++ '/' :: part⟩

/-- Join with a text given as a string. -/
def joinString (base : Path) (part : String) : Path := base.join part.toList

/-! ## Normal form -/

/-- The path with the given names, from the root or not. -/
def ofNames (absolute : Bool) (names : List Text) : Path :=
  ⟨(if absolute then ['/'] else []) ++ ['/'].intercalate names⟩

/--
Take one more component into account. The names are kept last first. Two dots drop the last name;
where there is none they stay, and count as a name from then on.
-/
def collapse (names : List Text) : Component → List Text
  | .root | .here => names
  | .up =>
    match names with
    | [] => [['.', '.']]
    | _ :: r => r
  | .name n => n :: names

/-- Collapse dots and double dots without looking at any file. -/
def normalize (p : Path) : Path :=
  ofNames p.isAbsolute (p.components.foldl collapse []).reverse

end Path
end Caretaker

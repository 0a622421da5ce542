import Caretaker.Yaml.Event
import Caretaker.Yaml.Token.Stream

/-!
# Documents

A text is read as one document: the nodes of its first document in order, with aliases resolved to
the nodes that they name. What is broken behind the nodes is only remembered, since a reader may
reject what it has seen before it gets there.
-/

namespace Caretaker.Yaml

/-- A part of a document. An alias tells the number of the part that it repeats. -/
inductive Part where
  | alias (target : Nat)
  | scalar (s : Scalar) (tag : Option Text)
  | sequenceStart
  | sequenceEnd
  | mappingStart
  | mappingEnd
deriving DecidableEq, Repr

/-- How a text goes on behind the parts of a document. -/
inductive Ending where
  | complete
  /-- The document is followed by something that is not the end of the text. -/
  | more
  /-- The document breaks off. -/
  | broken
deriving DecidableEq, Repr

structure Document where
  parts : List (Marked Part)
  ending : Ending
deriving Repr

namespace Document

/-! ## Names of nodes -/

/--
The nodes that have names. A node gets the number of names known before it; a name that is given
again moves on to the new number, so that two names can come to share one.
-/
structure Anchors where
  numbers : List (Text × Nat)
  /-- The part at which the node of a number starts, the latest first. -/
  starts : List (Nat × Nat)

namespace Anchors

def number? (a : Anchors) (name : Text) : Option Nat := (a.numbers.find? (·.1 == name)).map (·.2)

/-- Give a name to the node that starts at a part. -/
def bind (a : Anchors) (name : Option Text) (start : Nat) : Anchors :=
  match name with
  | none => a
  | some name =>
    let number := a.numbers.length
    ⟨(name, number) :: a.numbers.filter (·.1 != name), (number, start) :: a.starts⟩

end Anchors

/-! ## Parts -/

/-- The parts read so far, the last one first; an alias still tells the number of a node. -/
structure Reading where
  back : List (Marked Part)
  anchors : Anchors

def Reading.add (r : Reading) (name : Option Text) (p : Part) (m : Mark) : Reading :=
  ⟨⟨p, m⟩ :: r.back, r.anchors.bind name r.back.length⟩

/-- How a text ends behind its first document. -/
def endingOf : List (Marked Event) → Ending
  | ⟨.streamEnd, _⟩ :: _ => .complete
  | _ => .more

/-- Collect the parts of the first document, and tell how the text goes on. -/
def collect : List (Marked Event) → Reading → Reading × Ending
  | [], r => (r, .broken)
  | ⟨e, m⟩ :: rest, r =>
    match e with
    | .documentStart => collect rest r
    | .documentEnd => (r, endingOf rest)
    | .streamEnd => (r, .complete)
    | .alias name =>
      match r.anchors.number? name with
      -- only a node in front of an alias can be meant
      | none => (r, .broken)
      | some n => collect rest (r.add none (.alias n) m)
    | .scalar s props => collect rest (r.add props.anchor (.scalar s props.tag) m)
    | .sequenceStart props => collect rest (r.add props.anchor .sequenceStart m)
    | .sequenceEnd => collect rest (r.add none .sequenceEnd m)
    | .mappingStart props => collect rest (r.add props.anchor .mappingStart m)
    | .mappingEnd => collect rest (r.add none .mappingEnd m)

/-- Let an alias tell the part at which its node starts. -/
def resolve (a : Anchors) (p : Marked Part) : Marked Part :=
  match p.value with
  | .alias n => { p with value := .alias (((a.starts.find? (·.1 == n)).map (·.2)).getD 0) }
  | _ => p

def ofEvents (events : List (Marked Event)) : Document :=
  let (r, ending) := collect events ⟨[], ⟨[], []⟩⟩
  ⟨r.back.reverse.map (resolve r.anchors), ending⟩

/-- Read a text as one document. -/
def ofText (t : Text) : Document := ofEvents (Event.ofTokens (Token.ofText t))

/-- A part, or the one that it repeats if it is an alias. -/
def target? (d : Document) (p : Marked Part) : Option (Marked Part) :=
  match p.value with
  | .alias n => d.parts[n]?
  | _ => some p

end Document
end Caretaker.Yaml

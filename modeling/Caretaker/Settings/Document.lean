import Caretaker.Settings
import Caretaker.Text.Quoted
import Caretaker.Yaml.Document
import Caretaker.Yaml.Meaning

/-!
# Settings in a document

A settings document is a mapping from the keys of settings to paths. Any scalar is a path, as it is
written. Entries are read in order, and the first flaw is the one that is reported, even where the
text is broken further on.
-/

namespace Caretaker.Settings

open Yaml

/-- A node that is no scalar. -/
inductive Collection where
  | sequence
  | map
deriving DecidableEq, Repr

def Collection.name : Collection → String
  | sequence => "sequence"
  | map => "map"

/-- What is wrong with a settings document. -/
inductive Flaw where
  /-- The document is a sequence. -/
  | notAMap
  /-- The document is a scalar with a meaning of its own. -/
  | notAMapBut (m : Meaning)
  /-- The tag of a scalar asks for a meaning that it has not. -/
  | wrongTag (wanted : Meaning.Wanted) (text : Text)
  | keyNotText (found : Collection)
  | unknownKey (key : Text)
  | repeatedKey (place : Setting)
  /-- A value is no scalar; the key may be unknown because it is an alias. -/
  | valueNotText (key : Option Text) (found : Collection)
  /-- The text is no single document. -/
  | broken
deriving Repr

/-! ## Wording -/

/-- Words between two accents. -/
def accented (s : String) : String :=
  let accent := String.singleton (Char.ofNat 0x60)
  accent ++ s ++ accent

def describeInteger (n : Int) : IntegerSize → String
  | .small => "integer " ++ accented (toString n)
  | .largeNatural => "integer " ++ accented (toString n) ++ " as u128"
  | .largeNegative => "integer " ++ accented (toString n) ++ " as i128"

def describeFloat (negative : Bool) (digits : String) : String :=
  "floating point " ++ accented ((if negative then "-" else "") ++ digits)

/-- What a scalar means, in a message. -/
def describe : Meaning → String
  | .nothing => "unit value"
  | .truth b => "boolean " ++ accented (if b then "true" else "false")
  | .integer n size => describeInteger n size
  | .float negative b => describeFloat negative (String.ofList b.shortest.positional)
  | .infinity negative => describeFloat negative "inf"
  | .notANumber => describeFloat false "NaN"
  | .text t => "string " ++ String.ofList (Text.quoted t)

/-- What a tag asks for, in a message. -/
def describeWanted : Meaning.Wanted → String
  | .truth => "a boolean"
  | .integer => "an integer"
  | .float => "a float"
  | .nothing => "null"

def knownKeys : String := String.intercalate ", " (Setting.all.map fun s => accented s.key)

namespace Flaw

def message : Flaw → String
  | notAMap => "invalid type: sequence, expected struct Settings"
  | notAMapBut m => "invalid type: " ++ describe m ++ ", expected struct Settings"
  | wrongTag wanted t =>
    "invalid value: string " ++ String.ofList (Text.quoted t) ++ ", expected " ++ describeWanted wanted
  | keyNotText found => "invalid type: " ++ found.name ++ ", expected field identifier"
  | unknownKey key =>
    "unknown field " ++ accented (String.ofList key) ++ ", expected one of " ++ knownKeys
  | repeatedKey place => "duplicate field " ++ accented place.key
  | valueNotText key found =>
    (key.map String.ofList).getD "?" ++ ": invalid type: " ++ found.name ++ ", expected path string"
  | broken => "yaml syntax error"

/-- Where a flaw is; the very start of a text goes without saying. -/
def location (m : Mark) : String :=
  if m.line = 0 ∧ m.column = 0 then ""
  else " at line " ++ toString (m.line + 1) ++ " column " ++ toString (m.column + 1)

/-- The message for a flaw at a mark. A text that is broken is so as a whole. -/
def messageAt (f : Flaw) (m : Mark) : String :=
  match f with
  | broken => f.message
  | _ => f.message ++ location m

end Flaw

/-! ## Reading -/

/-- The flaw of a document that breaks off. -/
def brokenOff : Marked Flaw := ⟨.broken, .zero⟩

/-- The text of a part that is a scalar or the alias of one. -/
def textOf (d : Document) (p : Marked Part) : Except (Marked Collection) (Marked Text) :=
  match d.target? p with
  | some ⟨.scalar s _, m⟩ => .ok ⟨s.text, m⟩
  | some ⟨.sequenceStart, m⟩ => .error ⟨.sequence, m⟩
  | some ⟨_, m⟩ => .error ⟨.map, m⟩
  | none => .error ⟨.map, p.mark⟩

/-- The key by which messages know a value. -/
def writtenKey (p : Marked Part) : Option Text :=
  match p.value with
  | .scalar s _ => some s.text
  | _ => none

/-- Read the key of an entry of a mapping that starts at `start`; `done` are the entries in front of
it. -/
def readKey (d : Document) (start : Mark) (done : List (Setting × Text)) (p : Marked Part) :
    Except (Marked Flaw) Setting :=
  match textOf d p with
  | .error c => .error ⟨.keyNotText c.value, c.mark⟩
  | .ok key =>
    match Setting.ofKey? key.value with
    | none => .error ⟨.unknownKey key.value, key.mark⟩
    | some place =>
      if done.any (·.1 == place) then .error ⟨.repeatedKey place, start⟩ else .ok place

/-- Read the value of an entry. -/
def readValue (d : Document) (key value : Marked Part) : Except (Marked Flaw) Text :=
  match textOf d value with
  | .ok t => .ok t.value
  | .error c => .error ⟨.valueNotText (writtenKey key) c.value, c.mark⟩

/-- Read the entries of a mapping up to its end. -/
def readEntries (d : Document) (start : Mark) :
    List (Marked Part) → List (Setting × Text) → Except (Marked Flaw) (List (Setting × Text))
  | [], _ => .error brokenOff
  | ⟨.mappingEnd, _⟩ :: _, done => .ok done
  | key :: [], done => do
    let _ ← readKey d start done key
    .error brokenOff
  | key :: value :: rest, done => do
    let place ← readKey d start done key
    let text ← readValue d key value
    readEntries d start rest (done ++ [(place, text)])

/-- Read the settings of a document, not minding what follows the document. -/
def ofParts (d : Document) : Except (Marked Flaw) Settings :=
  match d.parts with
  | [] => if d.ending = .broken then .error brokenOff else .ok standard
  | ⟨.mappingStart, m⟩ :: rest => (readEntries d m rest []).map ofEntries
  | ⟨.scalar s tag, m⟩ :: _ =>
    -- a document without a node has an empty plain scalar instead
    if s.plain ∧ s.text.isEmpty then .ok standard
    else
      match Meaning.ofScalar s tag with
      | .ok meaning => .error ⟨.notAMapBut meaning, m⟩
      | .error wanted => .error ⟨.wrongTag wanted s.text, m⟩
  | p :: _ => .error ⟨.notAMap, p.mark⟩

/-- Read the settings of a document. -/
def ofDocument (d : Document) : Except (Marked Flaw) Settings := do
  let s ← ofParts d
  if d.ending = .complete then .ok s else .error brokenOff

end Caretaker.Settings

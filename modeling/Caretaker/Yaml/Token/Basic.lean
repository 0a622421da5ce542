import Caretaker.Yaml.Cursor

/-!
# Tokens

A YAML stream is a sequence of tokens. Some of them are written; the ones that open and close block
collections, and the one in front of a key that no question mark announces, follow from the layout.
-/

namespace Caretaker.Yaml

/-- A tag as written: a handle, which a directive may declare, and the rest. -/
structure TagName where
  handle : Text
  suffix : Text
deriving DecidableEq, Repr

/-- The text of a scalar, and whether it is written plain. -/
structure Scalar where
  text : Text
  plain : Bool
deriving DecidableEq, Repr

inductive Token.Kind where
  | streamStart
  | streamEnd
  | versionDirective (major minor : Nat)
  | tagDirective (tag : TagName)
  | documentStart
  | documentEnd
  | blockSequenceStart
  | blockMappingStart
  | blockEnd
  | flowSequenceStart
  | flowSequenceEnd
  | flowMappingStart
  | flowMappingEnd
  | blockEntry
  | flowEntry
  | key
  | value
  | alias (name : Text)
  | anchor (name : Text)
  | tag (tag : TagName)
  | scalar (s : Scalar)
deriving DecidableEq, Repr

/-- A token and the stretch of the stream that it covers. -/
structure Token where
  kind : Token.Kind
  start : Mark
  stop : Mark
deriving DecidableEq, Repr

end Caretaker.Yaml

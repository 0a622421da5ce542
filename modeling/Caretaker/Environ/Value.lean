import Caretaker.Environ.Template

/-!
# The right-hand side of an assignment

A value is written in segments: single-quoted text stands for itself, double-quoted and unquoted
text may hold references. Removing the quotes leaves a list of pieces, and the value is what the
pieces give one after the other.
-/

namespace Caretaker.Environ

/-- A stretch of a value whose quotes have been removed. -/
inductive Piece where
  /-- Text that stands for itself. -/
  | verbatim (t : Text)
  /-- Text whose references are put in. -/
  | template (t : Text)
deriving DecidableEq, Repr

/-- The text that a piece gives. -/
def Piece.value (find : Lookup) : Piece → Text
  | .verbatim t => t
  | .template t => expand find t

/-! ## Quotes -/

/-- The quotes around a character. -/
inductive Quote where
  | bare
  | single
  | double
deriving DecidableEq, Repr

/-- Whether nothing but blanks follows, or blanks and then a comment. -/
def endsValue (s : Text) : Bool :=
  match s.dropWhile Text.isBlank with
  | [] => true
  | c :: _ => c == '#'

/--
Remove the quotes from a text that starts inside the given quotes. `held` is the piece that is
being read; it goes on across double quotes and ends at single ones. An unquoted blank ends the
value where `endsValue` says so, and a quote that is never closed is closed by the end of the text.
-/
def unquote : Quote → (held : Text) → Text → List Piece
  | .bare, held, [] => [.template held]
  | .bare, held, c :: r =>
    if c = '\'' then .template held :: unquote .single [] r
    else if c = '"' then unquote .double held r
    else if Text.isBlank c && endsValue r then [.template held]
    else unquote .bare (held ++ [c]) r
  | .single, held, [] => [.verbatim held]
  | .single, held, c :: r =>
    if c = '\'' then .verbatim held :: unquote .bare [] r else unquote .single (held ++ [c]) r
  | .double, held, [] => [.template held]
  | .double, held, '\\' :: '"' :: r => unquote .double (held ++ ['"']) r
  | .double, held, c :: r =>
    if c = '"' then unquote .bare held r else unquote .double (held ++ [c]) r

theorem unquote_bare_nil {held : Text} : unquote .bare held [] = [.template held] := by
  rw [unquote]

/-- The pieces of a raw value. -/
def pieces (raw : Text) : List Piece := unquote .bare [] raw

/-- The value that a raw right-hand side stands for. -/
def evaluate (find : Lookup) (raw : Text) : Text := (pieces raw).flatMap (Piece.value find)

end Caretaker.Environ

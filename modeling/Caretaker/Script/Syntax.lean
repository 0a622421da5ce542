import Caretaker.Text.Octets

/-!
# The language of scripts

Scripts are written in the language of the shell. A word is kept as the pieces that it is put
together from, a command as a tree. What follows the line of a command as its document in place
is kept apart, and the command refers to it by a number.
-/

namespace Caretaker.Script

/-- What a braced reference makes of the value of its parameter. -/
inductive Treatment where
  | plain
  | length
  /-- Take a word in place of an absent value. -/
  | otherwise
  /-- Take a word in place of a value, and nothing in place of an absent one. -/
  | instead
  /-- End the script with a message if the value is absent. -/
  | required
  /-- Assign a word if the value is absent. -/
  | assigned
  /-- Remove what matches a pattern at the end, as little or as much as possible. -/
  | cutEnd (longest : Bool)
  /-- Remove what matches a pattern at the front, as little or as much as possible. -/
  | cutFront (longest : Bool)
  /-- What follows the name means nothing. -/
  | unknown
deriving DecidableEq, Repr

/-- How a file is opened by a redirection. -/
inductive Opening where
  | read
  | readWrite
  /-- Cleared first, unless the shell protects files. -/
  | write
  /-- Cleared first in any case. -/
  | overwrite
  | append
deriving DecidableEq, Repr

/-- Two commands, of which the second one may depend on the first one. -/
inductive Junction where
  | sequence
  | both
  | either
deriving DecidableEq, Repr

mutual

/-- A piece of a word. -/
inductive Piece where
  | char (c : Char)
  /-- A character that has no meaning. -/
  | escaped (c : Char)
  /-- A quotation mark, which begins or ends a quotation. -/
  | quote
  /-- The value of a parameter; with `orEmpty`, an empty value counts as absent. -/
  | parameter (name : Octets) (treatment : Treatment) (orEmpty : Bool) (word : List Piece)
  /-- What a command prints. -/
  | output (command : Option Command)
  /-- The value of an arithmetic expression. -/
  | number (expression : List Piece)

/-- Where a redirection leads. -/
inductive Target where
  | file (opening : Opening) (path : List Piece)
  /-- To where another descriptor leads, or nowhere. -/
  | descriptor (n : Option Nat)
  /-- To where the descriptor named by a word leads. -/
  | named (w : List Piece)
  /-- To a document in place; whether its references are replaced. -/
  | document (number : Nat) (expands : Bool)

inductive Redirection where
  | mk (descriptor : Nat) (target : Target)

/-- A command; `line` is the line in which it starts. -/
inductive Command where
  /-- Assignments, words and redirections, in this order however they are written. -/
  | simple (line : Nat) (assignments words : List (List Piece)) (redirections : List Redirection)
  /-- Each command reads what the one before it writes. -/
  | pipeline (commands : List Command) (background : Bool)
  | redirected (line : Nat) (body : Command) (redirections : List Redirection)
  | background (line : Nat) (body : Command) (redirections : List Redirection)
  | subshell (line : Nat) (body : Command) (redirections : List Redirection)
  | negation (body : Command)
  | join (junction : Junction) (first second : Command)
  | condition (test yes : Command) (no : Option Command)
  /-- Repeat the body while the test succeeds, or, if `inverted`, while it fails. -/
  | loop (inverted : Bool) (test body : Command)
  /-- Run the body with a variable set to one word after the other. -/
  | each (line : Nat) (name : Octets) (words : List (List Piece)) (body : Command)
  /-- Run the first body with a pattern that a word matches. -/
  | cases (line : Nat) (word : List Piece) (branches : List (List (List Piece) × Option Command))
  | function (line : Nat) (name : Octets) (body : Command)

end

abbrev Word := List Piece

instance : Inhabited Command := ⟨.simple 0 [] [] []⟩

namespace Redirection

/-- The descriptor that is redirected. -/
def descriptor : Redirection → Nat
  | mk n _ => n

def target : Redirection → Target
  | mk _ t => t

end Redirection

namespace Word

/-- The word for all arguments, each of them as it is. -/
def allArguments : Word := [.quote, .parameter ['@'] .plain false [], .quote]

/-- The text of a word that is written without quotes and references. -/
def bare? (w : Word) : Option Octets :=
  w.mapM fun
    | .char c => some c
    | _ => none

/-- The text of a word whose references stand for nothing. -/
def literal (w : Word) : Octets :=
  w.filterMap fun
    | .char c | .escaped c => some c
    | _ => none

/-- Whether a word assigns to a variable: it starts with a name and an equals sign. -/
def isAssignment (w : Word) : Bool :=
  let front := w.takeWhile fun
    | .char c => Octets.isInName c
    | _ => false
  match front, w.drop front.length with
  | .char c :: _, .char '=' :: _ => Octets.startsName c
  | _, _ => false

end Word

/-! ## Reserved words -/

/-- The words that are part of the language where a command is due. -/
inductive Keyword where
  | bang | «case» | «do» | done | «elif» | «else» | esac | fi | «for» | «if» | «in» | «then» | «until» | «while»
  | braceOpen | braceClose
deriving DecidableEq, Repr

namespace Keyword

def all : List Keyword :=
  [bang, «case», «do», done, «elif», «else», esac, fi, «for», «if», «in», «then», «until», «while», braceOpen,
    braceClose]

/-- How a keyword is spelled. -/
def spelling : Keyword → String
  | bang => "!"
  | «case» => "case"
  | «do» => "do"
  | done => "done"
  | «elif» => "elif"
  | «else» => "else"
  | esac => "esac"
  | fi => "fi"
  | «for» => "for"
  | «if» => "if"
  | «in» => "in"
  | «then» => "then"
  | «until» => "until"
  | «while» => "while"
  | braceOpen => "\x7b"
  | braceClose => "\x7d"

/-- The keyword with a spelling. -/
def ofSpelling? (t : Octets) : Option Keyword := all.find? (·.spelling.toList == t)

/-- Whether a keyword closes a list of commands. -/
def closes : Keyword → Bool
  | «do» | done | «elif» | «else» | esac | fi | «then» | braceClose => true
  | _ => false

end Keyword

/-- The commands of the shell whose failures end a script, and whose assignments stay. Functions
cannot have their names. -/
def specialCommands : List String :=
  [".", ":", "break", "continue", "eval", "exec", "exit", "export", "local", "readonly", "return", "set", "shift",
    "times", "trap", "unset"]

def isSpecialCommand (name : Octets) : Bool := specialCommands.any (·.toList == name)

end Caretaker.Script

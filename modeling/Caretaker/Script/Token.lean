import Caretaker.Script.Source

/-!
# Tokens and the state of reading

The words and operators of a script, why a script cannot be read, and what a reader keeps between
two tokens.
-/

namespace Caretaker.Script

inductive Token where
  | finish
  | newline
  | semicolon
  | ampersand
  | and
  | or
  | pipe
  | opening
  | closing
  /-- The two semicolons behind a branch of a case. -/
  | branchEnd
  | redirection
  | word
  | keyword (k : Keyword)
deriving DecidableEq, Repr

namespace Token

/-- How messages name a token. -/
def described : Token → String
  | finish => "end of file"
  | newline => "newline"
  | semicolon => "\";\""
  | ampersand => "\"&\""
  | and => "\"&&\""
  | or => "\"||\""
  | pipe => "\"|\""
  | opening => "\"(\""
  | closing => "\")\""
  | branchEnd => "\";;\""
  | redirection => "redirection"
  | word => "word"
  | keyword k => "\"" ++ k.spelling ++ "\""

/-- Whether a token may end an empty list of commands. -/
def closesList : Token → Bool
  | finish | closing | branchEnd => true
  | keyword k => k.closes
  | _ => false

end Token

/-! ## Errors -/

/-- Why a script cannot be read. -/
inductive SyntaxError where
  | unterminatedQuote
  | unterminatedBackquote
  /-- The end of the text where a reference or an expression has to be closed. -/
  | missing (closing : String)
  | unexpected (found : Token) (expected : Option Token)
  | badLoopVariable
  | badFunctionName
deriving DecidableEq, Repr

/-- The message about a script that cannot be read. -/
def SyntaxError.message (e : SyntaxError) : String := "Syntax error: " ++ detail e
where
  detail : SyntaxError → String
    | .unterminatedQuote => "Unterminated quoted string"
    | .unterminatedBackquote => "EOF in backquote substitution"
    | .missing closing => "Missing '" ++ closing ++ "'"
    | .unexpected found none => found.described ++ " unexpected"
    | .unexpected found (some expected) =>
      found.described ++ " unexpected (expecting " ++ expected.described ++ ")"
    | .badLoopVariable => "Bad for loop variable"
    | .badFunctionName => "Bad function name"

/-! ## Readers -/

/-- What the next token is checked for. -/
structure Checks where
  /-- Whether a word may be an alias. -/
  aliases : Bool
  keywords : Bool
  /-- Whether line ends are passed over. -/
  newlines : Bool
  /-- Whether a word is the mark of a document, in which references stand for themselves. -/
  mark : Bool
deriving DecidableEq, Repr

namespace Checks

def none : Checks := ⟨false, false, false, false⟩

/-- Where a command is due. -/
def command : Checks := ⟨true, true, false, false⟩

/-- Where a command is due, maybe on a later line. -/
def laterCommand : Checks := ⟨true, true, true, false⟩

def or (a b : Checks) : Checks :=
  ⟨a.aliases || b.aliases, a.keywords || b.keywords, a.newlines || b.newlines, a.mark || b.mark⟩

end Checks

/-- What follows the operator of a redirection. -/
inductive RedirectionKind where
  | file (opening : Opening)
  | descriptor
  | document (stripsTabs : Bool)
deriving DecidableEq, Repr

/-- A document in place that is still to be read. -/
structure Awaited where
  number : Nat
  /-- The line that ends the document. -/
  mark : Octets
  stripsTabs : Bool
  expands : Bool

structure Reader where
  source : Source
  /-- The aliases, with their values. -/
  aliases : List (Octets × Octets)
  /-- The aliases that are in use elsewhere. -/
  busy : List Octets
  /-- Whether the last token is to be read again. -/
  repeats : Bool
  token : Token
  /-- The last word. -/
  word : Word
  /-- Whether a part of the last word was quoted. -/
  quoted : Bool
  checks : Checks
  /-- The descriptor and the kind of the last redirection. -/
  redirection : Nat × RedirectionKind
  awaited : List Awaited
  /-- The documents by their numbers. -/
  documents : Array Word

/-- A step of a reader. -/
abbrev Read := EStateM SyntaxError Reader

namespace Read

/-- Read a character, or nothing at the end. -/
def char : Read (Option Char) := do
  let r ← get
  let (c, blank, source) := r.source.next
  set { r with source, checks := { r.checks with aliases := r.checks.aliases || blank } }
  return c

/-- Put a character back. -/
def unread (c : Option Char) : Read Unit := do
  if let some c := c then modify fun r => { r with source := r.source.unread c }

/-- Count a line. -/
def countLine : Read Unit := modify fun r => { r with source := { r.source with line := r.source.line + 1 } }

/-- Read a character behind joined lines: a backslash joins a line to the next one. -/
def joined : Nat → Read (Option Char)
  | 0 => return none
  | fuel + 1 => do
    match ← char with
    | some '\\' =>
      match ← char with
      | some '\n' =>
        countLine
        joined fuel
      | c =>
        unread c
        return some '\\'
    | c => return c

/-- Refuse the last token. -/
def refuse {α : Type} (expected : Option Token) : Read α := do throw (.unexpected (← get).token expected)

/-- Read the last token again next time. -/
def again : Read Unit := modify fun r => { r with repeats := true }

def check (checks : Checks) : Read Unit := modify fun r => { r with checks }

end Read

/-- A bound for the steps of a loop that its text ends before. -/
def manySteps : Nat := 1000000000

/-- Read a character behind joined lines. -/
def Read.top : Read (Option Char) := Read.joined manySteps

end Caretaker.Script

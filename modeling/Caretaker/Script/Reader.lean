import Caretaker.Script.Word

/-!
# Reading commands

A script is read one complete command at a time, so that a command can change what the aliases
after it mean. The grammar is followed from the top down; the number of nested constructs is bounded
by a fuel that no script uses up.
-/

namespace Caretaker.Script

namespace Read

/-! ## Tokens -/

/-- Pass over a comment. -/
def comment : Nat → Read Unit
  | 0 => return
  | fuel + 1 => do
    match ← char with
    | none => return
    | some '\n' => unread (some '\n')
    | some _ => comment fuel

def found (t : Token) : Read Token := do
  modify fun r => { r with token := t }
  return t

/-- The operator of a redirection behind its first character. -/
def redirectionKind (c : Char) : Read RedirectionKind := do
  let d ← top
  match c, d with
  | '>', some '>' => return .file .append
  | '>', some '|' => return .file .overwrite
  | '<', some '>' => return .file .readWrite
  | '<', some '<' =>
    let e ← top
    if e = some '-' then return .document true
    unread e
    return .document false
  | _, some '&' => return .descriptor
  | _, _ =>
    unread d
    return .file (if c = '>' then .write else .read)

/-- Read a word, or the redirection that it turns out to be the number of. -/
def wordFrom (nested : Nested) (c : Option Char) : Read Token := do
  let (s, c) ← scan nested false none manySteps false (.start .bare) c
  if let some e := s.fault? false then throw e
  -- a single digit right in front of a redirection is its number; nothing at all is the usual one
  let descriptor? : Option (Option Nat) := match s.pieces with
    | [] => some none
    | [.char d] => if d.isDigit then some (some (d.toNat - '0'.toNat)) else none
    | _ => none
  match c, descriptor?, s.quoted with
  | some '>', some n, false =>
    let kind ← redirectionKind '>'
    modify fun r => { r with redirection := (n.getD 1, kind) }
    found .redirection
  | some '<', some n, false =>
    let kind ← redirectionKind '<'
    modify fun r => { r with redirection := (n.getD 0, kind) }
    found .redirection
  | c, _, _ =>
    unread c
    finished false s
    return .word

/-- Read a token as it stands. -/
def plainToken (nested : Nested) : Nat → Read Token
  | 0 => found .finish
  | fuel + 1 => do
    if (← get).repeats then
      modify fun r => { r with repeats := false }
      return (← get).token
    let orDouble (c : Char) (double single : Token) : Read Token := do
      let d ← top
      if d = some c then found double
      else
        unread d
        found single
    match ← top with
    | some ' ' | some '\t' => plainToken nested fuel
    | some '#' =>
      comment manySteps
      plainToken nested fuel
    | some '\n' =>
      countLine
      found .newline
    | none => found .finish
    | some '&' => orDouble '&' .and .ampersand
    | some '|' => orDouble '|' .or .pipe
    | some ';' => orDouble ';' .branchEnd .semicolon
    | some '(' => found .opening
    | some ')' => found .closing
    | c => wordFrom nested c

/-- Pass over line ends. -/
def afterNewlines (nested : Nested) : Nat → Token → Read Token
  | 0, t => return t
  | fuel + 1, t => do
    if t ≠ .newline then return t
    documents nested
    check .none
    afterNewlines nested fuel (← plainToken nested manySteps)

/-- The value of an alias that is not in use. -/
def alias? (name : Octets) : Read (Option Octets) := do
  let r ← get
  if (r.source.inUse ++ r.busy).contains name then return none
  return (r.aliases.find? (·.1 == name)).map (·.2)

/-- Read a token. A word that is an alias is replaced by the value of the alias. -/
def tokenFor (nested : Nested) : Nat → Checks → Read Token
  | 0, _ => found .finish
  | fuel + 1, wanted => do
    let t ← plainToken nested manySteps
    let t ← if wanted.newlines then afterNewlines nested manySteps t else pure t
    let r ← get
    let wanted := wanted.or r.checks
    check .none
    let bare := if t = .word && !r.quoted then Word.bare? r.word else none
    match bare with
    | none => return t
    | some name =>
      match if wanted.keywords then Keyword.ofSpelling? name else none with
      | some k => found (.keyword k)
      | none =>
        if !wanted.aliases then return t
        match ← alias? name with
        | none => return t
        | some value =>
          -- the value is read in place of the word; until it ends, the alias is in use
          if !value.isEmpty then modify fun r => { r with source := r.source.push value (some name) }
          tokenFor nested fuel wanted

/-- Read a token, checked for what is due. -/
def token (nested : Nested) : Read Token := do tokenFor nested manySteps (← get).checks

/-- Read a token that has to be a certain one. -/
def expect (nested : Nested) (t : Token) : Read Unit := do
  if (← token nested) ≠ t then refuse (some t)

/-! ## Redirections -/

/-- Read what a redirection leads to. -/
def redirection (nested : Nested) : Read Redirection := do
  let (descriptor, kind) := (← get).redirection
  -- the mark of a document is taken as it is written
  if let .document _ := kind then check { Checks.none with mark := true }
  if (← token nested) ≠ .word then refuse none
  let r ← get
  match kind with
  | .file opening => return .mk descriptor (.file opening r.word)
  | .descriptor =>
    match r.word with
    | [.char '-'] => return .mk descriptor (.descriptor none)
    | [.char d] =>
      if d.isDigit then return .mk descriptor (.descriptor (some (d.toNat - '0'.toNat)))
      return .mk descriptor (.named r.word)
    | w => return .mk descriptor (.named w)
  | .document stripsTabs =>
    -- the document begins on a later line; its place is kept free until it is read
    let number := r.documents.size
    let awaited : Awaited := ⟨number, Word.literal r.word, stripsTabs, !r.quoted⟩
    set { r with awaited := r.awaited ++ [awaited], documents := r.documents.push [] }
    return .mk descriptor (.document number !r.quoted)

/-- Read the redirections behind a command. -/
def redirections (nested : Nested) : Nat → Read (List Redirection)
  | 0 => return []
  | fuel + 1 => do
    if (← token nested) = .redirection then
      let r ← redirection nested
      return r :: (← redirections nested fuel)
    again
    return []

/-- A command with the redirections behind it. -/
def redirected (nested : Nested) (line : Nat) (c : Command) : Read Command := do
  check .command
  let rs ← redirections nested manySteps
  return match rs, c with
  | [], c => c
  | rs, .subshell line body _ => .subshell line body rs
  | rs, c => .redirected line c rs

/-! ## Simple commands -/

/-- What has been read of a simple command, in reverse. -/
structure Draft where
  assignments : List Word
  words : List Word
  redirections : List Redirection

/-- Read words up to one that is no word. -/
def words (nested : Nested) : Nat → Read (List Word)
  | 0 => return []
  | fuel + 1 => do
    if (← token nested) = .word then
      let w := (← get).word
      return w :: (← words nested fuel)
    return []

/-- A name for a function, if a word is one. -/
def functionName? (w : Word) : Option Octets :=
  (Word.bare? w).filter fun t => Octets.isName t && !isSpecialCommand t

/-- Read a simple command, or a function whose body is read by `body`. -/
def simple (nested : Nested) (body : Read Command) (line : Nat) : Nat → Draft → Read Command
  | 0, _ => return default
  | fuel + 1, d => do
    check { Checks.none with aliases := d.words.isEmpty }
    let finish : Read Command := do
      again
      return .simple line d.assignments.reverse d.words.reverse d.redirections.reverse
    match ← token nested with
    | .word =>
      let w := (← get).word
      -- behind the first word, an equals sign is a character like any other
      if d.words.isEmpty && Word.isAssignment w then
        simple nested body line fuel { d with assignments := w :: d.assignments }
      else simple nested body line fuel { d with words := w :: d.words }
    | .redirection =>
      let r ← redirection nested
      simple nested body line fuel { d with redirections := r :: d.redirections }
    | .opening =>
      match d with
      | ⟨[], [w], []⟩ =>
        expect nested .closing
        match functionName? w with
        | none => throw .badFunctionName
        | some name =>
          check .laterCommand
          let line := (← get).source.line
          return .function line name (← body)
      | _ => finish
    | _ => finish

/-! ## Lists -/

/-- Where a list of commands stands. -/
inductive Site where
  /-- On a line. -/
  | line
  /-- In a compound command, where it cannot be empty. -/
  | body
  /-- Where it may be empty. -/
  | open
deriving DecidableEq

/-- Let a command run in the background. -/
def inBackground (line : Nat) : Command → Command
  | .pipeline cs _ => .pipeline cs true
  | .redirected line c rs => .background line c rs
  | c => .background line c []

def join? : Option Command → Command → Command
  | none, c => c
  | some b, c => .join .sequence b c

end Read

open Read

mutual

/-- Read the commands within a word. -/
def nested : Nat → Nested
  | 0, _ => return none
  | fuel + 1, none => do
    -- documents that are awaited outside do not begin inside
    let awaited := (← get).awaited
    modify fun r => { r with awaited := [] }
    let c ← list fuel .open
    expect (nested fuel) .closing
    modify fun r => { r with awaited }
    return c
  | fuel + 1, some t => do
    let outer ← get
    set { outer with source := .ofText t, busy := outer.busy ++ outer.source.inUse, awaited := [] }
    let c ← list fuel .open
    modify fun r =>
      { r with source := outer.source, busy := outer.busy, awaited := outer.awaited, repeats := false }
    return c

/-- Read a list of commands. -/
def list : Nat → Read.Site → Read (Option Command)
  | 0, _ => return none
  | fuel + 1, place => listFrom fuel place true none

/-- Read the rest of a list of commands. -/
def listFrom : Nat → Read.Site → (first : Bool) → Option Command → Read (Option Command)
  | 0, _, _, before => return before
  | fuel + 1, place, first, before => do
    let atEnd (c : Option Command) : Read (Option Command) := do
      documents (nested fuel)
      again
      let _ ← found .finish
      return c
    check (if place = .line then .command else .laterCommand)
    match ← token (nested fuel) with
    | .newline =>
      documents (nested fuel)
      return before
    | .finish => atEnd before
    | t =>
      again
      if (place = .open || place = .body && !first) && t.closesList then return before
      let c ← andOr fuel
      let t ← token (nested fuel)
      let line := (← get).source.line
      let all := join? before (if t = .ampersand then inBackground line c else c)
      match t with
      | .finish => atEnd all
      | .newline =>
        again
        listFrom fuel place false all
      | .ampersand | .semicolon => listFrom fuel place false all
      | _ =>
        if place = .line then refuse none
        again
        return all

/-- Read commands joined by `&&` and `||`. -/
def andOr : Nat → Read Command
  | 0 => return default
  | fuel + 1 => do andOrFrom fuel (← pipeline fuel)

def andOrFrom : Nat → Command → Read Command
  | 0, c => return c
  | fuel + 1, c => do
    let joined (junction : Junction) : Read Command := do
      check .laterCommand
      andOrFrom fuel (.join junction c (← pipeline fuel))
    match ← token (nested fuel) with
    | .and => joined .both
    | .or => joined .either
    | _ =>
      again
      return c

/-- Read commands of which each reads what the one before it writes. -/
def pipeline : Nat → Read Command
  | 0 => return default
  | fuel + 1 => do
    let negated := (← token (nested fuel)) = .keyword .bang
    if negated then check ⟨true, true, false, false⟩ else again
    let c ← command fuel
    let rest ← pipes fuel
    let c := if rest.isEmpty then c else .pipeline (c :: rest) false
    return if negated then .negation c else c

def pipes : Nat → Read (List Command)
  | 0 => return []
  | fuel + 1 => do
    if (← token (nested fuel)) = .pipe then
      check .laterCommand
      let c ← command fuel
      return c :: (← pipes fuel)
    again
    return []

/-- Read a list that cannot be empty. -/
def body : Nat → Read Command
  | 0 => return default
  | fuel + 1 => do return (← list fuel .body).getD default

/-- Read a command. -/
def command : Nat → Read Command
  | 0 => return default
  | fuel + 1 => do
    let line := (← get).source.line
    let closed (k : Keyword) (c : Command) : Read Command := do
      expect (nested fuel) (.keyword k)
      redirected (nested fuel) line c
    match ← token (nested fuel) with
    | .keyword .if => closed .fi (← condition fuel)
    | .keyword .while =>
      let test ← body fuel
      expect (nested fuel) (.keyword .do)
      closed .done (.loop false test (← body fuel))
    | .keyword .until =>
      let test ← body fuel
      expect (nested fuel) (.keyword .do)
      closed .done (.loop true test (← body fuel))
    | .keyword .for =>
      let t ← token (nested fuel)
      let r ← get
      let name? := if t = .word && !r.quoted then (Word.bare? r.word).filter Octets.isName else none
      match name? with
      | none => throw .badLoopVariable
      | some name =>
        check .laterCommand
        let words ← loopWords fuel
        check .laterCommand
        expect (nested fuel) (.keyword .do)
        closed .done (.each line name words (← body fuel))
    | .keyword .case =>
      expect (nested fuel) .word
      let word := (← get).word
      check .laterCommand
      expect (nested fuel) (.keyword .in)
      check ⟨false, true, true, false⟩
      let branches ← branches fuel (← token (nested fuel))
      redirected (nested fuel) line (.cases line word branches)
    | .opening =>
      let c ← body fuel
      expect (nested fuel) .closing
      redirected (nested fuel) line (.subshell line c [])
    | .keyword .braceOpen => closed .braceClose (← body fuel)
    | .word | .redirection =>
      again
      simple (nested fuel) (command fuel) (← get).source.line manySteps ⟨[], [], []⟩
    | _ => refuse none

/-- Read the words of a loop; without any, they are all arguments. -/
def loopWords : Nat → Read (List Word)
  | 0 => return []
  | fuel + 1 => do
    let t ← token (nested fuel)
    if t = .keyword .in then
      let ws ← words (nested fuel) manySteps
      let t := (← get).token
      if t ≠ .newline && t ≠ .semicolon then refuse none
      return ws
    if t ≠ .semicolon then again
    return [Word.allArguments]

/-- Read the rest of a condition. -/
def condition : Nat → Read Command
  | 0 => return default
  | fuel + 1 => do
    let test ← body fuel
    expect (nested fuel) (.keyword .then)
    let yes ← body fuel
    match ← token (nested fuel) with
    | .keyword .elif => return .condition test yes (some (← condition fuel))
    | .keyword .else => return .condition test yes (some (← body fuel))
    | _ =>
      again
      return .condition test yes none

/-- Read the branches of a case, from a token on. -/
def branches : Nat → Token → Read (List (List Word × Option Command))
  | 0, _ => return []
  | fuel + 1, t => do
    if t = .keyword .esac then return []
    if t = .opening then
      let _ ← token (nested fuel)
    let ps ← patterns fuel
    if (← get).token ≠ .closing then refuse (some .closing)
    let c ← list fuel .open
    check ⟨false, true, true, false⟩
    let t ← token (nested fuel)
    if t = .keyword .esac then return [(ps, c)]
    if t ≠ .branchEnd then refuse (some .branchEnd)
    check ⟨false, true, true, false⟩
    return (ps, c) :: (← branches fuel (← token (nested fuel)))

/-- Read the patterns of a branch, the first of which has been read. -/
def patterns : Nat → Read (List Word)
  | 0 => return []
  | fuel + 1 => do
    let w := (← get).word
    if (← token (nested fuel)) = .pipe then
      let _ ← token (nested fuel)
      return w :: (← patterns fuel)
    return [w]

end

/-! ## Readers -/

namespace Reader

/-- A bound for the constructs that are nested in a script. -/
def maxDepth : Nat := 1000000

/-- A reader in front of a source. -/
def start (source : Source) (aliases : List (Octets × Octets)) (busy : List Octets) (documents : Array Word) :
    Reader :=
  ⟨source, aliases, busy, false, .finish, [], false, .none, (0, .descriptor), [], documents⟩

/-- What stands on a line: a command or nothing; or the end of the source. -/
inductive Line where
  | command (c : Option Command) (isLast : Bool)
  | finish

/-- Read a line, and the lines that a command on it goes on to. -/
def line : Read Line := do
  modify fun r => { r with repeats := false, checks := .none, awaited := [] }
  let c ← list maxDepth .line
  let r ← get
  let atEnd := r.repeats && r.token = .finish
  return if c.isNone && atEnd then .finish else .command c atEnd

/-- Read the whole source as a text between double quotes. -/
def wholeText : Read Word := do
  let (s, _) ← scan (nested maxDepth) true none manySteps false (.start .double) (← top)
  finished true s
  return (← get).word

end Reader
end Caretaker.Script

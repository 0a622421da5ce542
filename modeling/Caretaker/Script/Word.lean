import Caretaker.Script.Token

/-!
# Reading words

A word is read up to a character that ends it. On the way quotations and braced references are
entered and left, and what a character means depends on where it stands. Documents in place are
read in the same manner, up to the line that is their mark.
-/

namespace Caretaker.Script

/-! ## Characters -/

/-- How the text is quoted in which a character stands. -/
inductive Quoting where
  | bare
  | double
  | single
  | arithmetic
deriving DecidableEq, Repr

/-- What a character means. -/
inductive Meaning where
  | itself
  /-- It may mean something in the value of a word, but not where it stands. -/
  | guarded
  | lineEnd
  | backslash
  | startsSingle
  | startsDouble
  | endsQuote
  | dollar
  | closesBrace
  | opensParen
  | closesParen
  | backquote
  /-- It ends a word. -/
  | breaks
  | finish
deriving DecidableEq, Repr

/-- The bytes that are reserved for marks within words. -/
def isReserved (c : Char) : Bool := 0x81 ≤ c.toNat && c.toNat ≤ 0x88

/-- The characters that mean something in patterns and in front of home directories. -/
def isActive (c : Char) : Bool := "!*?[=~:/-]".toList.contains c

/-- What a character means in a quotation. -/
def Quoting.meaning (q : Quoting) : Option Char → Meaning
  | none => .finish
  | some c =>
    if isReserved c then .guarded
    else
      match q, c with
      | _, '\n' => .lineEnd
      | .single, '\'' => .endsQuote
      | .single, '\\' => .guarded
      | .single, c => if isActive c then .guarded else .itself
      | _, '\\' => .backslash
      | _, '$' => .dollar
      | _, '}' => .closesBrace
      | _, '\x60' => .backquote
      | .bare, '\'' => .startsSingle
      | .bare, '"' => .startsDouble
      | .bare, c => if "<>();&| \t".toList.contains c then .breaks else .itself
      | .double, '"' => .endsQuote
      | .double, c => if isActive c then .guarded else .itself
      | .arithmetic, '(' => .opensParen
      | .arithmetic, ')' => .closesParen
      | .arithmetic, _ => .itself

/-- The parameters whose names are one character that is no letter. -/
def isSpecialName (c : Char) : Bool := c.isDigit || "!#$*-?@".toList.contains c

/-! ## Words that are being read -/

/-- A quotation within which other ones may stand. -/
structure Level where
  quoting : Quoting
  /-- Whether a quotation has been opened within a braced reference. -/
  innerQuote : Bool
  /-- Whether the level ends with a braced reference. -/
  pushed : Bool
  /-- Whether double quotes are around. -/
  quoted : Bool
  /-- The braced references that are open. -/
  depth : Nat
  /-- The parentheses that are open. -/
  parens : Nat
  /-- The braced references that are open within double quotes. -/
  quotedDepth : Nat

def Level.start (quoting : Quoting) : Level := ⟨quoting, false, false, quoting == .double, 0, 0, 0⟩

/-- What has been opened, with the pieces in front of it, the last one first. -/
inductive Frame where
  | parameter (name : Octets) (treatment : Treatment) (orEmpty : Bool) (before : List Piece)
  | number (before : List Piece)

/-- A word that is being read. -/
structure Scan where
  level : Level
  below : List Level
  frames : List Frame
  /-- The pieces since the last opening, the last one first. -/
  pieces : List Piece
  /-- Whether something was quoted. -/
  quoted : Bool

namespace Scan

def start (quoting : Quoting) : Scan := ⟨.start quoting, [], [], [], false⟩

def put (s : Scan) (p : Piece) : Scan := { s with pieces := p :: s.pieces }

def putChar (s : Scan) (c : Option Char) : Scan :=
  match c with
  | some c => s.put (.char c)
  | none => s

/-- Enter a level. -/
def enter (s : Scan) (level : Level) : Scan := { s with level, below := s.level :: s.below }

/-- Leave a level. -/
def leave (s : Scan) : Scan :=
  match s.below with
  | [] => s
  | level :: below => { s with level, below }

/-- Put what has been opened last together. -/
def close (s : Scan) : Scan :=
  let word := s.pieces.reverse
  match s.frames with
  | [] => s
  | .parameter name t orEmpty before :: frames =>
    { s with frames, pieces := .parameter name t orEmpty word :: before }
  | .number before :: frames => { s with frames, pieces := .number word :: before }

/-- Begin or end a quotation with a mark, which documents do not have. -/
def mark (s : Scan) (inDocument : Bool) : Scan := if inDocument then s else s.put .quote

/-- Note that a double quote has been seen within a braced reference. -/
def toggle (s : Scan) : Scan :=
  if s.level.depth = 0 then s else { s with level := { s.level with innerQuote := !s.level.innerQuote } }

/-- End a quotation, unless a braced reference in it is open. -/
def endQuote (s : Scan) (isDouble inDocument : Bool) : Scan :=
  let s :=
    if s.level.quotedDepth = 0 then { s with level := { s.level with quoting := .bare, quoted := false } } else s
  let s := { s with quoted := true }
  (if isDouble then s.toggle else s).mark inDocument

/-- Close a braced reference, if one is open. -/
def closeBrace (s : Scan) : Scan :=
  let l := s.level
  if l.innerQuote || l.depth = 0 then s.put (.char '}')
  else
    let s := { s with level := { l with depth := l.depth - 1 } }
    let s :=
      if l.depth = 1 && l.pushed then s.leave
      else { s with level := { s.level with quotedDepth := l.quotedDepth - 1 } }
    s.close

/-- Open a braced reference. What follows a name is quoted as the reference is, but a pattern is not.
-/
def openBrace (s : Scan) (name : Octets) (t : Treatment) (orEmpty : Bool) : Scan :=
  let quoting := match t, s.level.quoting with
    | .cutFront _, _ | .cutEnd _, _ => .bare
    | _, .arithmetic => .double
    | _, q => q
  let s :=
    if quoting ≠ s.level.quoting || s.level.innerQuote then
      s.enter { Level.start quoting with pushed := true, quoted := quoting != .bare }
    else s
  let l := s.level
  { s with
    level := { l with depth := l.depth + 1, quotedDepth := if l.quoted then l.quotedDepth + 1 else l.quotedDepth }
    frames := .parameter name t orEmpty s.pieces :: s.frames
    pieces := [] }

/-- Open an arithmetic expression. -/
def openNumber (s : Scan) : Scan :=
  { s.enter { Level.start .arithmetic with quoted := true } with
    frames := .number s.pieces :: s.frames
    pieces := [] }

/-- Why a word cannot end where it ends. -/
def fault? (s : Scan) (inDocument : Bool) : Option SyntaxError :=
  if s.level.quoting = .arithmetic then some (.missing "))")
  else if s.level.quoting ≠ .bare && !inDocument then some .unterminatedQuote
  else if s.level.depth ≠ 0 then some (.missing "\x7d")
  else none

end Scan

/-! ## References -/

/-- How commands within a word are read: those in parentheses from where they stand, others from a
text of their own. -/
abbrev Nested := Option Octets → Read (Option Command)

namespace Read

/-- Read on as long as characters belong together; the first character behind them comes too. -/
def run (p : Char → Bool) : Nat → Option Char → Read (Octets × Option Char)
  | 0, c => return ([], c)
  | fuel + 1, c => do
    match c with
    | some d =>
      if p d then
        let (t, c) ← run p fuel (← top)
        return (d :: t, c)
      else return ([], c)
    | none => return ([], none)

/-- Read what a braced reference does, behind its name. -/
def treatment (c : Option Char) : Read (Treatment × Bool) := do
  let simple (c : Option Char) : Treatment := match c with
    | some '}' => .plain
    | some '-' => .otherwise
    | some '+' => .instead
    | some '?' => .required
    | some '=' => .assigned
    | _ => .unknown
  let isDoubled (c : Char) : Read Bool := do
    let d ← top
    if d = some c then return true
    unread d
    return false
  match c with
  | some ':' => return (simple (← top), true)
  | some '#' => return (.cutFront (← isDoubled '#'), false)
  | some '%' => return (.cutEnd (← isDoubled '%'), false)
  | c => return (simple c, false)

/-- Read a name of letters or a number; the first character behind it comes too. -/
def name (c : Option Char) : Read (Octets × Option Char) :=
  match c with
  | some d => if d.isDigit then run Char.isDigit manySteps c else run Octets.isInName manySteps c
  | none => return ([], none)

/-- Read a reference behind its opening brace. -/
def braced (c : Option Char) : Read (Octets × Treatment × Bool) := do
  let bad (c : Option Char) : Read (Octets × Treatment × Bool) := do
    unread c
    return ([], .unknown, false)
  let lengthOf (name : Octets) (c : Option Char) : Read (Octets × Treatment × Bool) := do
    unread c
    return (name, if c = some '}' then .length else .unknown, false)
  let of (name : Octets) (c : Option Char) : Read (Octets × Treatment × Bool) := do
    let (t, orEmpty) ← treatment c
    return (name, t, orEmpty)
  match c with
  | some '}' => bad c
  | some '#' =>
    let c ← top
    if c.any Octets.isInName then
      let (name, c) ← name c
      lengthOf name c
    else
      let d ← top
      -- a brace right behind the hash, or more than one character up to it: the number of arguments
      if c = some '}' || d ≠ some '}' then
        unread d
        of ['#'] c
      else
        match c with
        | some c => if isSpecialName c then lengthOf [c] d else bad d
        | none => bad d
  | some d =>
    if Octets.isInName d then
      let (name, c) ← name c
      of name c
    else
      let c ← top
      if isSpecialName d then of [d] c else bad c
  | none =>
    bad (← top)

/-- Read what follows a dollar sign. One that refers to nothing stands for itself. -/
def dollar (nested : Nested) (s : Scan) : Read Scan := do
  let c ← top
  let refers := c.any fun c => c == '(' || c == '{' || Octets.startsName c || isSpecialName c
  -- in the mark of a document nothing is replaced
  if (← get).checks.mark || !refers then
    unread c
    return s.put (.char '$')
  match c with
  | some '(' =>
    let c ← top
    if c = some '(' then return s.openNumber
    unread c
    return s.put (.output (← nested none))
  | some '{' =>
    let (name, t, orEmpty) ← braced (← top)
    return if t = .plain && !orEmpty then s.put (.parameter name .plain false []) else s.openBrace name t orEmpty
  | some d =>
    if Octets.startsName d then
      let (name, c) ← name c
      unread c
      return s.put (.parameter name .plain false [])
    return s.put (.parameter [d] .plain false [])
  | none => return s

/-- Read a script up to a backquote. Inside, a backslash protects a backquote, a dollar and itself,
and a double quote if double quotes are around. -/
def backquoted (quoted : Bool) : Nat → Octets → Read Octets
  | 0, t => return t.reverse
  | fuel + 1, t => do
    match ← top with
    | none => throw .unterminatedBackquote
    | some '\x60' => return t.reverse
    | some '\\' =>
      let c ← char
      let isProtected := c.any fun c => c == '\\' || c == '\x60' || c == '$' || quoted && c == '"'
      backquoted quoted fuel (c.toList ++ if isProtected then t else '\\' :: t)
    | some '\n' =>
      countLine
      backquoted quoted fuel ('\n' :: t)
    | some c => backquoted quoted fuel (c :: t)

/-! ## Documents -/

/-- The mark of a document, and whether tabs in front of its lines are left out. -/
structure DocumentEnd where
  mark : Octets
  stripsTabs : Bool

/-- Read the next character of a word; single quotes protect a backslash that joins lines. -/
def charIn (quoting : Quoting) : Read (Option Char) := if quoting = .single then char else top

/-- Compare a line with the rest of a mark. If it is no mark, all but its first character is put
back; if it is one, the document is at its end. -/
def compareMark (quoting : Quoting) : (mark seen : Octets) → Option Char → Read (Option Char)
  | [], seen, c =>
    if c = none || c = some '\n' then do
      countLine
      return none
    else putBack seen c
  | m :: mark, seen, c =>
    if c = some m then do compareMark quoting mark (m :: seen) (← charIn quoting) else putBack seen c
where
  putBack (seen : Octets) (c : Option Char) : Read (Option Char) := do
    match seen.reverse with
    | [] => return c
    | first :: more =>
      let t := more ++ c.toList
      if !t.isEmpty then modify fun r => { r with source := r.source.push t none }
      return some first

/-- Pass over tabs. -/
def afterTabs : Nat → Option Char → Read (Option Char)
  | 0, c => return c
  | fuel + 1, c => do if c = some '\t' then afterTabs fuel (← char) else return c

/-- Look whether a line is the mark of a document. -/
def lineStart (quoting : Quoting) (e : DocumentEnd) (c : Option Char) : Read (Option Char) := do
  compareMark quoting e.mark [] (← if e.stripsTabs then afterTabs manySteps c else pure c)

/-! ## Words -/

/-- What is kept of a character behind a backslash. -/
def escaped (s : Scan) (inDocument : Bool) (c : Char) : Scan :=
  let l := s.level
  let isProtected :=
    c == '\\' || c == '\x60' || c == '$' || (c == '"' && !(inDocument && l.depth == 0)) ||
      (c == '}' && l.depth != 0)
  let s := if l.quoted && !isProtected then s.put (.escaped '\\') else s
  { s.put (.escaped c) with quoted := true }

/-- Read a word to its end, which comes too. A document has a mark at its end, unless it takes the
whole text. -/
def scan (nested : Nested) (inDocument : Bool) (ending : Option DocumentEnd) :
    Nat → (atStart : Bool) → Scan → Option Char → Read (Scan × Option Char)
  | 0, _, s, c => return (s, c)
  | fuel + 1, atStart, s, c => do
    let quoting := s.level.quoting
    let c ← match ending with
      | some e => if atStart then lineStart quoting e c else pure c
      | none => pure c
    let on (s : Scan) : Read (Scan × Option Char) := do
      scan nested inDocument ending fuel false s (← charIn s.level.quoting)
    match quoting.meaning c with
    | .itself => on (s.putChar c)
    | .guarded =>
      match c with
      | some d => on (s.put (if inDocument && !s.level.quoted then .char d else .escaped d))
      | none => on s
    | .lineEnd =>
      -- a line may end within quotes and within braces
      if quoting = .bare && s.level.depth = 0 then return (s, c)
      countLine
      scan nested inDocument ending fuel true (s.putChar c) (← charIn quoting)
    | .backslash =>
      match ← char with
      | none => on (s.put (.escaped '\\'))
      | some d => on (escaped s inDocument d)
    | .startsSingle => on ({ s with level := { s.level with quoting := .single } }.mark inDocument)
    | .startsDouble =>
      on ({ s with level := { s.level with quoting := .double, quoted := true } }.toggle.mark inDocument)
    | .endsQuote =>
      if inDocument && s.level.depth = 0 then on (s.putChar c)
      else on (s.endQuote (c = some '"') inDocument)
    | .dollar => on (← dollar nested s)
    | .closesBrace => on s.closeBrace
    | .opensParen => on ({ s with level := { s.level with parens := s.level.parens + 1 } }.putChar c)
    | .closesParen =>
      if s.level.parens > 0 then
        on ({ s with level := { s.level with parens := s.level.parens - 1 } }.putChar c)
      else
        let d ← top
        -- it takes two of them to close an arithmetic expression
        if d = some ')' then on s.close.leave
        else
          unread d
          on (s.putChar c)
    | .backquote =>
      if (← get).checks.mark then on (s.putChar c)
      else
        let t ← backquoted s.level.quoted manySteps []
        on (s.put (.output (← nested (some t))))
    | .breaks => if s.level.depth = 0 then return (s, c) else on (s.putChar c)
    | .finish => return (s, c)

/-- Refuse a word that cannot end where it ends. -/
def finished (inDocument : Bool) (s : Scan) : Read Unit := do
  if let some e := s.fault? inDocument then throw e
  modify fun r => { r with word := s.pieces.reverse, quoted := s.quoted, token := .word }

/-- Read a document that is awaited. -/
def document (nested : Nested) (a : Awaited) : Read Unit := do
  let quoting : Quoting := if a.expands then .double else .single
  let (s, _) ← scan nested true (some ⟨a.mark, a.stripsTabs⟩) manySteps true (.start quoting) (← charIn quoting)
  finished true s
  modify fun r => { r with documents := r.documents.setIfInBounds a.number r.word }

/-- Read all documents that are awaited. -/
def documents (nested : Nested) : Read Unit := do
  let awaited := (← get).awaited
  modify fun r => { r with awaited := [] }
  awaited.forM (document nested)

end Read
end Caretaker.Script

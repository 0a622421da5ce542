import Caretaker.Script.Arithmetic
import Caretaker.Script.Field
import Caretaker.Script.Pattern
import Caretaker.Script.Shell

/-!
# Replacing words by their values

The references in a word are replaced by values. What comes from references without quotes is then
cut into fields and matched against the names of files, so that one word can become several ones or
none.
-/

namespace Caretaker.Script

/-- What runs a command and answers with what it prints. -/
abbrev Capture := Option Command → Step Octets

/-- What a word is wanted for. -/
structure Mode where
  /-- Whether it becomes fields. -/
  full : Bool
  /-- Whether home directories are replaced behind colons too, as in the value of an assignment. -/
  assigns : Bool
  /-- Whether the equals sign of the assignment has been passed. -/
  afterEquals : Bool
  /-- Whether it stands in a braced reference in place of a value. -/
  inner : Bool
  /-- Whether it stands in quotes. -/
  quoted : Bool

namespace Mode

def fields : Mode := ⟨true, false, false, false, false⟩
def joined : Mode := ⟨false, false, false, false, false⟩
def assignment : Mode := ⟨false, true, false, false, false⟩
def document : Mode := ⟨false, false, false, false, true⟩

end Mode

/-! ## Values -/

/-- A value as cells. In quotes, its characters have no meaning. -/
def Cell.ofValue (quoted : Bool) (t : Octets) : List Cell :=
  t.map fun c => if isReserved c || quoted && (isActive c || c == '\\') then .escaped c else .plain c

/-- The home directories of the accounts that every machine has. -/
def accounts : List (String × String) :=
  [("root", "/root"), ("daemon", "/usr/sbin"), ("bin", "/bin"), ("sys", "/dev"), ("sync", "/bin"),
    ("games", "/usr/games"), ("man", "/var/cache/man"), ("lp", "/var/spool/lpd"), ("mail", "/var/mail"),
    ("news", "/var/spool/news"), ("uucp", "/var/spool/uucp"), ("proxy", "/bin"), ("www-data", "/var/www"),
    ("backup", "/var/backups"), ("list", "/var/list"), ("irc", "/run/ircd"), ("_apt", "/nonexistent"),
    ("nobody", "/nonexistent")]

/-- The home directory behind a tilde. -/
def home? (s : Shell) (name : Octets) : Option Octets :=
  if name.isEmpty then s.vars.value? "HOME".toList
  else (accounts.find? (·.1.toList == name)).map (·.2.toList)

/-- The name behind a tilde at the front of a word, up to a slash, or to a colon in an assignment.
Nothing else than characters may stand in it. -/
def tildeName? (assigns : Bool) : Word → Option Octets
  | .char '~' :: rest => name rest
  | _ => none
where
  name : Word → Option Octets
    | [] => some []
    | .char c :: rest => if c = '/' ∨ assigns ∧ c = ':' then some [] else (name rest).map (c :: ·)
    | _ => none

/-- What stands between arguments that are put into one word. -/
inductive Separator where
  | gap
  | char (c : Char)
  | nothing

def Separator.cells (quoted : Bool) : Separator → List Cell
  | gap => [.gap]
  | char c => Cell.ofValue quoted [c]
  | nothing => []

namespace Shell

/-- The separators of fields. -/
def separators (s : Shell) : Octets := (s.vars.value? "IFS".toList).getD Field.blanks

/-- What stands between all arguments, for either of the two names they have. -/
def separator (s : Shell) (full quoted each : Bool) : Separator :=
  let separators := s.vars.value? "IFS".toList
  if full && quoted && each then .gap
  else if full && !quoted then (if separators.isSome then .gap else .char ' ')
  else
    match separators with
    | none => .char ' '
    | some [] => .nothing
    | some (c :: _) => .char c

/-- The value of a parameter as cells, and its length. -/
def parameter? (s : Shell) (full quoted : Bool) (name : Octets) : Option (List Cell × Nat) :=
  let text (t : Octets) : List Cell × Nat := (Cell.ofValue quoted t, t.length)
  let number (n : Nat) : Option (List Cell × Nat) := some (text (Octets.ofNat n))
  let all (each : Bool) : Option (List Cell × Nat) :=
    let separator := (s.separator full quoted each).cells quoted
    some ((s.args.map (Cell.ofValue quoted)).intersperse separator |>.flatten,
      (s.args.map (·.length)).foldl (· + ·) 0 + (s.args.length - 1) * separator.length)
  match name with
  | ['$'] => number s.rootProcess
  | ['?'] => number s.status
  | ['#'] => number s.args.length
  | ['!'] => s.background.bind number
  | ['-'] => some (text (Switch.letters s.switches))
  | ['@'] => all true
  | ['*'] => all false
  | c :: _ =>
    if c.isDigit then
      match (Number.digits 10 name).1 with
      | 0 => some (text s.name)
      | n + 1 => (s.args[n]?).map text
    else (s.vars.value? name).map text
  | [] => none

end Shell

/-! ## Cutting values -/

namespace Cell

/-- The cells in front of the first gap. -/
def beforeGap (cells : List Cell) : List Cell := cells.takeWhile (· != .gap)

/-- Cells as they are kept: a mark stands in front of each character without a meaning. -/
def kept : List Cell → Octets
  | [] => []
  | .gap :: r => '\x00' :: kept r
  | .plain c :: r => c :: kept r
  | .escaped c :: r => '\x81' :: c :: kept r
  | .quote :: r => kept r

def isEscaped : Cell → Bool
  | .escaped _ => true
  | _ => false

/-- The place where a search from the end finds a match of what stands in front of it or behind it, up
to a gap; it is counted in cells, whatever is searched. If there are marks in the first argument, only
that one is searched, without them. It lies behind the pattern then, and the search goes on there. -/
def placeFromEnd? (front : Bool) (pattern : Octets) (cells : List Cell) : Option Nat :=
  let first := beforeGap cells
  let isApart := first.any isEscaped
  let t := text first
  let row := if isApart then kept cells ++ '\x00' :: pattern ++ '\x00' :: t else kept cells
  (List.range (min cells.length row.length + 1)).findSome? fun n =>
    let behind := (row.drop (row.length - n)).takeWhile (· != '\x00')
    let isFound :=
      if !front then Pattern.isMatch pattern behind
      else if isApart && t.length < n then Pattern.isMatch (pattern.take (pattern.length + t.length + 1 - n)) t
      else if isApart then Pattern.isMatch pattern (t.take (t.length - n))
      else Pattern.isMatch pattern ((row.take (row.length - n)).takeWhile (· != '\x00'))
    if isFound then some (cells.length - n) else none

/-- The place in the first argument where a search from the front finds a match. -/
def placeFromFront? (front : Bool) (pattern : Octets) (cells : List Cell) : Option Nat :=
  let t := text cells
  (List.range (t.length + 1)).find? fun n => Pattern.isMatch pattern (if front then t.take n else t.drop n)

/-- Cells behind a pattern has been cut off. -/
def cut (front longest : Bool) (pattern : Octets) (cells : List Cell) : List Cell :=
  let place? := if front = longest then placeFromEnd? front pattern cells else placeFromFront? front pattern cells
  match place? with
  | some n => if front then cells.drop n else cells.take n
  | none => cells

end Cell

/-! ## Walking through a word -/

/-- A walk through the pieces of a word. -/
structure Walk where
  cells : Expanded
  /-- Whether a quotation has been opened in the word. -/
  inQuotes : Bool
  /-- Where the characters start that stand next to each other at the end. -/
  runStart : Nat
  afterEquals : Bool
  /-- How many pieces have been looked at already. -/
  passed : Nat

namespace Walk

/-- Whether what comes next stands in quotes. -/
def isQuoted (w : Walk) (m : Mode) : Bool := m.quoted || w.inQuotes

/-- Let characters next to each other be cut, if they stand in place of a value. -/
def endRun (w : Walk) (m : Mode) : Walk :=
  let cells :=
    if m.inner && !w.isQuoted m && w.runStart < w.cells.size then w.cells.cutFrom w.runStart false else w.cells
  { w with cells, runStart := cells.size }

def put (w : Walk) (c : Cell) : Walk := { w with cells := w.cells.put c }

/-- Go on with other cells. -/
def withCells (w : Walk) (cells : Expanded) : Walk := { w with cells, runStart := cells.size }

/-- Replace a tilde that comes next. -/
def tilde (w : Walk) (m : Mode) (rest : Word) : Step Walk := do
  match tildeName? m.assigns rest with
  | none => return w
  | some name =>
    match home? (← get) name with
    | none => return w
    | some home =>
      return { w.withCells (w.cells.putAll (Cell.ofValue true home)) with passed := name.length + 1 }

/-- Pass a character. -/
def char (w : Walk) (m : Mode) (c : Char) (rest : Word) : Step Walk := do
  let w := w.put (.plain c)
  if m.assigns && (c == ':' || c == '=' && !w.afterEquals) then
    let w := { w.endRun m with afterEquals := w.afterEquals || c == '=' }
    w.tilde m rest
  else return w

/-- Let cells that a reference has been replaced by be cut where that is due. -/
def cutFrom (w : Walk) (m : Mode) (start : Nat) (eachArgument : Bool) : Walk :=
  if w.isQuoted m then if eachArgument then { w with cells := w.cells.cutFrom start true } else w
  else { w with cells := w.cells.cutFrom start false }

end Walk

/-- Why a reference has no value that there has to be one of. -/
def absentMessage (name : Octets) (message : Option Octets) (orEmpty : Bool) : Octets :=
  name ++ ": ".toList ++
    match message with
    | some t => t
    | none => "parameter not set".toList ++ if orEmpty then " or null".toList else []

mutual

/-- Go through the pieces of a word. -/
def Word.walk (capture : Capture) (m : Mode) : List Piece → Walk → Step Walk
  | [], w => return w.endRun m
  | .quote :: .parameter ['@'] .plain false [] :: .quote :: rest, w => do
    if w.inQuotes then
      let w := { (w.endRun m).put .quote with inQuotes := false }
      let w ← Piece.walk capture m (.parameter ['@'] .plain false []) { w with runStart := w.cells.size }
      let w := { (w.endRun m).put .quote with inQuotes := true }
      Word.walk capture m rest { w with runStart := w.cells.size }
    else
      let m' := { m with quoted := true }
      let w ← Piece.walk capture m' (.parameter ['@'] .plain false []) (w.endRun m)
      Word.walk capture m rest { w with runStart := w.cells.size }
  | .parameter name .plain true word :: _, w => do
    let w ← Piece.walk capture m (.parameter name .plain true word) (w.endRun m)
    Word.walk capture m word w
  | piece :: rest, w => do
    match w.passed with
    | n + 1 => Word.walk capture m rest { w with passed := n }
    | 0 =>
      match piece with
      | .char c => Word.walk capture m rest (← w.char m c rest)
      | .escaped c =>
        let w := (w.endRun m).put (.escaped c)
        Word.walk capture m rest { w with runStart := w.cells.size }
      | .quote =>
        let w := (w.endRun m).put .quote
        Word.walk capture m rest { w with inQuotes := !w.inQuotes, runStart := w.cells.size }
      | piece =>
        let w ← Piece.walk capture m piece (w.endRun m)
        Word.walk capture m rest { w with runStart := w.cells.size }

/-- Replace a reference. -/
def Piece.walk (capture : Capture) (m : Mode) : Piece → Walk → Step Walk
  | .parameter name treatment orEmpty word, w => do
    if treatment = .unknown then Step.failWith "Bad substitution"
    let s ← get
    let start := w.cells.size
    let quoted := w.isQuoted m
    let full := m.full && treatment != .instead && treatment != .length
    -- with a colon, an empty value counts as none
    let value? := (s.parameter? full quoted name).filter fun (_, length) => !(orEmpty && length == 0)
    let eachArgument := name = ['@'] && !s.args.isEmpty
    let record (w : Walk) : Walk := w.cutFrom m start eachArgument
    let withValue (cells : List Cell) : Walk := record { w with cells := w.cells.putAll cells }
    -- a word that stands for the value is replaced among the cells around it
    let inPlace : Step Walk := do
      let inner : Mode := { m with inner := true, quoted, afterEquals := w.afterEquals }
      let start : Walk := ⟨w.cells, false, w.cells.size, w.afterEquals, 0⟩
      let after ← Word.walk capture inner word (← start.tilde inner word)
      return { w with cells := after.cells }
    -- a word that is assigned, printed or used as a pattern is replaced on its own
    let apart : Step Expanded := do
      let start : Walk := ⟨.empty, false, 0, false, 0⟩
      return (← Word.walk capture .joined word (← start.tilde .joined word)).cells
    let insist : Step Unit := do
      if s.isOn .nounset then Step.fail (absentMessage name none false)
    match treatment, value? with
    | .instead, none => return record w
    | .instead, some _ => inPlace
    | .otherwise, none => inPlace
    | .assigned, none =>
      Step.assign name (some (← apart).text) .none
      match (← get).parameter? m.full quoted name with
      | some (cells, _) => return withValue cells
      | none =>
        insist
        return w
    | .required, none =>
      let message := (← apart).text
      Step.fail (absentMessage name (if word.isEmpty then none else some message) orEmpty)
    | .otherwise, some (cells, _) | .assigned, some (cells, _) | .required, some (cells, _)
    | .plain, some (cells, _) => return withValue cells
    | .length, some (_, length) => return withValue (Cell.ofValue quoted (Octets.ofNat length))
    | .length, none =>
      insist
      return withValue (Cell.ofValue quoted ['0'])
    | .cutFront longest, some (cells, _) => return withValue (Cell.cut true longest (← apart).pattern cells)
    | .cutEnd longest, some (cells, _) => return withValue (Cell.cut false longest (← apart).pattern cells)
    | .plain, none | .cutFront _, none | .cutEnd _, none =>
      insist
      return w
    | .unknown, _ => return w
  | .output command, w => do
    let start := w.cells.size
    let t ← capture command
    return { w with cells := w.cells.putAll (Cell.ofValue (w.isQuoted m) t) }.cutFrom m start false
  | .number expression, w => do
    let start := w.cells.size
    let t := (← Word.walk capture .joined expression ⟨.empty, false, 0, false, 0⟩).cells.text
    let (n, vars) := Arithmetic.evaluate t (← get).vars
    modify fun s => { s with vars }
    match n with
    | .ok n =>
      let digits := Cell.ofValue (w.isQuoted m) (Octets.ofInt n.toInt)
      return { w with cells := w.cells.putAll digits }.cutFrom m start false
    | .error .overflow => throw (.signaled 8)
    | .error e => Step.fail (e.message t)
  | _, w => return w

end

namespace Word

/-- The cells that a word is replaced by. -/
def expand (capture : Capture) (m : Mode) (hasTilde : Bool) (word : Word) : Step Expanded := do
  let w : Walk := ⟨.empty, false, 0, false, 0⟩
  return (← Word.walk capture m word (← if hasTilde then w.tilde m word else pure w)).cells

/-- The names of files that match a field, or the field itself if there are none. -/
def matching (s : Shell) (field : List Cell) : List Octets :=
  let t := Cell.text field
  let isActive := t.any fun c => c == '*' || c == '?' || c == '['
  if s.isOn .noglob || !isActive then [t]
  else
    let d : Pattern.Directory :=
      ⟨s.world.names s.cwd, fun path => (s.world.find s.cwd false path).isOk⟩
    match Pattern.matching d (Cell.pattern field) with
    | [] => [t]
    | paths => paths

/-- The words that a word is replaced by. -/
def fields (capture : Capture) (word : Word) : Step (List Octets) := do
  let e ← expand capture .fields true word
  let s ← get
  return (Field.ofExpanded s.separators none e).flatMap (matching s)

/-- The text of a word that is not cut. -/
def joined (capture : Capture) (word : Word) : Step Octets := do
  return (← expand capture .joined true word).text

/-- The text of a word that assigns to a variable. -/
def assigned (capture : Capture) (word : Word) : Step Octets := do
  return (← expand capture .assignment false word).text

/-- A word as a pattern; its quoted parts stand for themselves. -/
def pattern (capture : Capture) (word : Word) : Step Octets := do
  return (← expand capture .joined true word).pattern

/-- The text of a document. -/
def document (capture : Capture) (word : Word) : Step Octets := do
  return (← expand capture .document false word).text

end Word
end Caretaker.Script

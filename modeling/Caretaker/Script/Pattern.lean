import Caretaker.Text.Octets

/-!
# Patterns

The patterns of cases and of cut references, which are matched against whole texts, and those for
names of files. A star stands for any text, a question mark for any byte, and brackets for one of
some bytes; a backslash takes their meaning away.
-/

namespace Caretaker.Script

namespace Pattern

/-! ## Sets -/

/-- The named classes of bytes. -/
def classes : List (String × (Char → Bool)) :=
  let isGraph (c : Char) := 0x21 ≤ c.toNat && c.toNat ≤ 0x7E
  [("alnum", Char.isAlphanum), ("alpha", Char.isAlpha), ("blank", fun c => c == ' ' || c == '\t'),
    ("cntrl", fun c => c.toNat < 0x20 || c.toNat == 0x7F), ("digit", Char.isDigit), ("graph", isGraph),
    ("lower", Char.isLower), ("print", fun c => c == ' ' || isGraph c),
    ("punct", fun c => isGraph c && !c.isAlphanum), ("space", Octets.isSpace), ("upper", Char.isUpper),
    ("xdigit", fun c => c.isDigit || 'a' ≤ c.toLower && c.toLower ≤ 'f')]

/-- The class that a pattern names behind an opening bracket, and what follows it. -/
def class? (p : Octets) : Option ((Char → Bool) × Octets) :=
  classes.findSome? fun (name, holds) =>
    (List.isPrefixOf? ((":" ++ name ++ ":]").toList) p).map (holds, ·)

/-- The place of a byte in the order of ranges, in which the upper half comes first. -/
def rank (c : Char) : Nat := (c.toNat + 128) % 256

/-- Look a byte up in a set, behind its opening bracket: whether it is in the set, and what follows
the set. Without a closing bracket there is no set. -/
def lookUp (c : Char) : Nat → (found first : Bool) → Octets → Option (Bool × Octets)
  | 0, _, _, _ => none
  | _ + 1, _, _, [] => none
  | fuel + 1, found, first, d :: p =>
    let item (d : Char) (p : Octets) : Option (Bool × Octets) :=
      let range (last : Char) (p : Octets) :=
        lookUp c fuel (found || rank d ≤ rank c && rank c ≤ rank last) false p
      match p with
      | '-' :: '\\' :: last :: p => range last p
      | '-' :: last :: rest => if last = ']' then lookUp c fuel (found || c == d) false p else range last rest
      | p => lookUp c fuel (found || c == d) false p
    -- right behind the opening bracket, a closing one stands for itself
    if d = ']' && !first then some (found, p)
    else if d = '[' then
      match class? p with
      | some (holds, p) => lookUp c fuel (found || holds c) false p
      | none => item d p
    else if d = '\\' then
      match p with
      | [] => none
      | d :: p => item d p
    else item d p

/-- Whether a byte is in the set behind an opening bracket, and what follows the set. -/
def set? (c : Char) (p : Octets) : Option (Bool × Octets) :=
  match p with
  | '!' :: p => (lookUp c (p.length + 1) false true p).map fun (found, rest) => (!found, rest)
  | p => lookUp c (p.length + 1) false true p

/-! ## Matching -/

/-- Whether a text matches a pattern; the number bounds the length of the pattern. -/
def holds : Nat → Octets → Octets → Bool
  | 0, _, _ => false
  | _ + 1, [], t => t.isEmpty
  | fuel + 1, '*' :: p, t => (List.range (t.length + 1)).any fun k => holds fuel p (t.drop k)
  | fuel + 1, '?' :: p, _ :: t => holds fuel p t
  | fuel + 1, '\\' :: c :: p, d :: t => c == d && holds fuel p t
  | fuel + 1, '[' :: p, d :: t =>
    match set? d p with
    | some (found, rest) => found && holds fuel rest t
    -- a bracket that is not closed stands for itself
    | none => d == '[' && holds fuel p t
  | fuel + 1, c :: p, d :: t => c == d && holds fuel p t
  | _ + 1, _ :: _, [] => false

/-- Whether a text matches a pattern. -/
def isMatch (pattern t : Octets) : Bool := holds (pattern.length + 1) pattern t

/-! ## Names of files -/

/-- What matching names of files asks the file system. -/
structure Directory where
  /-- The names in a directory, with those for itself and the one above. -/
  names : Octets → List Octets
  stands : Octets → Bool

/-- The text of a pattern without a meaning. -/
def plain : Octets → Octets
  | [] => []
  | '\\' :: c :: r => c :: plain r
  | c :: r => c :: plain r

/-- Whether brackets are closed in front of the next slash, behind an opening one. -/
def closesBracket (p : Octets) : Bool :=
  let p := if p.head? = some '!' then p.drop 1 else p
  go (p.length + 1) p
where
  go : Nat → Octets → Bool
    | 0, _ => false
    | fuel + 1, p =>
      match if p.head? = some '\\' then p.drop 1 else p with
      | [] | '/' :: _ => false
      | _ :: ']' :: _ => true
      | _ :: r => go fuel r

/-- A pattern cut at the slashes around its first active segment. -/
structure Parts where
  /-- What stands in front of the segment, with the slash at its end. -/
  front : Octets
  segment : Octets
  /-- Whether the segment is active. -/
  active : Bool
  /-- What stands behind the slash after the segment. -/
  rest : Option Octets

/-- Cut a pattern at the slashes around its first active segment. -/
def parts (front segment : Octets) (active : Bool) : Octets → Parts
  | [] => ⟨front.reverse, segment.reverse, active, none⟩
  | '\\' :: '/' :: r =>
    if active then ⟨front.reverse, segment.reverse, true, some r⟩
    else parts ('/' :: '\\' :: (segment ++ front)) [] false r
  | '\\' :: c :: r => parts front (c :: '\\' :: segment) active r
  | '/' :: r =>
    if active then ⟨front.reverse, segment.reverse, true, some r⟩
    else parts ('/' :: (segment ++ front)) [] false r
  | c :: r => parts front (c :: segment) (active || c == '*' || c == '?' || c == '[' && closesBracket r) r

/-- The paths behind a directory that match a pattern. Hidden names have to be asked for. -/
def paths (d : Directory) : Nat → Octets → Octets → List Octets
  | 0, _, _ => []
  | fuel + 1, dir, pattern =>
    let p := parts [] [] false pattern
    if !p.active then
      let path := dir ++ plain pattern
      if !dir.isEmpty && d.stands path then [path] else []
    else
      let dir := dir ++ plain p.front
      let showsHidden := (plain p.segment).head? == some '.'
      let names := (d.names dir).filter fun n =>
        (showsHidden || n.head? != some '.') && isMatch p.segment n
      match p.rest with
      | none => names.map (dir ++ ·)
      | some rest => names.flatMap fun n => paths d fuel (dir ++ n ++ ['/']) rest

/-- The paths that match a pattern, in order. -/
def matching (d : Directory) (pattern : Octets) : List Octets :=
  (paths d (pattern.length + 1) [] pattern).mergeSort Octets.le

end Pattern
end Caretaker.Script

import Caretaker.Script.Builtin.Naming

/-!
# What a command calls

The words of a simple command are replaced one after the other, since the first of them decides what
the others are: the command `command` in front of another one is passed over, and commands that
assign to variables take words that are assignments as they are.
-/

namespace Caretaker.Script

/-- The words of a command, as far as they have been replaced. -/
structure Draft where
  /-- The words in front of the command that have been passed over. -/
  passed : List Octets
  words : List Octets
  rest : List Word
  /-- Where to look for programs instead of the search path. -/
  otherPath : Option Octets

namespace Draft

/-- Replace words until one of them becomes something. -/
def more (capture : Capture) : List Word → Step (List Octets × List Word)
  | [] => return ([], [])
  | w :: rest => do
    match ← Word.fields capture w with
    | [] => more capture rest
    | words => return (words, rest)

/-- Replace words until there is one with a number. -/
def fill (capture : Capture) (number : Nat) (d : Draft) : Step Draft := do
  if number < d.words.length then return d
  let (words, rest) ← more capture d.rest
  return { d with words := d.words ++ words, rest }

/-- Pass over words. -/
def pass (d : Draft) (count : Nat) : Draft :=
  { d with passed := d.passed ++ d.words.take count, words := d.words.drop count }

/-- Pass over the command `command` with its options, if another command follows; what has been
replaced on the way comes too. -/
def passPrefix (capture : Capture) : Nat → Nat → Draft → Step (Option Draft × Draft)
  | 0, _, d => return (none, d)
  | fuel + 1, number, d => do
    let d ← d.fill capture number
    match d.words[number]? with
    | none => return (none, d)
    | some ['-', '-'] =>
      let d ← d.fill capture (number + 1)
      return (if number + 1 < d.words.length then some (d.pass (number + 1)) else none, d)
    | some ('-' :: c :: letters) =>
      if (c :: letters).all (· == 'p') then
        passPrefix capture fuel (number + 1) { d with otherPath := some Lookup.standardPath }
      else return (none, d)
    | some _ => return (some (d.pass number), d)

end Draft

/-- A command whose words have been replaced. -/
structure Call where
  passed : List Octets
  words : List Octets
  otherPath : Option Octets
  /-- Whether functions can be called. -/
  functions : Bool
  /-- Whether it is a command of the shell. -/
  ofShell : Bool
  /-- Whether the first command, which may have been passed over, is a special one of the shell. -/
  special : Bool

namespace Call

/-- Whether it is the command that lets redirections stay and a program take the place of the shell. -/
def isExec (c : Call) : Bool := c.ofShell && c.words.head? = some "exec".toList

/-- Find what is called, and pass over what stands in front of it. -/
def resolve (capture : Capture) : Nat → (functions : Bool) → (special : Option Bool) → Draft → Step (Draft × Call)
  | 0, _, _, d => return (d, ⟨[], [], none, true, false, false⟩)
  | fuel + 1, functions, special, d => do
    let call (ofShell : Bool) (special : Option Bool) : Call :=
      ⟨d.passed, d.words, d.otherPath, functions, ofShell, special = some true⟩
    match d.words with
    | [] => return (d, call false special)
    | name :: _ =>
      match ← Lookup.find functions false none name with
      | .ofShell =>
        let special := special.or (some (isSpecialCommand name))
        if name = "command".toList then
          match ← d.passPrefix capture manySteps 1 with
          | (some d, _) => resolve capture fuel false special d
          | (none, d) => return (d, { call true special with words := d.words })
        else return (d, call true special)
      | _ => return (d, call false special)

/-- Replace the words of a command. -/
def ofWords (capture : Capture) (words : List Word) : Step Call := do
  let (first, rest) ← Draft.more capture words
  let (d, call) ← resolve capture manySteps true none ⟨[], first, rest, none⟩
  let assigns := call.ofShell && assigningCommands.any fun name => some name.toList == call.words.head?
  let others ← d.rest.mapM fun w => do
    if assigns && Word.isAssignment w then return [← Word.assigned capture w] else Word.fields capture w
  return { call with words := call.words ++ others.flatten }

end Call
end Caretaker.Script

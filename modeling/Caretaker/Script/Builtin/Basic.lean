import Caretaker.Script.Redirect
import Caretaker.Script.Quoted

/-!
# Commands of the shell

What all commands have in common that a shell carries out by itself: they are given arguments, may
read options in front of them, and have a status. A problem that they report themselves does not end
the script; an error does, unless the command is one whose errors do not matter.
-/

namespace Caretaker.Script

/-- A command of the shell, which has a status. -/
abbrev Action := List Octets → Step Nat

namespace Builtin

open Step

/-- Read options in front of arguments, and take a step for each of them. Each letter that is allowed
says whether a value follows it. -/
def foldOptions {α : Type} (allowed : List (Char × Bool)) (f : α → Char → Octets → Step α) :
    α → List Octets → Step (α × List Octets)
  | a, ['-', '-'] :: rest => return (a, rest)
  | a, ('-' :: c :: more) :: rest => do
    let (a, waiting) ← letters a (c :: more)
    match waiting, rest with
    | none, rest => foldOptions allowed f a rest
    | some letter, value :: rest => foldOptions allowed f (← f a letter value) rest
    | some letter, [] => fail ("No arg for -".toList ++ letter :: " option".toList)
  | a, rest => return (a, rest)
where
  /-- Read the letters of an argument; one may wait for its value in the next argument. -/
  letters : α → Octets → Step (α × Option Char)
    | a, [] => return (a, none)
    | a, c :: more => do
      match allowed.find? (·.1 == c) with
      | none => fail ("Illegal option -".toList ++ [c])
      | some (_, false) => letters (← f a c []) more
      | some (_, true) => if more.isEmpty then return (a, some c) else return (← f a c more, none)

/-- Read options in front of arguments. -/
def options (allowed : List (Char × Bool)) (args : List Octets) : Step (List (Char × Octets) × List Octets) := do
  let (found, rest) ← foldOptions allowed (fun found c t => return (c, t) :: found) [] args
  return (found.reverse, rest)

/-- Read an option that is all that counts; only its letter is looked at. -/
def oneOption (letter : Char) : List Octets → Step (Bool × List Octets)
  | ['-', '-'] :: rest => return (false, rest)
  | ('-' :: c :: _) :: rest => if c = letter then return (true, rest) else fail ("Illegal option -".toList ++ [c])
  | rest => return (false, rest)

/-- Read arguments that may only have the end of options in front. -/
def withoutOptions (args : List Octets) : Step (List Octets) := do return (← options [] args).2

/-- Letters without values. -/
def flags (letters : String) : List (Char × Bool) := letters.toList.map (·, false)

/-- Refuse an argument that is no number. -/
def illegalNumber {α : Type} (t : Octets) : Step α := fail ("Illegal number: ".toList ++ t)

/-- An argument that counts something. -/
def number (t : Octets) : Step Nat := do
  match Number.count? t with
  | some n => return n
  | none => illegalNumber t

/-- Report a problem on the stream of errors. -/
def report (t : Octets) : Step Unit := do
  let _ ← writeTo 2 (t ++ ['\n'])

/-- The greatest status, each of them a problem or none, of a command that looks at all its arguments.
-/
def each (f : Octets → Step Bool) (args : List Octets) : Step Nat := do
  let results ← args.mapM f
  return if results.all id then 0 else 1

end Builtin
end Caretaker.Script

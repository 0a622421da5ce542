import Caretaker.Script.World

/-!
# Interpreters

A file that is executed starts with two marks and the name of the program that runs it. That program
may be such a file too, up to a certain depth. Only the front of a file is looked at, and what is
handed over to a program is limited.
-/

namespace Caretaker.Script

/-- Number of bytes that are looked at. -/
def frontSize : Nat := 256

def isBlank (c : Char) : Bool := c == ' ' || c == '\t'

/-- Whether a character ends the name of an interpreter. -/
def endsName (c : Char) : Bool := isBlank c || c == '\x00'

/-- The first line of a file, behind its marks. Without a line end the name has to end within what is
looked at. -/
def firstLine? (front : Octets) : Option Octets :=
  if front.contains '\n' then some (front.takeWhile (· != '\n'))
  else if (front.dropWhile isBlank).any endsName then some front.dropLast
  else none

/-- The interpreter that a file names, and an argument for it. -/
def interpreter? (content : Bytes) : Option (Octets × Option Octets) := do
  let front := Octets.ofBytes (content.take frontSize)
  match front ++ List.replicate (frontSize - front.length) '\x00' with
  | '#' :: '!' :: front =>
    let line ← firstLine? front
    let line := ((line.reverse.dropWhile isBlank).reverse).dropWhile isBlank
    if line.isEmpty then none
    let name := line.takeWhile (!endsName ·)
    match line.drop name.length with
    | [] | '\x00' :: _ => some (name, none)
    | rest => some (name, some ((rest.dropWhile isBlank).takeWhile (· != '\x00')))
  | _ => none

/-- The place of the shell itself. -/
def shellPlace : Place := ["usr", "bin", "dash"].map fun n => .text n.toList

/-- How many files may run each other. -/
def maxInterpreters : Nat := 5

/-- The longest text that is handed over, and the size of all of them. -/
def maxText : Nat := 131072
def maxTexts : Nat := 2097152

/-- Whether texts can be handed over to a program: each of them takes its length, an end mark, and
space for an address. -/
def fits (path : Octets) (args environment : List Octets) : Bool :=
  let texts := args ++ environment
  texts.all (·.length < maxText) &&
    texts.foldl (fun n t => n + t.length + 9) (path.length + 1) ≤ maxTexts

namespace World

/-- The content of a file that can be executed. -/
def program (w : World) (cwd : Place) (path : Octets) : Except IoFault (Place × Bytes) := do
  match ← w.find cwd true path with
  | (place, .file content true) =>
    if (Device.ofPlace? place).isSome then .error .permissionDenied else .ok (place, content)
  | _ => .error .permissionDenied

/-- The arguments with which the shell runs a file in the end. -/
def interpreted (w : World) (cwd : Place) :
    (depth : Nat) → (place : Place) → (content : Bytes) → (path : Octets) → (args : List Octets) →
      Except IoFault (List Octets)
  | depth, place, content, path, args =>
    if place == shellPlace then .ok args
    else
      match interpreter? content with
      | none => .error .badFormat
      | some (name, arg) => do
        let (place, content) ← w.program cwd name
        match depth with
        | 0 => .error .tooManyLinks
        | depth + 1 => interpreted w cwd depth place content name (name :: arg.toList ++ path :: args.drop 1)

/-- The arguments with which the shell is started when a path is executed. -/
def shellArgs (w : World) (cwd : Place) (path : Octets) (args environment : List Octets) :
    Except IoFault (List Octets) := do
  let (place, content) ← w.program cwd path
  if !fits path args environment then .error (.os 7)
  w.interpreted cwd maxInterpreters place content path args

end World
end Caretaker.Script

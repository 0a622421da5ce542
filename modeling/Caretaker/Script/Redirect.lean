import Caretaker.Script.Expansion

/-!
# Redirections

A redirection lets a descriptor lead elsewhere. Its words are replaced first; then it is followed,
and what the descriptor led to before is kept, to be put back.
-/

namespace Caretaker.Script

/-- A redirection without words. -/
inductive Redirect where
  | file (descriptor : Nat) (opening : Opening) (path : Octets)
  /-- To where another descriptor leads, or nowhere. -/
  | copy (descriptor : Nat) (source : Option Nat)
  | document (descriptor number : Nat) (expands : Bool)
deriving Repr

/-- What an attempt to open a file is for. -/
inductive Purpose where
  | reading
  | making
  | running
deriving DecidableEq

/-- Why a path cannot be used, in the words of the shell. -/
def Purpose.reason (p : Purpose) : IoFault → Octets
  | .os 2 | .os 20 =>
    (match p with
      | reading => "No such file"
      | making => "Directory nonexistent"
      | running => "not found").toList
  | .os n => ((errorText? n).getD "").toList
  | e => e.message.toList

/-- Where descriptors led before they were redirected. -/
abbrev Kept := List (Nat × Option Nat)

namespace Redirect

/-- Replace the words of a redirection. -/
def prepare (capture : Capture) (r : Redirection) : Step Redirect := do
  let n := r.descriptor
  match r.target with
  | .file opening path => return .file n opening (← Word.joined capture path)
  | .descriptor source => return .copy n source
  | .document number expands => return .document n number expands
  | .named w =>
    match ← Word.joined capture w with
    | ['-'] => return .copy n none
    | [c] => if c.isDigit then return .copy n (some (c.toNat - '0'.toNat)) else refuse
    | _ => refuse
where
  refuse : Step Redirect := do
    modify fun s => { s with line := s.readLine }
    Step.failWith "Syntax error: Bad fd number"

/-- Let a descriptor lead to an open file. -/
def lead (n : Nat) (number : Option Nat) : Step Unit := modify fun s => s.lead n number

/-- Open a file, and answer with its number. -/
def openFile (opening : Opening) (path : Octets) : Step Nat := do
  let s ← get
  match s.world.openPath s.cwd s.descriptor? (s.isOn .noclobber) opening path with
  | .ok (f, world) =>
    let (number, world) := world.register f
    set { s with world }
    return number
  | .error e =>
    let isThere := match s.world.find s.cwd true path with
      | .ok (place, .file ..) => (Device.ofPlace? place).isSome
      | r => r.isOk
    let (what, purpose) :=
      if opening = .read || opening = .write && s.isOn .noclobber && isThere then ("open", Purpose.reading)
      else ("create", Purpose.making)
    Step.fail ("cannot ".toList ++ what.toList ++ " ".toList ++ path ++ ": ".toList ++ purpose.reason e)

/-- Follow a redirection. If what was there before is kept, the descriptor is closed first. -/
def follow (capture : Capture) (keeps : Bool) (r : Redirect) : Step Unit := do
  match r with
  | .file n opening path => lead n (some (← openFile opening path))
  | .copy n none => lead n none
  | .copy n (some source) =>
    if n ≠ source then
      if keeps then lead n none
      match (← get).descriptor? source with
      | some number => lead n (some number)
      | none => Step.fail (Octets.ofNat source ++ ": Bad file descriptor".toList)
  | .document n number expands =>
    let word := (← get).documents.getD number []
    let t ← if expands then Word.document capture word else pure (Word.literal word)
    let s ← get
    let (reading, writing, world) := s.world.newPipe none
    set { s with world := (world.write writing t).2 }
    lead n (some reading)

def descriptor : Redirect → Nat
  | file n .. | copy n _ | document n .. => n

/-- Where the descriptors lead that are about to be redirected. -/
def keep (s : Shell) (rs : List Redirect) : Kept :=
  (rs.map descriptor).eraseDups.map fun n => (n, s.descriptor? n)

/-- Let descriptors lead to where they led before. -/
def putBack (kept : Kept) : Step Unit := kept.forM fun (n, number) => lead n number

/-- Follow redirections; whether that has succeeded. An error in them is one of the command. -/
def guarded (capture : Capture) (rs : List Redirect) : Step Bool := do
  match ← Step.attempt (rs.forM (follow capture true)) with
  | none => return true
  | some .error => return false
  | some e => throw e

end Redirect
end Caretaker.Script

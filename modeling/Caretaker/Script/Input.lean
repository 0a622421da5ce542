import Caretaker.Script.Redirect

/-!
# Inputs of scripts

A shell runs commands out of a text, or out of a file that is read block by block, so that a file may
still change behind what has been read. A command is read only when those in front of it have been
run, since they can change how it is read.
-/

namespace Caretaker.Script

structure Input where
  source : Source
  /-- The open file that the text comes from. -/
  file : Option Nat
  /-- Whether the end of the file has been seen. -/
  atEnd : Bool
  /-- How often the end may be passed over by a shell that ignores it. -/
  patience : Nat

namespace Input

def ofText (t : Octets) : Input := ⟨.ofText t, none, true, 0⟩

/-- An input from an open file. -/
def ofFile (number patience : Nat) : Input := ⟨.ofText [], some number, false, patience⟩

/-- Number of bytes that are read at once. -/
def blockSize : Nat := 8192

/-- Read the next block of a file. -/
def readBlock (input : Input) : Step Input := do
  let s ← get
  match input.file.map fun n => (n, s.world.unread n) with
  | some (n, .ok t) =>
    let block := t.take blockSize
    set { s with world := s.world.advance n block.length (block.length < blockSize) }
    let source := { input.source with rest := input.source.rest ++ block.filter (· != '\x00') }
    return { input with source, atEnd := block.isEmpty }
  | _ => return { input with atEnd := true }

/-- The lines that have been read on the way to a source further on. -/
def passed (input : Input) (after : Source) : Octets :=
  let count := input.source.rest.length - after.rest.length
  let t := input.source.rest.take count
  if t.isEmpty || t.getLast? = some '\n' then t
  else
    let rest := input.source.rest.drop count
    t ++ rest.takeWhile (· != '\n') ++ (rest.dropWhile (· != '\n')).take 1

/-- Read the next command. Text is taken from the file until it is complete. -/
def line : Nat → Input → Step (Reader.Line × Input)
  | 0, input => return (.finish, input)
  | fuel + 1, input => do
    let s ← get
    let result := Reader.line (.start { input.source with ended := false } s.aliases s.busy s.documents)
    let reader := match result with
      | .ok _ r | .error _ r => r
    if reader.source.ended && !input.atEnd then line fuel (← input.readBlock)
    else
      set { s with readLine := reader.source.line, documents := reader.documents }
      if input.file.isSome && s.isOn .verbose then
        let _ ← Step.writeTo 2 (input.passed reader.source)
      match result with
      | .ok l r => return (l, { input with source := r.source })
      | .error e r =>
        modify fun s => { s with line := r.source.line }
        Step.failWith e.message

end Input
end Caretaker.Script

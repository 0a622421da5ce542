import Caretaker.Machine
import Caretaker.Script.Syntax

/-!
# What processes share

Processes that are started from each other share files, the open files with the places that have
been reached in them, pipes, and signals on their way. Paths are bytes here: a name need not be text.

Of two processes that are joined by a pipe the one that writes is run first. A pipe therefore holds
all that has been written, up to a limit that stops a writer; a reader that comes to this limit says
so, and both are run again with a greater one.
-/

namespace Caretaker.Script

/-! ## Devices -/

/-- What is no file though it has a path. -/
inductive Device where
  | null
  | zero
  /-- What has no room left. -/
  | full
  /-- The terminal of the process, which it does not have. -/
  | terminal
  /-- What a descriptor of the process leads to. -/
  | descriptor (n : Nat)
deriving DecidableEq, Repr

namespace Device

def named : List (String × Device) :=
  [("null", null), ("zero", zero), ("full", full), ("tty", terminal), ("stdin", descriptor 0),
    ("stdout", descriptor 1), ("stderr", descriptor 2)]

/-- The device at a place. -/
def ofPlace? : Place → Option Device
  | [.text up, .text name] =>
    if up = "dev".toList then (named.find? (·.1.toList == name)).map (·.2) else none
  | [.text up, .text dir, .text name] =>
    if up = "dev".toList ∧ dir = "fd".toList ∧ !name.isEmpty ∧ name.all Char.isDigit then
      some (.descriptor (name.foldl (fun n c => n * 10 + (c.toNat - '0'.toNat)) 0))
    else none
  | _ => none

end Device

/-- The directories, devices and programs that a script finds on every machine. -/
def standardFiles : FileSystem :=
  let place (names : List String) : Place := names.map fun n => .text n.toList
  let dirs :=
    [["dev"], ["dev", "fd"], ["etc"], ["home"], ["opt"], ["root"], ["tmp"], ["usr"], ["usr", "bin"], ["usr", "lib"],
      ["usr", "sbin"], ["var"], ["var", "tmp"]]
  let links :=
    [(["bin"], "usr/bin"), (["lib"], "usr/lib"), (["sbin"], "usr/sbin"), (["usr", "bin", "sh"], "dash")]
  ⟨dirs.map (fun p => (place p, .dir)) ++ links.map (fun (p, target) => (place p, .link target.toList)) ++
    (place ["usr", "bin", "dash"], .file [] true) ::
      Device.named.map fun (name, _) => (place ["dev", name], .file [] false)⟩

/-! ## Open files -/

/-- Where an open file leads. -/
inductive Channel where
  | stream (s : Stream)
  | file (place : Place)
  | directory
  | pipe (number : Nat)
  | device (d : Device)
deriving DecidableEq

structure OpenFile where
  channel : Channel
  /-- The place in a file that has been reached. -/
  offset : Nat
  reads : Bool
  writes : Bool
  /-- Whether all that is written goes to the end. -/
  appends : Bool

structure Pipe where
  /-- What is read next. -/
  ready : Octets
  /-- What follows, the last piece first. -/
  added : List Octets
  /-- Number of bytes that have been written. -/
  size : Nat
  /-- A writer is stopped beyond this number of bytes. -/
  limit : Option Nat
  /-- Whether a writer has been stopped. -/
  stopped : Bool
  /-- Whether a reader has come to where a writer was stopped. -/
  drained : Bool

namespace Pipe

def empty (limit : Option Nat) : Pipe := ⟨[], [], 0, limit, false, false⟩

/-- All that is left to read. -/
def unread (p : Pipe) : Octets := if p.added.isEmpty then p.ready else p.ready ++ p.added.reverse.flatten

/-- Write to a pipe. Nothing is written beyond the limit. -/
def write (p : Pipe) (t : Octets) : Pipe :=
  match p.limit with
  | some n =>
    if n < p.size + t.length then
      let t := t.take (n - p.size)
      { p with added := t :: p.added, size := p.size + t.length, stopped := true }
    else { p with added := t :: p.added, size := p.size + t.length }
  | none => { p with added := t :: p.added, size := p.size + t.length }

/-- A pipe without a limit takes all that is written. -/
theorem unread_write (p : Pipe) (t : Octets) (h : p.limit = none) : (p.write t).unread = p.unread ++ t := by
  cases p with
  | mk ready added size limit stopped drained =>
    cases h
    cases added <;> simp [write, unread]

end Pipe

/-- What processes share. -/
structure World where
  machine : Machine
  /-- The open files; a descriptor leads to one by its number. -/
  opened : Array OpenFile
  pipes : Array Pipe
  /-- The number of the next process. -/
  nextProcess : Nat
  /-- The processes that can be sent signals. -/
  processes : List Nat
  /-- The signals on their way, with the processes that they are for. -/
  signals : List (Nat × Nat)

/-- What came of an attempt to write. -/
inductive Written where
  | done
  | failed (e : IoFault)
  /-- Nobody reads. -/
  | unread
deriving DecidableEq

namespace World

/-! ## Paths -/

/-- The stretches between slashes that are not empty. -/
def segments (path : Octets) : List Octets := (Path.splitSlashes path).filter (!·.isEmpty)

/-- The steps that a path asks for. -/
def steps (path : Octets) : List FileSystem.Step :=
  (segments path).map (fun s =>
    if s = ['.'] then .stay else if s = ['.', '.'] then .up else .into (EntryName.ofBytes (Octets.toBytes s))) ++
    if path.getLast? = some '/' then [.stay] else []

/-- The place where a path leads. -/
def locate (w : World) (cwd : Place) (follow : Bool) (path : Octets) : Except IoFault Place :=
  if path.isEmpty then .error .noEntry
  else if FileSystem.maxPath ≤ path.length then .error .nameTooLong
  else w.machine.files.walk FileSystem.maxLinks follow (FileSystem.start cwd path) (steps path)

/-- The entry where a path leads. -/
def find (w : World) (cwd : Place) (follow : Bool) (path : Octets) : Except IoFault (Place × Entry) := do
  let place ← w.locate cwd follow path
  match w.machine.files.get? place with
  | some e => .ok (place, e)
  | none => .error .noEntry

/-- A place as a path. -/
def pathOf (p : Place) : Octets := '/' :: ['/'].intercalate (p.map fun n => Octets.ofBytes n.toBytes)

def putFile (w : World) (place : Place) (e : Entry) : World :=
  { w with machine := { w.machine with files := w.machine.files.put place e } }

/-! ## Opening -/

/-- An open file gets a number. -/
def register (w : World) (f : OpenFile) : Nat × World := (w.opened.size, { w with opened := w.opened.push f })

/-- A new pipe, with the numbers of its end to read from and its end to write to. -/
def newPipe (w : World) (limit : Option Nat) : Nat × Nat × World :=
  let channel : Channel := .pipe w.pipes.size
  let (reading, w) := { w with pipes := w.pipes.push (.empty limit) }.register ⟨channel, 0, true, false, false⟩
  let (writing, w) := w.register ⟨channel, 0, false, true, false⟩
  (reading, writing, w)

/-- Where a path leads that is opened for writing, so that a file may be made there. -/
def locateNew (w : World) (cwd : Place) (follow : Bool) (path : Octets) : Except IoFault Place :=
  if path.getLast? = some '/' ∧ !(segments path).isEmpty then do
    let _ ← w.locate cwd false (path.reverse.dropWhile (· == '/')).reverse
    .error .isDirectory
  else w.locate cwd follow path

/-- Open what stands at a place, or make a file there. -/
def openPlace (w : World) (descriptors : Nat → Option Nat) (opening : Opening) (place : Place) :
    Except IoFault (OpenFile × World) :=
  let reads := opening = .read || opening = .readWrite
  let f (channel : Channel) : OpenFile := ⟨channel, 0, reads, opening != .read, opening = .append⟩
  let clears := opening = .write || opening = .overwrite
  match Device.ofPlace? place with
  | some .terminal => .error (.os 6)
  | some (.descriptor n) =>
    match (descriptors n).bind (w.opened[·]?) with
    | none => .error .noEntry
    | some { channel := .file there, .. } =>
      match w.machine.files.get? there with
      | some (.file content executable) =>
        .ok (f (.file there), w.putFile there (.file (if clears then [] else content) executable))
      | _ => .ok (f (.file there), w)
    | some g => .ok (f g.channel, w)
  | some d => .ok (f (.device d), w)
  | none =>
    match w.machine.files.get? place with
    | none => if opening = .read then .error .noEntry else .ok (f (.file place), w.putFile place (.file [] false))
    | some .dir => if opening = .read then .ok (f .directory, w) else .error .isDirectory
    | some (.file content executable) =>
      .ok (f (.file place), w.putFile place (.file (if clears then [] else content) executable))
    | some (.link _) => .error .tooManyLinks

/-- Open a path. If files are protected, one that is there is not cleared. -/
def openPath (w : World) (cwd : Place) (descriptors : Nat → Option Nat) (protects : Bool) (opening : Opening)
    (path : Octets) : Except IoFault (OpenFile × World) := do
  if protects && opening = .write then
    match w.find cwd true path with
    | .ok (place, .file ..) =>
      if (Device.ofPlace? place).isNone then .error .alreadyExists else w.openPlace descriptors .overwrite place
    | .ok _ => .error .isDirectory
    | .error _ =>
      let place ← w.locateNew cwd false path
      if (w.machine.files.get? place).isSome then .error .alreadyExists
      w.openPlace descriptors opening place
  else
    let place ← if opening = .read then w.locate cwd true path else w.locateNew cwd true path
    w.openPlace descriptors opening place

/-! ## Reading and writing -/

def setOffset (w : World) (number offset : Nat) : World :=
  { w with opened := w.opened.modify number fun f => { f with offset } }

/-- Content with bytes written over it from a place on. -/
def overwrite (content : Bytes) (offset : Nat) (b : Bytes) : Bytes :=
  if offset = content.length then content ++ b
  else
    content.take offset ++ List.replicate (offset - content.length) 0 ++ b ++ content.drop (offset + b.length)

/-- Write to an open file. -/
def write (w : World) (number : Nat) (t : Octets) : Written × World :=
  match w.opened[number]? with
  | none => (.failed (.os 9), w)
  | some f =>
    if !f.writes then (.failed (.os 9), w)
    else
      match f.channel with
      | .stream s => (.done, { w with machine := w.machine.write s t.toBytes })
      | .directory => (.failed .isDirectory, w)
      | .device .full => (.failed (.os 28), w)
      | .device _ => (.done, w)
      | .pipe n =>
        let w := { w with pipes := w.pipes.modify n (·.write t) }
        (if w.pipes[n]?.any (·.stopped) then .unread else .done, w)
      | .file place =>
        match w.machine.files.get? place with
        | some (.file content executable) =>
          -- what is appended goes to the end, wherever the file has been read or written before
          let offset := if f.appends then content.length else f.offset
          let b := t.toBytes
          let w := w.putFile place (.file (overwrite content offset b) executable)
          (.done, w.setOffset number (offset + b.length))
        | _ => (.done, w)

/-- What is left to read from an open file. -/
def unread (w : World) (number : Nat) : Except IoFault Octets :=
  match w.opened[number]? with
  | none => .error (.os 9)
  | some f =>
    if !f.reads then .error (.os 9)
    else
      match f.channel with
      | .stream _ => .error (.os 9)
      | .directory => .error .isDirectory
      | .device _ => .ok []
      | .pipe n => .ok ((w.pipes[n]?.map (·.unread)).getD [])
      | .file place =>
        match w.machine.files.get? place with
        | some (.file content _) => .ok (Octets.ofBytes (content.drop f.offset))
        | _ => .ok []

/-- Go on behind bytes that have been read; `atEnd` says whether there were less than wanted. -/
def advance (w : World) (number count : Nat) (atEnd : Bool) : World :=
  match w.opened[number]? with
  | none => w
  | some f =>
    match f.channel with
    | .pipe n =>
      { w with
        pipes := w.pipes.modify n fun p =>
          { p with ready := p.unread.drop count, added := [], drained := p.drained || atEnd && p.stopped } }
    | _ => w.setOffset number (f.offset + count)

/-! ## Looking at files -/

/-- The names in a directory. -/
def names (w : World) (cwd : Place) (path : Octets) : List Octets :=
  match w.find cwd true (if path.isEmpty then ['.'] else path) with
  | .ok (place, .dir) =>
    ['.'] :: ['.', '.'] :: (w.machine.files.names place).map fun n => Octets.ofBytes n.toBytes
  | _ => []

def isFile (w : World) (cwd : Place) (path : Octets) : Bool :=
  match w.find cwd true path with
  | .ok (place, .file ..) => (Device.ofPlace? place).isNone
  | _ => false

def isDir (w : World) (cwd : Place) (path : Octets) : Bool :=
  match w.find cwd true path with
  | .ok (_, .dir) => true
  | _ => false

/-- Whether a path leads to a file that can be executed. -/
def isProgram (w : World) (cwd : Place) (path : Octets) : Bool :=
  match w.find cwd true path with
  | .ok (_, .file _ executable) => executable
  | _ => false

end World
end Caretaker.Script

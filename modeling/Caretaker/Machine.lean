import Caretaker.Dispatch

/-!
# Machines

A machine is the world in which a program runs: files, variables, and what has been printed. It
answers every call by itself but one: what a child does is for whoever starts the machine to say.
-/

namespace Caretaker

structure Machine where
  files : FileSystem
  /-- The working directory. -/
  cwd : Place
  /-- The variables of the process. -/
  bindings : Bindings
  executableDir : Path
  /-- Whether the output is shown on a terminal. -/
  terminal : Bool
  /-- What has been printed, and where; the last piece first. -/
  written : List (Stream × Bytes)
  /-- The children that were started, the last one first. -/
  launched : List Launch

/-- What a child does to a machine, and how it ends; or why it could not be started. -/
abbrev Children := Launch → Machine → Except IoFault WaitStatus × Machine

namespace Machine

/-! ## What has been printed -/

/-- The machine after bytes have been written to a stream. -/
def write (m : Machine) (s : Stream) (b : Bytes) : Machine := { m with written := (s, b) :: m.written }

/-- The machine after a print. -/
def print (m : Machine) (s : Stream) (t : Text) : Machine := m.write s (Text.encode t)

/-- All bytes that have been written to a stream. -/
def bytesOn (m : Machine) (s : Stream) : Bytes :=
  (m.written.reverse.filter (·.1 == s)).flatMap (·.2)

/-- What a stream shows. -/
def shown (m : Machine) (s : Stream) : Text := Text.ofBytes (m.bytesOn s)

/-- What is written comes behind all else on its stream, and on no other. -/
theorem bytesOn_write (m : Machine) (s t : Stream) (b : Bytes) :
    (m.write s b).bytesOn t = m.bytesOn t ++ if s = t then b else [] := by
  by_cases h : s = t <;> simp [bytesOn, write, h]

/-! ## Calls -/

/-- Answer a call that changes files, if it succeeds. -/
def change (m : Machine) : Except IoFault FileSystem → Except IoFault Unit × Machine
  | .ok files => (.ok (), { m with files })
  | .error e => (.error e, m)

/-- Start a child, if what is handed to it can be handed over. -/
def start (m : Machine) (children : Children) (l : Launch) : Except IoFault WaitStatus × Machine :=
  if l.holdsNul then (.error .nulInCommand, m)
  else children l { m with launched := l :: m.launched }

/-- Answer a call. -/
def answer (children : Children) : (c : Call) → Machine → c.Reply × Machine
  | .readLink p, m => (m.files.readLink m.cwd p, m)
  | .standsAt p, m => (m.files.standsAt m.cwd p, m)
  | .remove p, m => m.change (m.files.remove m.cwd p)
  | .makeLink target p, m => m.change (m.files.makeLink m.cwd target p)
  | .isFile p, m => (m.files.isFile m.cwd p, m)
  | .isDir p, m => (m.files.isDir m.cwd p, m)
  | .readText p, m => (m.files.readText m.cwd p, m)
  | .list p, m => (m.files.list m.cwd p, m)
  | .canonical p, m => (m.files.canonical m.cwd p, m)
  | .launch l, m => m.start children l
  | .bindings, m => (m.bindings, m)
  | .setVariable name value, m => ((), { m with bindings := m.bindings.set name value })
  | .executableDir, m => (m.executableDir, m)
  | .isTerminal s, m => (m.terminal && s == .output, m)
  | .print s t, m => ((), m.print s t)

/-- Run a program on a machine. -/
def run {α : Type} (m : Machine) (children : Children) (p : Program α) : α × Machine :=
  p.run (answer children) m

/-- Run an action on a machine. -/
def runAction {α : Type} (m : Machine) (children : Children) (a : Action α) : Except Fault α × Machine :=
  m.run children a.run

end Machine
end Caretaker

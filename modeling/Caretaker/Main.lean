import Caretaker.CommandLine.Run
import Caretaker.Script.Start

/-!
# The command

A command line is carried out on a machine that holds a copy of the directories it can reach: the
root, the working directory, and the directory of the executable. What the machine has printed is
printed, and files that scripts have written are written back; links stay within the copy.
-/

namespace Caretaker.Copy

/-- How deep directories are copied. -/
def maxDepth : Nat := 8

/-- The place of an absolute path. -/
def placeOf (path : String) : Place := (Path.ofString path).segments.map .text

/-- Copy an entry, and what is below it. What cannot be read is left out. -/
def entriesAt : Nat → IO.FS.DirEntry → IO (List (Place × Entry))
  | 0, _ => return []
  | depth + 1, e => do
    let place := placeOf e.path.toString
    try
      match (← e.path.symlinkMetadata).type with
      | .dir =>
        let below ← (← e.path.readDir).toList.mapM (entriesAt depth)
        return (place, .dir) :: below.flatten
      | .file =>
        let content := (← IO.FS.readBinFile e.path).data.toList
        return [(place, .file content (Script.interpreter? content).isSome)]
      | .symlink =>
        let target ← IO.FS.realPath e.path
        return [(place, .link target.toString.toList)]
      | .other => return []
    catch _ => return []

/-- Copy a directory with all that is below it; the directories above it are there, but empty. -/
def directoryAt (path : String) : IO (List (Place × Entry)) := do
  try
    let there ← IO.FS.realPath path
    let place := placeOf there.toString
    let above := (List.range place.length).map fun n => (place.take n, Entry.dir)
    return above.drop 1 ++ (← entriesAt maxDepth ⟨there, ""⟩)
  catch _ => return []

/-- The variables of this process. -/
def bindings : IO Bindings := do
  try
    let content := Text.ofBytes (← IO.FS.readBinFile "/proc/self/environ").data.toList
    return ((String.ofList content).splitOn "\x00").filterMap fun t =>
      let name := t.toList.takeWhile (· != '=')
      if name.isEmpty then none else some (name, t.toList.drop (name.length + 1))
  catch _ => return []

/-- Write back the files that differ from those of the copy. -/
def writeBack (before after : FileSystem) : IO Unit := do
  for (place, e) in after.entries do
    match e with
    | .file content _ =>
      if before.get? place != some e then
        try IO.FS.writeBinFile (FileSystem.placePath place).display ⟨content.toArray⟩
        catch _ => pure ()
    | _ => pure ()

end Caretaker.Copy

open Caretaker

/-- Carry out a command line on a copy of the world. -/
def main (args : List String) : IO UInt32 := do
  let process ← Copy.bindings
  let cwd := (← IO.currentDir).toString
  let executable := ((← IO.appPath).parent.map (·.toString)).getD "/"
  let args := args.map String.toList
  let root := match CommandLine.parse process args with
    | .ok line => (line.root.map (·.display)).getD executable
    | .error _ => executable
  let entries ← [cwd, root, executable].mapM Copy.directoryAt
  let files : FileSystem := entries.flatten.foldr (fun (p, e) fs => fs.put p e) .empty
  let terminal ← (← IO.getStdout).isTty
  let m : Machine :=
    ⟨files, Copy.placeOf cwd, process, .ofString executable, terminal, [], []⟩
  let (code, after) := m.run Script.children (CommandLine.run args)
  Copy.writeBack files after.files
  (← IO.getStdout).write ⟨(after.bytesOn .output).toArray⟩
  (← IO.getStderr).write ⟨(after.bytesOn .errors).toArray⟩
  return code.toUInt32

import Caretaker.FileSystem.Basic

/-!
# Single calls on the file system

Each function here is one call on the operating system: it answers, or fails, in one step that
nothing else can come between. Relative paths start from the working directory `cwd`.
-/

namespace Caretaker.FileSystem

/-! ## Looking -/

/-- The text of the link at a path. -/
def readLink (fs : FileSystem) (cwd : Place) (p : Path) : Except IoFault Path := do
  match ← fs.find cwd false p with
  | (_, .link target) => .ok ⟨target⟩
  | _ => .error .invalidArgument

/-- Whether an entry of any kind stands at a path; a link at the end is not followed. -/
def standsAt (fs : FileSystem) (cwd : Place) (p : Path) : Bool := (fs.find cwd false p).isOk

/-- Whether a path leads to a regular file. -/
def isFile (fs : FileSystem) (cwd : Place) (p : Path) : Bool :=
  match fs.find cwd true p with
  | .ok (_, .file ..) => true
  | _ => false

/-- Whether a path leads to a directory. -/
def isDir (fs : FileSystem) (cwd : Place) (p : Path) : Bool :=
  match fs.find cwd true p with
  | .ok (_, .dir) => true
  | _ => false

/-- The bytes of the file to which a path leads. -/
def read (fs : FileSystem) (cwd : Place) (p : Path) : Except IoFault Bytes := do
  match ← fs.find cwd true p with
  | (_, .file content _) => .ok content
  | _ => .error .isDirectory

/-- The text of the file to which a path leads. -/
def readText (fs : FileSystem) (cwd : Place) (p : Path) : Except IoFault Text := do
  match Text.decode? (← fs.read cwd p) with
  | some t => .ok t
  | none => .error .notText

/-- The names in the directory to which a path leads. -/
def list (fs : FileSystem) (cwd : Place) (p : Path) : Except IoFault (List EntryName) := do
  match ← fs.find cwd true p with
  | (place, .dir) => .ok (fs.names place)
  | _ => .error .notDirectory

/-- The path without links, dots and double dots that leads to the same entry. -/
def canonical (fs : FileSystem) (cwd : Place) (p : Path) : Except IoFault Path := do
  let (place, _) ← fs.find cwd true p
  .ok (placePath place)

/-! ## Changing -/

/-- Remove the entry at a path, unless it is a directory; a link is removed, not followed. -/
def remove (fs : FileSystem) (cwd : Place) (p : Path) : Except IoFault FileSystem := do
  match ← fs.find cwd false p with
  | (_, .dir) => .error .isDirectory
  | (place, _) => .ok (fs.clear place)

/-- Whether the operating system takes a text as the text of a link, and how it refuses. -/
def linkText (target : Path) : Except IoFault Text :=
  if '\x00' ∈ target.text then .error .nulInPath
  else if target.text.isEmpty then .error .noEntry
  else if maxPath ≤ Text.byteLength target.text then .error .nameTooLong
  else .ok target.text

/-- Let an entry stand where a path leads, if nothing stands there yet. -/
def create (fs : FileSystem) (cwd : Place) (p : Path) (e : Entry) : Except IoFault FileSystem := do
  let place ← fs.locate cwd false p
  match fs.get? place with
  | some _ => .error .alreadyExists
  | none => .ok (fs.put place e)

/-- Make a link with the text `target` at the path `p`. -/
def makeLink (fs : FileSystem) (cwd : Place) (target p : Path) : Except IoFault FileSystem := do
  fs.create cwd p (.link (← linkText target))

/-- Make a directory. -/
def makeDir (fs : FileSystem) (cwd : Place) (p : Path) : Except IoFault FileSystem :=
  fs.create cwd p .dir

/-- Open a file for writing, through links, and say what it then holds. A new file cannot be
executed; one that is there keeps its mode. -/
def write (fs : FileSystem) (cwd : Place) (p : Path) (content : Bytes → Bytes) :
    Except IoFault FileSystem := do
  let place ← fs.locate cwd true p
  match fs.get? place with
  | none => .ok (fs.put place (.file (content []) false))
  | some (.file old executable) => .ok (fs.put place (.file (content old) executable))
  | some _ => .error .isDirectory

/-- Let the file to which a path leads be executable, or not. -/
def setExecutable (fs : FileSystem) (cwd : Place) (p : Path) (executable : Bool) :
    Except IoFault FileSystem := do
  match ← fs.find cwd true p with
  | (place, .file content _) => .ok (fs.put place (.file content executable))
  | _ => .ok fs

/-! ## Several calls at once -/

/-- Make a directory and those above it; one that is there already is fine. -/
def makeDirs (fs : FileSystem) (cwd : Place) (p : Path) : Except IoFault FileSystem :=
  (List.range p.segments.length).foldlM (fun fs k =>
    let here := Path.ofNames p.isAbsolute (p.segments.take (k + 1))
    if fs.isDir cwd here then .ok fs else fs.makeDir cwd here) fs

/-- Remove whatever stands at a path, a directory with all that is in it. -/
def removeAll (fs : FileSystem) (cwd : Place) (p : Path) : FileSystem :=
  match fs.locate cwd false p with
  | .ok place => ⟨fs.entries.filter fun (q, _) => !place.isPrefixOf q⟩
  | .error _ => fs

/-- The entry at a path; a link at the end is not followed. -/
def peek (fs : FileSystem) (cwd : Place) (p : Path) : Option Entry :=
  (fs.find cwd false p).toOption.map (·.2)

end Caretaker.FileSystem

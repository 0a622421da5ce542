import Caretaker.IoFault
import Caretaker.Path
import Caretaker.Text.Utf8

/-!
# The file system

A file system is a finite map from places to entries. A place is the list of names that leads from
the root to an entry without following any link; a path is what a caller writes, and `locate` says
which place it leads to, following links as the operating system does.
-/

namespace Caretaker

/-- The name of an entry in its directory. -/
inductive EntryName where
  | text (t : Text)
  /-- A name whose bytes are not text. -/
  | bytes (b : Bytes)
deriving DecidableEq, Repr

namespace EntryName

/-- The name with the given bytes. -/
def ofBytes (b : Bytes) : EntryName :=
  match Text.decode? b with
  | some t => .text t
  | none => .bytes b

def toBytes : EntryName → Bytes
  | text t => Text.encode t
  | bytes b => b

/-- Number of bytes of a name. -/
def byteLength : EntryName → Nat
  | text t => Text.byteLength t
  | bytes b => b.length

/-- The bytes of a text are its name. -/
theorem ofBytes_encode (t : Text) : ofBytes (Text.encode t) = .text t := by
  rw [ofBytes, Text.decode?_encode]

end EntryName

/-- The names from the root down to an entry. -/
abbrev Place := List EntryName

/-- What stands at a place. -/
inductive Entry where
  | dir
  | file (content : Bytes) (executable : Bool)
  | link (target : Text)
deriving DecidableEq

/-- The entries below the root, which is always a directory. -/
structure FileSystem where
  entries : List (Place × Entry)

namespace FileSystem

/-! ## Entries at places -/

/-- The file system in which there is only the root. -/
def empty : FileSystem := ⟨[]⟩

/-- What stands at a place. -/
def get? (fs : FileSystem) (p : Place) : Option Entry :=
  if p = [] then some .dir else (fs.entries.find? (·.1 == p)).map (·.2)

/-- Let an entry stand at a place, instead of what stood there. -/
def put (fs : FileSystem) (p : Place) (e : Entry) : FileSystem :=
  ⟨(p, e) :: fs.entries.filter (·.1 != p)⟩

/-- Clear a place. -/
def clear (fs : FileSystem) (p : Place) : FileSystem := ⟨fs.entries.filter (·.1 != p)⟩

/-- The names in a directory, each once. -/
def names (fs : FileSystem) (dir : Place) : List EntryName :=
  (fs.entries.filterMap fun (p, _) =>
    match p.reverse with
    | n :: up => if up.reverse = dir then some n else none
    | [] => none).eraseDups

theorem get?_root (fs : FileSystem) : fs.get? [] = some .dir := by simp [get?]

/-- An entry is put at its place and nowhere else. -/
theorem get?_put (fs : FileSystem) {p : Place} (hp : p ≠ []) (e : Entry) (q : Place) :
    (fs.put p e).get? q = if p = q then some e else fs.get? q := by
  by_cases hq : q = []
  · simp [get?, hq, hp]
  · by_cases h : p = q
    · simp [get?, put, hq, h]
    · have hne : ¬ q = p := fun h' => h h'.symm
      have hpq : (p == q) = false := beq_false_of_ne h
      simp only [get?, put, hq, h, hpq, if_false, List.find?_cons]
      rw [List.find?_filter]
      congr 2
      funext a
      by_cases ha : a.1 = q <;> simp [ha, hne]

/-- A place is cleared, and no other is. -/
theorem get?_clear (fs : FileSystem) {p : Place} (hp : p ≠ []) (q : Place) :
    (fs.clear p).get? q = if p = q then none else fs.get? q := by
  by_cases hq : q = []
  · simp [get?, hq, hp]
  · by_cases h : p = q
    · simp [get?, clear, hq, h]
    · have hne : ¬ q = p := fun h' => h h'.symm
      simp only [get?, clear, hq, h, if_false]
      rw [List.find?_filter]
      congr 2
      funext a
      by_cases ha : a.1 = q <;> simp [ha, hne]

/-! ## Where paths lead -/

/-- One step of a walk along a path. -/
inductive Step where
  /-- A dot, or the end of a path that ends with a slash: the place has to be a directory. -/
  | stay
  | up
  | into (name : EntryName)
deriving DecidableEq, Repr

/-- The step that a segment asks for. -/
def Step.ofSegment (s : Text) : Step :=
  if s = ['.'] then .stay else if s = ['.', '.'] then .up else .into (.text s)

/-- The steps that a text asks for. -/
def steps (t : Text) : List Step :=
  ((Path.splitSlashes t).filter (!·.isEmpty)).map Step.ofSegment ++
    if t.getLast? = some '/' then [.stay] else []

/-- The longest name of an entry, in bytes. -/
def maxName : Nat := 255

/-- A path or a link text has to stay below this many bytes. -/
def maxPath : Nat := 4096

/-- The links that one walk may follow. -/
def maxLinks : Nat := 40

/-- Where a text starts from. -/
def start (cwd : Place) (t : Text) : Place := if t.head? = some '/' then [] else cwd

/--
Walk from a directory along steps. A link on the way is followed; one at the end only if `follow`
says so. Nothing need stand at the place where the last step leads.
-/
def walk (fs : FileSystem) (links : Nat) (follow : Bool) (here : Place) :
    List Step → Except IoFault Place
  | [] => .ok here
  | s :: rest =>
    match fs.get? here with
    | none => .error .noEntry
    | some (.file ..) | some (.link _) => .error .notDirectory
    | some .dir =>
      match s with
      | .stay => walk fs links follow here rest
      | .up => walk fs links follow here.dropLast rest
      | .into n =>
        if maxName < n.byteLength then .error .nameTooLong
        else
          let next := here ++ [n]
          match fs.get? next with
          -- where nothing stands yet, something can be made
          | none => if rest.isEmpty then .ok next else .error .noEntry
          | some (.link target) =>
            if rest.isEmpty && !follow then .ok next
            else
              match links with
              | 0 => .error .tooManyLinks
              -- a relative text starts from the directory that holds the link
              | left + 1 => walk fs left follow (start here target) (steps target ++ rest)
          | some _ => walk fs links follow next rest
termination_by todo => (links, todo.length)

/-- The place where a path leads, from a working directory. -/
def locate (fs : FileSystem) (cwd : Place) (follow : Bool) (p : Path) : Except IoFault Place :=
  if '\x00' ∈ p.text then .error .nulInPath
  else if p.text.isEmpty then .error .noEntry
  else if maxPath ≤ Text.byteLength p.text then .error .nameTooLong
  else walk fs maxLinks follow (start cwd p.text) (steps p.text)

/-- The entry where a path leads. -/
def find (fs : FileSystem) (cwd : Place) (follow : Bool) (p : Path) :
    Except IoFault (Place × Entry) := do
  let place ← fs.locate cwd follow p
  match fs.get? place with
  | some e => .ok (place, e)
  | none => .error .noEntry

/-- A place as a path. -/
def placePath (p : Place) : Path :=
  Path.ofNames true (p.map fun
    | .text t => t
    | .bytes b => Text.ofBytes b)

end FileSystem
end Caretaker

import Caretaker.Layout

/-!
# The registry of tasks

A task is a script in the tasks directory, known by its file name without the extension. Its
description is a comment at the top of the script.
-/

namespace Caretaker

/-- A registered task. -/
structure Task where
  name : Text
  description : Option Text
deriving DecidableEq, Repr

/-- The extension of task scripts and of scripts that are named without it. -/
def scriptSuffix : Text := ".sh".toList

namespace Task

/-- The name of the task whose script has a file name. A name that is all extension is no task's. -/
def nameOf? (file : Text) : Option Text :=
  let name := file.take (file.length - scriptSuffix.length)
  if name ≠ [] ∧ name ++ scriptSuffix = file then some name else none

/-- A name is that of a task if it is followed by the suffix of scripts. -/
theorem nameOf?_eq_some_iff {file name : Text} :
    nameOf? file = some name ↔ name ≠ [] ∧ file = name ++ scriptSuffix := by
  constructor
  · intro h
    simp only [nameOf?, Option.ite_none_right_eq_some, Option.some.injEq] at h
    obtain ⟨⟨hne, happ⟩, rfl⟩ := h
    exact ⟨hne, happ.symm⟩
  · rintro ⟨hne, rfl⟩
    simp [nameOf?, hne]

/--
The description of a script: the text of its first line that is not blank, if that is a comment.
Lines that name an interpreter do not count at the top.
-/
def describe (content : Text) : Option Text :=
  let lines := (Text.lines content).dropWhile ("#!".toList.isPrefixOf ·)
  match (lines.map Text.trim).find? (!·.isEmpty) with
  | some ('#' :: line) =>
    let description := Text.trim (line.dropWhile (· == '#'))
    if description.isEmpty then none else some description
  | _ => none

end Task

/-- The registered tasks, in the order of their names. -/
structure Registry where
  tasks : List Task
deriving DecidableEq, Repr

namespace Registry

def names (r : Registry) : List Text := r.tasks.map (·.name)

/-- The task with a name. -/
def get? (r : Registry) (name : Text) : Option Task := r.tasks.find? (·.name == name)

/-- Sort tasks by their names. -/
def ofTasks (tasks : List Task) : Registry := ⟨tasks.mergeSort fun a b => Text.le a.name b.name⟩

/-- The task whose script is the entry of a directory, if it is one and leads to a regular file. -/
def task? (dir : Path) : EntryName → Program (Option Task)
  | .bytes _ => return none
  | .text file =>
    match Task.nameOf? file with
    | none => return none
    | some name => do
      let path := dir.join file
      if ← Program.perform (.isFile path) then
        let content ← Program.perform (.readText path)
        return some ⟨name, content.toOption.bind Task.describe⟩
      else return none

/-- The tasks of a directory; where there is none, there are no tasks. -/
def ofDir (dir : Path) : Action Registry := do
  if ← Action.ask (.isDir dir) then
    let entries ← Action.ask (.list dir) >>= Action.orFault .io
    let tasks ← ExceptT.lift (entries.mapM (task? dir))
    return ofTasks (tasks.filterMap id)
  else return ⟨[]⟩

end Registry
end Caretaker

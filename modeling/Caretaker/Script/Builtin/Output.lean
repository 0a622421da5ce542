import Caretaker.Script.Builtin.Basic
import Caretaker.Script.Condition
import Caretaker.Script.Format

/-!
# Commands that print and compare

The commands `echo`, `printf` and `test`.
-/

namespace Caretaker.Script.Builtin

open Step

/-- Print the arguments with blanks in between, and a line end unless `-n` comes first. -/
def echo : Action := fun args => do
  let (args, lineEnd) := if args.head? = some "-n".toList then (args.drop 1, []) else (args, ['\n'])
  let t := [' '].intercalate args
  let (t, goesOn) := Format.unescape (t.length + 1) t
  print (if goesOn then t ++ lineEnd else t)
  return 0

/-- Complain about the arguments that there is something wrong with. -/
def complainAbout (p : Format.Printing) : Step Unit :=
  p.problems.reverse.forM fun (arg, problem) => complain (arg ++ ": ".toList ++ problem.message.toList)

/-- Print arguments in a format. -/
def printf : Action := fun args => do
  match ← withoutOptions args with
  | [] => failWith "usage: printf format [arg ...]"
  | format :: args =>
    match Format.print format args with
    | .ok p =>
      complainAbout p
      print p.printed
      return if p.problems.isEmpty then 0 else 1
    | .error (fault, p) =>
      complainAbout p
      print p.printed
      fail fault.message

/-- Whether a condition holds. -/
def condition (args : List Octets) : Step Nat := do
  let s ← get
  match Condition.value ⟨s.world, s.cwd, s.descriptor?⟩ args with
  | .ok holds => return if holds then 0 else 1
  | .error e => fail e.message

/-- A condition in brackets. -/
def bracket : Action := fun args => do
  match args.getLast? with
  | some (']' :: _) => condition args.dropLast
  | _ => failWith "missing ]"

end Caretaker.Script.Builtin

import Caretaker.IoFault
import Caretaker.Launch
import Caretaker.SearchPath

/-!
# Children

How a program is started as a child: by which texts it gets its variables, and at which paths it is
looked for. What becomes of a path that is executed is for whoever starts the program to say.
-/

namespace Caretaker

/-- The shell that runs programs for which there is nothing else to run them. -/
def shellPath : Octets := "/bin/sh".toList

/-- The texts by which a child is handed its variables. If none are layered over those of the parent,
it has the texts of the parent. Otherwise all variables are bound one after the other, first those of
the parent, and put in the order of their names. -/
def childEnvironment (process added : Bindings) : List Octets :=
  let all := if added.isEmpty then process
    else (Bindings.overlay [] (process.taken ++ added)).mergeSort fun a b => Text.le a.1 b.1
  all.map fun (k, v) => Octets.ofText (k ++ '=' :: v)

/-- The search path among texts that bind variables. -/
def searchPathOf (environment : List Octets) : Octets :=
  (environment.findSome? ("PATH=".toList.isPrefixOf? ·)).getD "/bin:/usr/bin".toList

section
variable {α : Type}

/-- Execute the first of some paths that is there. That one could not be executed is remembered; any
other failure ends the search. -/
def executeFirst (run : Octets → Except IoFault α) :
    (denied : Bool) → (last : IoFault) → List Octets → Except IoFault α
  | denied, last, [] => .error (if denied then .permissionDenied else last)
  | denied, _, path :: rest =>
    match run path with
    | .error e =>
      if e = .permissionDenied then executeFirst run true e rest
      else if e = .noEntry ∨ e = .notDirectory then executeFirst run denied e rest
      else .error e
    | r => r

/-- Start a child, where `run` executes a path with arguments and with texts that bind variables. A
program without a slash is looked for in the search path of the parent, or, if the child is handed
one, in that of the child; then a file that is no program is run by the shell. -/
def startChild (run : (path : Octets) → (args environment : List Octets) → Except IoFault α)
    (process : Bindings) (l : Launch) : Except IoFault α :=
  let environment := childEnvironment process l.bindings
  let program := Octets.ofText l.program.text
  let args := program :: l.args.map Octets.ofText
  if program.contains '/' then run program args environment
  else if program.isEmpty then .error .noEntry
  else
    let ownPath := l.bindings.any (·.1 == "PATH".toList)
    let path := searchPathOf (if ownPath then environment else childEnvironment process [])
    let paths := (SearchPath.candidates path program).map (·.2)
    executeFirst (fun file =>
      match run file args environment with
      | .error .badFormat =>
        if ownPath then run shellPath (shellPath :: file :: args.drop 1) environment else .error .badFormat
      | r => r) false .noEntry paths

end
end Caretaker

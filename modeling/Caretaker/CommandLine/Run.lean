import Caretaker.CommandLine
import Caretaker.Dispatch

/-!
# Running a command line

The whole of what happens between the words of a command line and the code to exit with.
-/

namespace Caretaker

/-! ## Colours -/

/-- Whether a terminal is to be sent escapes. -/
def Theme.allowsEscapes (process : Bindings) : Bool :=
  let value (name : String) := process.processValue? name.toList
  (value "CLICOLOR_FORCE").any (· != ['0']) ||
    ((value "TERM").any (· != "dumb".toList) && (value "CLICOLOR") != some ['0'])

/-- The theme for a terminal. Any value of `NO_COLOR` asks for a plain one, and so does output
elsewhere. -/
def Theme.ofProcess : Program Theme := do
  let process ← Program.perform .bindings
  let terminal ← Program.perform (.isTerminal .output)
  let wanted := (process.processValue? "NO_COLOR".toList).isNone
  return if wanted && terminal && Theme.allowsEscapes process then .colored else .plain

namespace CommandLine

/-! ## Commands -/

/-- The layout and the switches under which a command line is carried out. -/
def prepare (line : CommandLine) : Action (Layout × SkipFlags) := do
  let (root, _) ← ExceptT.lift (resolveRoot line.root)
  let layout ← Layout.load root
  return (layout, ← ExceptT.lift SkipFlags.ofProcess)

/-- Carry out a command line. -/
def dispatch (line : CommandLine) (theme : Theme) : Action Answer := do
  let (layout, flags) ← line.prepare
  layout.dispatch flags theme (Command.request line.command)

/-- How a fault is shown. -/
def faultLine (f : Fault) : Line := ⟨.error, "Error: ".toList ++ f.message.toList⟩

/-- Show what became of a command line; the result is the code to exit with. -/
def report (theme : Theme) : Except Fault Answer → Program Nat
  | .ok (outcome, lines) => do
    let _ ← lines.mapM (Line.print theme)
    return outcome.statusByte
  | .error fault => do
    (faultLine fault).print theme
    return 1

/-! ## Usage -/

/-- Print help. -/
def printHelp (process : Bindings) (reading : Text.Escape.Reading) : Program Nat := do
  Program.perform (.print .output (help process reading ++ ['\n']))
  return UsageFault.wantsHelp.exitCode

/-- Print help or the version, or what is wrong with a command line. -/
def explain (process : Bindings) (fault : UsageFault) : Program Nat := do
  match fault with
  | .wantsHelp => printHelp process .strict
  | .wantsVersion =>
    Program.perform (.print .output (version ++ ['\n']))
    return fault.exitCode
  | _ =>
    let text := fault.message ++ "\n\nFor more information, try '--help'.\n"
    Program.perform (.print .errors (Text.Escape.strip .strict text.toList))
    return fault.exitCode

/-- Run a command line. Help needs no root and touches nothing. -/
def run (args : List Text) : Program Nat := do
  let process ← Program.perform .bindings
  match parse process args with
  | .error fault => explain process fault
  | .ok line =>
    if line.noColor then Program.perform (.setVariable "NO_COLOR".toList ['1'])
    let theme ← Theme.ofProcess
    match line.command with
    | some (.help _) => printHelp process .lenient
    | _ => report theme (← (line.dispatch theme).run)

end CommandLine
end Caretaker

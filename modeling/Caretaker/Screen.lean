import Caretaker.Program

/-!
# The screen

What the dispatcher itself has to say goes to one of four channels, and is styled by a theme when it
reaches a terminal. A plain theme leaves texts as they are.
-/

namespace Caretaker

/-! ## Themes -/

inductive Theme where
  | plain
  | colored
deriving DecidableEq, Repr

namespace Theme

/-- The escape that sets an attribute of the terminal. -/
def escape (code : Nat) : Text := "\x1b[".toList ++ Nat.toDigits 10 code ++ ['m']

/-- A text with attributes set in front of it and reset behind it. -/
def paint (theme : Theme) (codes : List Nat) (t : Text) : Text :=
  match theme with
  | plain => t
  | colored => codes.flatMap escape ++ t ++ escape 0

@[simp] theorem paint_plain (codes : List Nat) (t : Text) : plain.paint codes t = t := rfl

/-- An error: red and bold, behind a cross. -/
def error (theme : Theme) (t : Text) : Text := theme.paint [31, 1] ("✗ ".toList ++ t)

/-- A hint: magenta and dim. -/
def hint (theme : Theme) (t : Text) : Text := theme.paint [35, 2] t

/-- A header: magenta and bold. -/
def header (theme : Theme) (t : Text) : Text := theme.paint [35, 1] t

/-- A text with spaces behind it, up to a number of characters. -/
def padTo (width : Nat) (t : Text) : Text := t ++ List.replicate (width - t.length) ' '

/-- The row of a task: its name in bold, padded if a dim description follows. -/
def taskRow (theme : Theme) (name : Text) (description : Option Text) (width : Nat) : Text :=
  match description with
  | some d => "  ".toList ++ theme.paint [1] (padTo width name) ++ "  ".toList ++ theme.paint [2] d
  | none => "  ".toList ++ theme.paint [1] name

end Theme

/-! ## Lines -/

inductive Channel where
  | message
  | error
  | hint
  /-- Lines for other programs, which are never styled. -/
  | raw
deriving DecidableEq, Repr

/-- A line on a channel. Messages are styled already; errors and hints are styled when they are
shown. -/
structure Line where
  channel : Channel
  text : Text
deriving DecidableEq, Repr

namespace Line

/-- The line as a terminal shows it. -/
def shown (theme : Theme) (l : Line) : Text :=
  match l.channel with
  | .error => theme.error l.text
  | .hint => theme.hint l.text
  | .message | .raw => l.text

/-- Errors go where errors go; everything else is output. -/
def stream (l : Line) : Stream :=
  match l.channel with
  | .error => .errors
  | _ => .output

/-- Print a line. -/
def print (theme : Theme) (l : Line) : Program Unit :=
  Program.perform (.print l.stream (l.shown theme ++ ['\n']))

/-- The texts of the lines on a channel. -/
def textsOn (c : Channel) (lines : List Line) : List Text :=
  (lines.filter (·.channel == c)).map (·.text)

end Line
end Caretaker

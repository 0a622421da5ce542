import Caretaker.Text.Utf8

/-!
# Escape sequences

What is meant for a terminal holds escape sequences, which say how the text between them looks.
Where there is no terminal they are taken out, and with them all control characters that are no
blanks. A sequence that is not finished hides what follows up to the next escape.
-/

namespace Caretaker.Text.Escape

/-- Where in a sequence a reader is. -/
inductive State where
  /-- In no sequence. -/
  | ground
  /-- Behind an escape. -/
  | escape
  | escapeMore
  /-- In a control sequence: at its start, in its parameters, behind them, or where it has gone wrong.
  -/
  | control
  | controlParam
  | controlMore
  | controlWrong
  /-- In a sequence for the device, likewise, and in the text that it carries. -/
  | device
  | deviceParam
  | deviceMore
  | deviceWrong
  | deviceText
  /-- In a text that nobody reads. -/
  | hidden
  /-- In a command for the operating system. -/
  | command
deriving DecidableEq, Repr

/-- Whether a byte lies between two others. -/
def within (low high b : UInt8) : Bool := low ≤ b && b ≤ high

/-! ## States -/

/-- The state behind an escape and a byte. -/
def State.afterEscape (b : UInt8) : State :=
  if within 0x20 0x2F b then .escapeMore
  else if b == 0x5B then .control
  else if b == 0x5D then .command
  else if b == 0x50 then .device
  else if b == 0x58 || b == 0x5E || b == 0x5F then .hidden
  else if within 0x30 0x7E b then .ground
  else .escape

/-- The state behind a byte. Cancelling and escaping work everywhere. -/
def State.next (s : State) (b : UInt8) : State :=
  if b == 0x18 || b == 0x1A then .ground
  else if b == 0x1B then .escape
  else
    match s with
    | .ground => .ground
    | .escape => .afterEscape b
    | .escapeMore => if within 0x30 0x7E b then .ground else s
    | .control =>
      if within 0x20 0x2F b then .controlMore
      else if within 0x30 0x3F b then .controlParam
      else if within 0x40 0x7E b then .ground
      else s
    | .controlParam =>
      if within 0x20 0x2F b then .controlMore
      else if within 0x3C 0x3F b then .controlWrong
      else if within 0x40 0x7E b then .ground
      else s
    | .controlMore =>
      if within 0x30 0x3F b then .controlWrong
      else if within 0x40 0x7E b then .ground
      else s
    | .controlWrong => if within 0x40 0x7E b then .ground else s
    | .device =>
      if within 0x20 0x2F b then .deviceMore
      else if within 0x30 0x3F b then .deviceParam
      else if within 0x40 0x7E b then .deviceText
      else s
    | .deviceParam =>
      if within 0x20 0x2F b then .deviceMore
      else if within 0x3C 0x3F b then .deviceWrong
      else if within 0x40 0x7E b then .deviceText
      else s
    | .deviceMore =>
      if within 0x30 0x3F b then .deviceWrong
      else if within 0x40 0x7E b then .deviceText
      else s
    | .deviceWrong | .deviceText | .hidden => if b == 0x9C then .ground else s
    | .command => if b == 0x07 then .ground else s

/-- The control characters that are blanks. -/
def isBlankControl (b : UInt8) : Bool := b == 0x09 || b == 0x0A || b == 0x0C || b == 0x0D

/-- Whether a byte is shown. A blank among the control characters is shown in the middle of most
sequences, too. -/
def State.shows (s : State) (b : UInt8) : Bool :=
  match s with
  | .ground => within 0x20 0x7E b || isBlankControl b || within 0xC2 0xF4 b
  | .escape | .escapeMore | .control | .controlParam | .controlMore | .controlWrong => isBlankControl b
  | _ => false

/-! ## Taking sequences out -/

/-- How bytes are read. -/
inductive Reading where
  /-- A sequence goes on behind a blank that is shown in the middle of it. -/
  | strict
  /-- What follows something that is shown is in no sequence, and a byte that goes on a character is
  shown wherever it stands. -/
  | lenient
deriving DecidableEq, Repr

/--
Take out the sequences. While bytes are being shown, the state matters only once something is hidden
again; `more` is how many bytes are still due of the character that is being shown.
-/
def stripFrom (r : Reading) : (showing : Bool) → (more : Nat) → State → Bytes → Bytes
  | _, _, _, [] => []
  | showing, more + 1, s, b :: rest => b :: stripFrom r showing more s rest
  | showing, 0, s, b :: rest =>
    let here := if showing then .ground else s
    let shown := here.shows b || (r == .lenient && within 0x80 0xBF b)
    if shown then
      let more := if r == .strict then (following? b).getD 0 else 0
      let s := if r == .lenient || more != 0 then .ground else s
      b :: stripFrom r true more s rest
    else
      let s := if showing && r == .lenient then .ground else s
      stripFrom r false 0 (s.next b) rest

/-- Take out the escape sequences of a text. -/
def strip (r : Reading) (t : Text) : Text := ofBytes (stripFrom r false 0 .ground (encode t))

end Caretaker.Text.Escape

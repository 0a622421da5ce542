import Caretaker.Text.Hidden

/-!
# Quoted text

Text is quoted when it is shown inside a message: quotes and backslashes are escaped, a few control
characters have escapes of their own, and other hidden characters are given by their code.
-/

namespace Caretaker.Text

/-- A character inside quotes. -/
def quoteChar (c : Char) : Text :=
  match c with
  | '"' => ['\\', '"']
  | '\\' => ['\\', '\\']
  | '\n' => ['\\', 'n']
  | '\r' => ['\\', 'r']
  | '\t' => ['\\', 't']
  | '\x00' => ['\\', '0']
  | _ => if isHidden c then "\\u\x7b".toList ++ Nat.toDigits 16 c.toNat ++ ['\x7d'] else [c]

/-- A text in quotes. -/
def quoted (t : Text) : Text := '"' :: t.flatMap quoteChar ++ ['"']

end Caretaker.Text

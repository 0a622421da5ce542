/-!
# Text

Scripts, settings, environ files and paths are all text, and everything the library does with text
is a scan from left to right. Text is therefore the list of its characters: a scanner recurses on
it, and `String` appears only where text enters or leaves the library.
-/

namespace Caretaker

/-- Text as the list of its characters. -/
abbrev Text := List Char

namespace Text

/-! ## Blanks -/

/-- The characters with the Unicode property `White_Space`. -/
def isBlank (c : Char) : Bool :=
  let n := c.toNat
  (0x9 ≤ n && n ≤ 0xD) || n == 0x20 || n == 0x85 || n == 0xA0 || n == 0x1680 ||
    (0x2000 ≤ n && n ≤ 0x200A) || n == 0x2028 || n == 0x2029 || n == 0x202F || n == 0x205F ||
    n == 0x3000

/-- Every blank of the core library is a blank here. -/
theorem isBlank_of_isWhitespace {c : Char} (h : c.isWhitespace) : isBlank c := by
  simp only [Char.isWhitespace, Bool.or_eq_true, decide_eq_true_eq] at h
  rcases h with ((rfl | rfl) | rfl) | rfl <;> rfl

/-- Drop the blanks in front. -/
def trimStart (s : Text) : Text := s.dropWhile isBlank

/-- Drop the blanks behind. -/
def trimEnd (s : Text) : Text := (s.reverse.dropWhile isBlank).reverse

/-- Drop the blanks on both sides. -/
def trim (s : Text) : Text := (trimStart s).trimEnd

/-! ## Lines -/

/--
The lines of a text. A line ends before a line feed, together with one carriage return in front of
it; what follows the last line feed is a line unless it is empty.
-/
def lines : Text → List Text
  | [] => []
  | '\n' :: r => [] :: lines r
  | '\r' :: '\n' :: r => [] :: lines r
  | c :: r =>
    match lines r with
    | [] => [[c]]
    | l :: ls => (c :: l) :: ls

/-! ## Sizes and order -/

/-- Number of bytes of the text's UTF-8 form. -/
def byteLength (s : Text) : Nat := s.foldr (fun c n => c.utf8Size + n) 0

/-- The order of the UTF-8 forms, which is the lexical order of the characters. -/
def le : Text → Text → Bool
  | [], _ => true
  | _ :: _, [] => false
  | a :: s, b :: t => if a = b then le s t else Nat.blt a.toNat b.toNat

/-- Whether `part` occurs somewhere in `s`. -/
def hasPart (part : Text) : Text → Bool
  | [] => part.isEmpty
  | c :: r => part.isPrefixOf (c :: r) || hasPart part r

end Text
end Caretaker

import Caretaker.Text

/-!
# Text as bytes

Files hold bytes. Reading a file as text asks for UTF-8 throughout; showing what it holds replaces
what is not UTF-8 by the replacement character, once for each stretch that cannot be completed.
-/

namespace Caretaker

/-- Bytes in a file or on their way to one. -/
abbrev Bytes := List UInt8

namespace Text

/-- The bytes of a text. -/
def encode (s : Text) : Bytes := (String.ofList s).toUTF8.data.toList

/-- The text of bytes that are UTF-8 throughout. -/
def decode? (b : Bytes) : Option Text := (String.fromUTF8? ⟨b.toArray⟩).map String.toList

/-- Every text is the text of its bytes. -/
theorem decode?_encode (s : Text) : decode? (encode s) = some s := by
  have h : String.fromUTF8? (String.ofList s).toUTF8 = some (String.ofList s) := by
    unfold String.fromUTF8?
    rw [dif_pos (show (String.ofList s).toUTF8.IsValidUTF8 from (String.ofList s).isValidUTF8)]
    rfl
  rw [decode?, encode, Array.toArray_toList, h, Option.map_some, String.toList_ofList]

/-! ## Showing bytes that may not be text -/

/-- Bounds for the second byte of a character after its first byte: surrogates, characters beyond
the last one and forms longer than needed are left out. -/
def secondByte (first : UInt8) : UInt8 × UInt8 :=
  if first = 0xE0 then (0xA0, 0xBF)
  else if first = 0xED then (0x80, 0x9F)
  else if first = 0xF0 then (0x90, 0xBF)
  else if first = 0xF4 then (0x80, 0x8F)
  else (0x80, 0xBF)

/-- How many bytes follow a first byte; nothing for a byte that starts no character. -/
def following? (first : UInt8) : Option Nat :=
  if first < 0x80 then some 0
  else if first < 0xC2 then none
  else if first < 0xE0 then some 1
  else if first < 0xF0 then some 2
  else if first < 0xF5 then some 3
  else none

/-- The bytes, at most `n`, that go on a character; the first of them lies in `bounds`. -/
def continuation : Nat → UInt8 × UInt8 → Bytes → Bytes
  | n + 1, (low, high), b :: r =>
    if low ≤ b ∧ b ≤ high then b :: continuation n (0x80, 0xBF) r else []
  | _, _, _ => []

/-- The character that a first byte and the bytes after it spell. -/
def spell (first : UInt8) (tail : Bytes) : Char :=
  let head := match tail.length with
    | 0 => first.toNat
    | 1 => first.toNat % 32
    | 2 => first.toNat % 16
    | _ => first.toNat % 8
  Char.ofNat (tail.foldl (fun n b => n * 64 + b.toNat % 64) head)

/-- Bytes as they are shown: characters as they are, and one replacement character for each longest
stretch that begins a character and is not completed. -/
def ofBytes (bytes : Bytes) : Text :=
  match bytes with
  | [] => []
  | b :: r =>
    match following? b with
    | none => '\uFFFD' :: ofBytes r
    | some n =>
      let tail := continuation n (secondByte b) r
      (if tail.length = n then spell b tail else '\uFFFD') :: ofBytes (r.drop tail.length)
termination_by bytes.length
decreasing_by
  · simp only [List.length_cons]
    omega
  · simp only [List.length_cons, List.length_drop]
    omega

end Text
end Caretaker

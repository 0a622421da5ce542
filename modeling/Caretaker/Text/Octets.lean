import Caretaker.Text.Utf8

/-!
# Octets

A script is not text but bytes: it counts bytes, cuts between them, and prints them as they are. To
read it with the same means as text, each byte is kept as the character with its number. What a
script shows is text again only where it leaves the script.
-/

namespace Caretaker

/-- Bytes as characters: each of them has a number below 256. -/
abbrev Octets := List Char

namespace Octets

/-- The character for a byte. -/
def ofByte (b : UInt8) : Char := Char.ofNat b.toNat

/-- The byte that a character stands for. -/
def toByte (c : Char) : UInt8 := c.toNat.toUInt8

def ofBytes (b : Bytes) : Octets := b.map ofByte

def toBytes (o : Octets) : Bytes := o.map toByte

/-- The bytes of a text. -/
def ofText (t : Text) : Octets := ofBytes (Text.encode t)

def ofString (s : String) : Octets := ofText s.toList

/-- How octets are shown. -/
def shown (o : Octets) : Text := Text.ofBytes o.toBytes

/-- Octets stand for bytes, one by one, -/
theorem toByte_ofByte (b : UInt8) : toByte (ofByte b) = b := by
  have hb : b.toNat < 256 := b.toNat_lt
  have h : (ofByte b).toNat = b.toNat := by
    unfold ofByte Char.ofNat
    rw [dif_pos (show b.toNat.isValidChar from Or.inl (by omega))]
    unfold Char.ofNatAux Char.toNat
    simp
  simp [toByte, h]

/-- and in a row. -/
theorem toBytes_ofBytes (b : Bytes) : toBytes (ofBytes b) = b := by
  have h : toByte ∘ ofByte = id := funext toByte_ofByte
  simp [toBytes, ofBytes, h]

/-! ## Characters of scripts -/

/-- The characters that names start with: letters and the underscore. -/
def startsName (c : Char) : Bool := c.isAlpha || c == '_'

/-- The characters that names go on with. -/
def isInName (c : Char) : Bool := c.isAlphanum || c == '_'

/-- The longest front part that could be a name. -/
def nameOf (o : Octets) : Octets :=
  match o with
  | [] => []
  | c :: _ => if startsName c then o.takeWhile isInName else []

/-- Whether octets are a name and nothing else. -/
def isName (o : Octets) : Bool := !o.isEmpty && nameOf o == o

/-- A blank, or another character that numbers may have in front. -/
def isSpace (c : Char) : Bool := c == ' ' || 0x9 ≤ c.toNat && c.toNat ≤ 0xD

/-- Decimal digits of a number. -/
def ofNat (n : Nat) : Octets := Nat.toDigits 10 n

/-- A number with its sign. -/
def ofInt (n : Int) : Octets :=
  match n with
  | .ofNat n => ofNat n
  | .negSucc n => '-' :: ofNat (n + 1)

/-- The order of bytes. -/
def le : Octets → Octets → Bool := Text.le

end Octets
end Caretaker

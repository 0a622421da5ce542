import Caretaker.Text.Utf8
import Mathlib

/-!
# The order of texts

Texts are put in order character by character, and their UTF-8 forms byte by byte. Both come to the
same order: a greater character has a greater byte where the two forms first differ. It is linear.
-/

namespace Caretaker.Text

variable {c d : Char} {s t r : Text}

/-! ## A linear order -/

lemma le_refl (s : Text) : le s s := by
  induction s with
  | nil => rfl
  | cons c s ih => rwa [le, if_pos rfl]

lemma le_cons_iff : le (c :: s) (d :: t) ↔ c.toNat < d.toNat ∨ c = d ∧ le s t := by
  rw [le]
  by_cases hcd : c = d
  · simp [hcd]
  · simp [hcd, Nat.blt_eq]

lemma le_trans (hst : le s t) (htr : le t r) : le s r := by
  induction s generalizing t r with
  | nil => rfl
  | cons c s ih =>
    cases t with
    | nil => cases hst
    | cons d t =>
      cases r with
      | nil => cases htr
      | cons e r =>
        rw [le_cons_iff] at hst htr ⊢
        rcases hst with hcd | ⟨rfl, hst⟩
        · rcases htr with hde | ⟨rfl, -⟩
          · exact Or.inl (Nat.lt_trans hcd hde)
          · exact Or.inl hcd
        · exact htr.imp_right fun h => ⟨h.1, ih hst h.2⟩

lemma le_total (s t : Text) : le s t ∨ le t s := by
  induction s generalizing t with
  | nil => exact Or.inl rfl
  | cons c s ih =>
    cases t with
    | nil => exact Or.inr rfl
    | cons d t =>
      rw [le_cons_iff, le_cons_iff]
      rcases Nat.lt_trichotomy c.toNat d.toNat with hcd | hcd | hdc
      · exact Or.inl (Or.inl hcd)
      · obtain rfl := Char.toNat_inj.mp hcd
        exact (ih t).imp (fun h => Or.inr ⟨rfl, h⟩) fun h => Or.inr ⟨rfl, h⟩
      · exact Or.inr (Or.inl hdc)

/-! ## Bytes of a character -/

lemma encode_append (s t : Text) : encode (s ++ t) = encode s ++ encode t := by
  show (s ++ t).utf8Encode.data.toList = s.utf8Encode.data.toList ++ t.utf8Encode.data.toList
  rw [List.utf8Encode_append, ByteArray.data_append, Array.toList_append]

lemma encode_cons (c : Char) (s : Text) :
    encode (c :: s) = String.utf8EncodeChar c ++ encode s := by
  have hchar : encode [c] = String.utf8EncodeChar c := by
    show ([c].flatMap String.utf8EncodeChar).toByteArray.data.toList = _
    simp
  rw [← hchar]
  exact encode_append [c] s

lemma toNat_lt (c : Char) : c.toNat < 0x110000 := by
  rcases c.valid with hc | hc
  · exact Nat.lt_trans hc (by decide)
  · exact hc.2

/-- How many bytes follow the first one in the form of a character with the number `v`. -/
def following (v : Nat) : Nat :=
  if v ≤ 0x7F then 0 else if v ≤ 0x7FF then 1 else if v ≤ 0xFFFF then 2 else 3

/-- What a first byte says about the number of those behind it. -/
def mark : Nat → Nat
  | 0 => 0
  | 1 => 0xC0
  | 2 => 0xE0
  | _ => 0xF0

/-- The first byte. -/
def firstByte (v : Nat) : Nat := v / 64 ^ following v + mark (following v)

/-- The last `k` digits to the base 64, each in a byte. -/
def lastBytes : Nat → Nat → Bytes
  | 0, _ => []
  | k + 1, v => UInt8.ofNat (v / 64 ^ k % 64 + 0x80) :: lastBytes k v

/-- A character is encoded as its first byte, and the bytes for the digits behind it. -/
lemma utf8EncodeChar_eq (c : Char) : String.utf8EncodeChar c =
    UInt8.ofNat (firstByte c.toNat) :: lastBytes (following c.toNat) c.toNat := by
  have hbound : c.val.toNat < 0x110000 := toNat_lt c
  show _ = UInt8.ofNat (firstByte c.val.toNat) :: lastBytes (following c.val.toNat) c.val.toNat
  unfold String.utf8EncodeChar firstByte following
  generalize c.val.toNat = v at hbound ⊢
  dsimp only
  split_ifs with h1 h2 h3
  · simp [mark, lastBytes]
  · have hfirst : v / 64 % 32 = v / 64 := by omega
    rw [hfirst]
    simp [mark, lastBytes]
  · have hfirst : v / 4096 % 16 = v / 4096 := by omega
    rw [hfirst]
    simp [mark, lastBytes]
  · have hfirst : v / 262144 % 8 = v / 262144 := by omega
    rw [hfirst]
    simp [mark, lastBytes]

variable {v w k : Nat}

/-- The first bytes of a smaller and a greater number differ, or else the digits behind them do. -/
lemma firstByte_lt_or (h : v < w) (hw : w < 0x110000) :
    firstByte v < firstByte w ∨ firstByte v = firstByte w ∧ following v = following w ∧
      v % 64 ^ following v < w % 64 ^ following v := by
  unfold firstByte following
  split_ifs <;> simp only [mark, true_and] <;> omega

lemma firstByte_lt (hv : v < 0x110000) : firstByte v < 256 := by
  unfold firstByte following
  split_ifs <;> simp only [mark] <;> omega

lemma ofNat_cons_lt {m n : Nat} {x y : Bytes} (hmn : m < n) (hn : n < 256) :
    UInt8.ofNat m :: x < UInt8.ofNat n :: y := by
  rw [List.cons_lt_cons_iff, UInt8.lt_iff_toNat_lt, UInt8.toNat_ofNat', UInt8.toNat_ofNat']
  omega

/-- The first digit that differs decides. -/
lemma lastBytes_lt (h : v % 64 ^ k < w % 64 ^ k) (x y : Bytes) :
    lastBytes k v ++ x < lastBytes k w ++ y := by
  induction k with
  | zero => simp [Nat.mod_one] at h
  | succ k ih =>
    have hdigit : ∀ u, u % 64 ^ (k + 1) = u % 64 ^ k + 64 ^ k * (u / 64 ^ k % 64) :=
      fun u => Nat.mod_pow_succ
    have hrest : ∀ u, u % 64 ^ k < 64 ^ k := fun u => Nat.mod_lt u (Nat.pow_pos (by decide))
    rw [hdigit, hdigit] at h
    rcases Nat.lt_trichotomy (v / 64 ^ k % 64) (w / 64 ^ k % 64) with hlt | heq | hgt
    · exact ofNat_cons_lt (by omega) (by omega)
    · rw [heq] at h
      rw [lastBytes, lastBytes, heq]
      exact List.cons_lt_cons_iff.mpr (Or.inr ⟨rfl, ih (by omega)⟩)
    · -- a greater digit outweighs all digits behind it
      have hstep := Nat.mul_le_mul_left (64 ^ k) hgt
      rw [Nat.mul_succ] at hstep
      have hv := hrest v
      have hw := hrest w
      omega

/-- Whatever follows, the bytes of a character come before those of a greater one. -/
lemma utf8EncodeChar_lt (h : c.toNat < d.toNat) (x y : Bytes) :
    String.utf8EncodeChar c ++ x < String.utf8EncodeChar d ++ y := by
  rw [utf8EncodeChar_eq, utf8EncodeChar_eq]
  rcases firstByte_lt_or h (toNat_lt d) with hfirst | ⟨hfirst, hfollowing, hlast⟩
  · exact ofNat_cons_lt hfirst (firstByte_lt (toNat_lt d))
  · rw [← hfirst, ← hfollowing]
    exact List.cons_lt_cons_iff.mpr (Or.inr ⟨rfl, lastBytes_lt hlast x y⟩)

/-! ## Bytes of a text -/

/-- The order of texts is the order of their bytes. -/
theorem encode_lt_of_le (h : le s t) (hne : s ≠ t) : encode s < encode t := by
  induction s generalizing t with
  | nil =>
    cases t with
    | nil => exact absurd rfl hne
    | cons d t =>
      rw [encode_cons, utf8EncodeChar_eq]
      exact List.nil_lt_cons ..
  | cons c s ih =>
    cases t with
    | nil => cases h
    | cons d t =>
      rw [encode_cons, encode_cons]
      rcases le_cons_iff.mp h with hcd | ⟨rfl, hst⟩
      · exact utf8EncodeChar_lt hcd _ _
      · exact List.append_left_lt (ih hst fun heq => hne (heq ▸ rfl))

end Caretaker.Text

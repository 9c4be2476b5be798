/-
  UTF-8 on lists of bytes.

  The bytes of a character are the character, if it is an ASCII one, and otherwise bytes that are
  no ASCII character (`encodeChar_ascii`, `le_of_mem_encodeChar`); what has been encoded is decoded
  (`decode_encode`).
-/
import Mathlib.Data.List.Basic

namespace Utf8

/-- The bytes of a character. -/
def encodeChar (c : Char) : List UInt8 := String.utf8EncodeChar c

/-- The bytes of a text. -/
def encodeList (cs : List Char) : List UInt8 := cs.flatMap encodeChar

/-- The bytes of a string. -/
def encode (s : String) : List UInt8 := encodeList s.toList

/-- The string that bytes encode, if they do. -/
def decode (b : List UInt8) : Option String := String.fromUTF8? ⟨b.toArray⟩

@[simp] theorem encodeList_nil : encodeList [] = [] := rfl

@[simp] theorem encodeList_cons (c : Char) (cs : List Char) :
    encodeList (c :: cs) = encodeChar c ++ encodeList cs := rfl

@[simp] theorem encodeList_append (cs ds : List Char) :
    encodeList (cs ++ ds) = encodeList cs ++ encodeList ds := List.flatMap_append

theorem toByteArray_encode (s : String) : (⟨(encode s).toArray⟩ : ByteArray) = s.toByteArray := by
  rw [← String.utf8Encode_toList, List.utf8Encode]
  apply ByteArray.ext
  rw [List.data_toByteArray]; rfl

/-- **Round trip.** -/
theorem decode_encode (s : String) : decode (encode s) = some s := by
  rw [decode, toByteArray_encode, String.fromUTF8?, dif_pos s.isValidUTF8]
  rfl

/-- Only what has been encoded is decoded. -/
theorem encode_of_decode {b : List UInt8} {s : String} (h : decode b = some s) : encode s = b := by
  rw [decode, String.fromUTF8?] at h
  split_ifs at h with hvalid
  have hbytes : s.toByteArray = ⟨b.toArray⟩ := by
    rw [← Option.some.inj h]
    rfl
  rw [← toByteArray_encode] at hbytes
  simpa using hbytes

variable {c : Char}

/-- An ASCII character is one byte. -/
theorem encodeChar_ascii (h : c.val.toNat < 128) : encodeChar c = [UInt8.ofNat c.val.toNat] := by
  rw [encodeChar, String.utf8EncodeChar]
  exact if_pos (by omega)

/-- The bytes of another character are not ASCII characters. -/
theorem le_of_mem_encodeChar (h : 128 ≤ c.val.toNat) {b : UInt8} (hb : b ∈ encodeChar c) :
    128 ≤ b.toNat := by
  have hbyte : ∀ n, 128 ≤ n → n < 256 → 128 ≤ (UInt8.ofNat n).toNat := by
    intro n h1 h2
    rw [UInt8.toNat_ofNat']; omega
  unfold encodeChar String.utf8EncodeChar at hb
  simp only at hb
  split_ifs at hb with h1 h2 h3 <;> simp only [List.mem_cons, List.not_mem_nil, or_false] at hb
  · omega
  · rcases hb with rfl | rfl <;> exact hbyte _ (by omega) (by omega)
  · rcases hb with rfl | rfl | rfl <;> exact hbyte _ (by omega) (by omega)
  · rcases hb with rfl | rfl | rfl | rfl <;> exact hbyte _ (by omega) (by omega)

/-- An ASCII byte comes from the same ASCII character. -/
theorem eq_of_mem_encodeChar {b : UInt8} (hb : b ∈ encodeChar c) (h : b.toNat < 128) :
    c.val.toNat = b.toNat := by
  by_cases hc : c.val.toNat < 128
  · rw [encodeChar_ascii hc, List.mem_singleton] at hb
    rw [hb, UInt8.toNat_ofNat']; omega
  · have := le_of_mem_encodeChar (by omega) hb
    omega

end Utf8

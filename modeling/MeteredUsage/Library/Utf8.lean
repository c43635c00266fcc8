import Mathlib.Data.List.Basic

/-! Texts as their UTF-8 bytes. Every byte below 128 is a character of its own. -/

namespace MeteredUsage.Library.Utf8

/-- `str::as_bytes`. -/
def utf8 (text : String) : List UInt8 := text.toList.flatMap String.utf8EncodeChar

/-- `str::from_utf8`. -/
def fromUtf8 (bytes : List UInt8) : Option String := String.fromUTF8? bytes.toByteArray

theorem toByteArray_utf8 (text : String) : (utf8 text).toByteArray = text.toByteArray :=
  String.utf8Encode_toList

@[simp] theorem fromUtf8_utf8 (text : String) : fromUtf8 (utf8 text) = some text := by
  unfold fromUtf8 String.fromUTF8?
  rw [toByteArray_utf8, dif_pos text.isValidUTF8]
  rfl

theorem utf8_injective {first second : String} (same : utf8 first = utf8 second) :
    first = second := by
  have texts := congrArg fromUtf8 same
  rw [fromUtf8_utf8, fromUtf8_utf8] at texts
  exact Option.some.inj texts

theorem utf8_append (first second : String) : utf8 (first ++ second) = utf8 first ++ utf8 second := by
  unfold utf8
  rw [String.toList_append, List.flatMap_append]

theorem length_utf8_le (text : String) : (utf8 text).length ≤ 4 * text.toList.length := by
  unfold utf8
  induction text.toList with
  | nil => exact Nat.zero_le _
  | cons character rest ih =>
    have size := Char.utf8Size_le_four character
    rw [List.flatMap_cons, List.length_append, String.length_utf8EncodeChar, List.length_cons]
    omega

/-- A text of characters below 128 has a byte for each. -/
theorem utf8_of_ascii {text : String} (ascii : ∀ character ∈ text.toList, character.toNat < 128) :
    utf8 text = text.toList.map fun character => UInt8.ofNat character.toNat := by
  have single : ∀ character ∈ text.toList,
      String.utf8EncodeChar character = [UInt8.ofNat character.toNat] := by
    intro character here
    have low : character.val.toNat ≤ 0x7f := Nat.le_of_lt_succ (ascii character here)
    unfold String.utf8EncodeChar
    simp only [low, if_true]
    rfl
  unfold utf8
  rw [List.flatMap_congr single, List.map_eq_flatMap]

/-- A byte below 128 is the character it stands for. -/
theorem ascii_of_mem_encodeChar {character : Char} {byte : UInt8}
    (member : byte ∈ String.utf8EncodeChar character) (low : byte.toNat < 128) :
    character.toNat = byte.toNat := by
  have valid : character.toNat < 1114112 := by
    have point := character.valid
    rcases point with below | between
    · exact Nat.lt_trans below (by decide)
    · exact between.2
  simp only [String.utf8EncodeChar] at member
  change character.val.toNat < 1114112 at valid
  change character.val.toNat = byte.toNat
  generalize character.val.toNat = code at member valid ⊢
  split at member
  next small =>
    obtain rfl := List.mem_singleton.mp member
    rw [UInt8.toNat_ofNat']
    omega
  next =>
    split at member
    next =>
      simp only [List.mem_cons, List.not_mem_nil, or_false] at member
      rcases member with rfl | rfl <;> rw [UInt8.toNat_ofNat'] at low <;> omega
    next =>
      split at member
      next =>
        simp only [List.mem_cons, List.not_mem_nil, or_false] at member
        rcases member with rfl | rfl | rfl <;> rw [UInt8.toNat_ofNat'] at low <;> omega
      next =>
        simp only [List.mem_cons, List.not_mem_nil, or_false] at member
        rcases member with rfl | rfl | rfl | rfl <;> rw [UInt8.toNat_ofNat'] at low <;> omega

/-- A text without a character below 128 has no byte of it. -/
theorem not_mem_utf8 {character : Char} {text : String} (low : character.toNat < 128)
    (absent : character ∉ text.toList) : UInt8.ofNat character.toNat ∉ utf8 text := by
  intro member
  obtain ⟨other, here, byte⟩ := List.mem_flatMap.mp member
  have number : (UInt8.ofNat character.toNat).toNat = character.toNat := by
    rw [UInt8.toNat_ofNat']
    omega
  have same := ascii_of_mem_encodeChar byte (number.symm ▸ low)
  rw [number] at same
  exact absent (Char.toNat_inj.mp same ▸ here)

end MeteredUsage.Library.Utf8

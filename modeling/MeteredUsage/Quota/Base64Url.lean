import MeteredUsage.Library.Base64
import MeteredUsage.Library.FixedWidth
import MeteredUsage.Library.Utf8

/-! How the claims of a token are read out of its Base64. The buffer is shifted for every character
and forgets what leaves its 32 bits; only the bits that are not yet bytes count, fewer than eight. -/

namespace MeteredUsage.Quota.Base64Url
open MeteredUsage.Library.Base64 MeteredUsage.Library.FixedWidth MeteredUsage.Library.Numerals
open MeteredUsage.Library.Utf8

/-- The sextet a character of either alphabet stands for. -/
def sextetOf (character : UInt8) : Option UInt8 :=
  if 65 ≤ character ∧ character ≤ 90 then some (character - 65)
  else if 97 ≤ character ∧ character ≤ 122 then some (character - 97 + 26)
  else if 48 ≤ character ∧ character ≤ 57 then some (character - 48 + 52)
  else if character = 45 ∨ character = 43 then some 62
  else if character = 95 ∨ character = 47 then some 63
  else none

structure Decoder where
  bytes : List UInt8
  buffer : UInt32
  bits : Nat
deriving DecidableEq, Repr

def Decoder.new : Decoder := ⟨[], 0, 0⟩

/-- `u8::try_from` -/
def tryByte (word : UInt32) : Option UInt8 := if word.toNat < 256 then some word.toUInt8 else none

/-- One character more. -/
def Decoder.push (decoder : Decoder) (character : UInt8) : Option Decoder := do
  let sextet ← sextetOf character
  let buffer := (decoder.buffer <<< 6) ||| sextet.toUInt32
  let bits := decoder.bits + 6
  if bits ≥ 8 then
    let byte ← tryByte ((buffer >>> UInt32.ofNat (bits - 8)) &&& 0xff)
    some ⟨decoder.bytes ++ [byte], buffer, bits - 8⟩
  else some ⟨decoder.bytes, buffer, bits⟩

/-- `base64_url`, of a text without the `=` it ends in. -/
def base64Url (text : String) : Option (List UInt8) :=
  let trimmed := String.ofList (shortened '=' text.toList)
  ((utf8 trimmed).foldlM Decoder.push .new).map Decoder.bytes

/-- The bytes so far and the bits that are not yet bytes spell what the sextets do. -/
structure Decoder.Holds (decoder : Decoder) (sextets : List Nat) : Prop where
  few : decoder.bits < 8
  length : 8 * decoder.bytes.length + decoder.bits = 6 * sextets.length
  spells : bytesValue decoder.bytes * 2 ^ decoder.bits + decoder.buffer.toNat % 2 ^ decoder.bits =
    value 64 sextets

theorem bytesValue_append_singleton (bytes : List UInt8) (byte : UInt8) :
    bytesValue (bytes ++ [byte]) = bytesValue bytes * 256 + byte.toNat := by
  unfold bytesValue
  rw [List.map_append, List.map_singleton, value_append_singleton]

/-- The buffer after a sextet is what it would be without a width, less what leaves the width. -/
theorem toNat_shifted (buffer : UInt32) {sextet : UInt8} (low : sextet.toNat < 64) :
    ((buffer <<< 6) ||| sextet.toUInt32).toNat = (buffer.toNat * 64 + sextet.toNat) % 2 ^ 32 := by
  have shifted : (buffer <<< 6).toNat = (buffer.toNat % 2 ^ 26) <<< 6 := by
    rw [UInt32.toNat_shiftLeft]
    change buffer.toNat <<< 6 % 2 ^ 32 = _
    rw [Nat.shiftLeft_eq, Nat.shiftLeft_eq]
    omega
  rw [UInt32.toNat_or, UInt8.toNat_toUInt32, shifted, ← Nat.shiftLeft_add_eq_or_of_lt low,
    Nat.shiftLeft_eq]
  omega

/-- The bits that count are told by those that did and the sextet. -/
theorem low_bits {width : Nat} (narrow : width + 6 ≤ 32) (buffer sextet : Nat) (low : sextet < 64) :
    (buffer * 64 + sextet) % 2 ^ 32 % 2 ^ (width + 6) = buffer % 2 ^ width * 64 + sextet := by
  have whole : 2 ^ (width + 6) = 64 * 2 ^ width := by rw [Nat.pow_add, Nat.mul_comm]
  have last : (buffer * 64 + sextet) % 64 = sextet := by omega
  have rest : (buffer * 64 + sextet) / 64 = buffer := by omega
  rw [Nat.mod_mod_of_dvd _ (Nat.pow_dvd_pow 2 narrow), whole, Nat.mod_mul, last, rest]
  ring

theorem tryByte_shifted (buffer : UInt32) {width : Nat} (narrow : width < 32) :
    ∃ byte, tryByte ((buffer >>> UInt32.ofNat width) &&& 0xff) = some byte ∧
      byte.toNat = buffer.toNat / 2 ^ width % 2 ^ 8 := by
  have number : (UInt32.ofNat width).toNat % 32 = width := by
    rw [UInt32.toNat_ofNat']
    omega
  have masked : ((buffer >>> UInt32.ofNat width) &&& 0xff).toNat = buffer.toNat / 2 ^ width % 2 ^ 8 := by
    rw [UInt32.toNat_and, UInt32.toNat_shiftRight, number, Nat.shiftRight_eq_div_pow]
    exact Nat.and_two_pow_sub_one_eq_mod _ 8
  have low : ((buffer >>> UInt32.ofNat width) &&& 0xff).toNat < 256 := by
    rw [masked]
    exact Nat.mod_lt _ (by decide)
  refine ⟨_, if_pos low, ?_⟩
  rw [UInt32.toNat_toUInt8, Nat.mod_eq_of_lt low, masked]

/-- A character more: six bits join those that are not yet bytes, and the first eight leave them. -/
theorem Decoder.Holds.push {decoder : Decoder} {read : List Nat} {character sextet : UInt8}
    (holds : decoder.Holds read) (stands : sextetOf character = some sextet)
    (low : sextet.toNat < 64) :
    ∃ next, decoder.push character = some next ∧ next.Holds (read ++ [sextet.toNat]) := by
  obtain ⟨few, length, spells⟩ := holds
  have shifted := toNat_shifted decoder.buffer low
  have bits : ((decoder.buffer <<< 6) ||| sextet.toUInt32).toNat % 2 ^ (decoder.bits + 6) =
      decoder.buffer.toNat % 2 ^ decoder.bits * 64 + sextet.toNat := by
    rw [shifted]
    exact low_bits (by omega) _ _ low
  unfold Decoder.push
  rw [stands]
  change ∃ next, (if decoder.bits + 6 ≥ 8 then _ else _) = some next ∧ _
  generalize (decoder.buffer <<< 6) ||| sextet.toUInt32 = buffer at bits
  by_cases whole : decoder.bits + 6 ≥ 8
  · obtain ⟨width, split⟩ := Nat.exists_eq_add_of_le' whole
    obtain ⟨byte, tried, number⟩ := tryByte_shifted buffer (by omega : width < 32)
    have widths : decoder.bits + 6 - 8 = width := by omega
    have joined : buffer.toNat % 2 ^ width + 2 ^ width * byte.toNat =
        decoder.buffer.toNat % 2 ^ decoder.bits * 64 + sextet.toNat := by
      rw [number, ← Nat.mod_mul, ← Nat.pow_add, ← split]
      exact bits
    have total : bytesValue (decoder.bytes ++ [byte]) * 2 ^ width + buffer.toNat % 2 ^ width =
        value 64 (read ++ [sextet.toNat]) := by
      calc
        _ = bytesValue decoder.bytes * 2 ^ (width + 8) +
            (buffer.toNat % 2 ^ width + 2 ^ width * byte.toNat) := by
          rw [bytesValue_append_singleton]
          ring
        _ = bytesValue decoder.bytes * 2 ^ (decoder.bits + 6) +
            (decoder.buffer.toNat % 2 ^ decoder.bits * 64 + sextet.toNat) := by
          rw [joined, split]
        _ = value 64 read * 64 + sextet.toNat := by
          rw [← spells]
          ring
        _ = _ := (value_append_singleton read sextet.toNat).symm
    rw [if_pos whole, widths, tried]
    refine ⟨_, rfl, ?_, ?_, total⟩
    · change width < 8
      omega
    · simp only [List.length_append, List.length_singleton]
      omega
  · rw [if_neg whole]
    refine ⟨_, rfl, ?_, ?_, ?_⟩
    · change decoder.bits + 6 < 8
      omega
    · simp only [List.length_append, List.length_singleton]
      omega
    · simp only [bits, value_append_singleton, ← spells]
      ring

theorem holds_new : Decoder.new.Holds [] := ⟨by decide, rfl, rfl⟩

theorem Decoder.Holds.foldlM {decoder : Decoder} {read : List Nat} (holds : decoder.Holds read)
    {sextets : List Nat} {characters : List UInt8}
    (stand : List.Forall₂ (fun sextet character => sextet < 64 ∧
      sextetOf character = some (UInt8.ofNat sextet)) sextets characters) :
    ∃ final, characters.foldlM Decoder.push decoder = some final ∧ final.Holds (read ++ sextets) := by
  induction stand generalizing decoder read with
  | nil =>
    rw [List.append_nil]
    exact ⟨decoder, rfl, holds⟩
  | @cons sextet character sextets characters first _ ih =>
    obtain ⟨low, stands⟩ := first
    have number : (UInt8.ofNat sextet).toNat = sextet := by
      rw [UInt8.toNat_ofNat']
      omega
    obtain ⟨next, pushed, held⟩ := holds.push stands (by omega)
    obtain ⟨final, run, last⟩ := ih held
    rw [number, List.append_assoc] at last
    rw [List.foldlM_cons, pushed]
    exact ⟨final, run, last⟩

/-- A decoder that has read the sextets of a byte string holds the byte string. -/
theorem Decoder.Holds.bytes_eq {decoder : Decoder} {bytes : List UInt8}
    (holds : decoder.Holds (sextets bytes)) : decoder.bytes = bytes := by
  obtain ⟨spare, few, lengths, same⟩ := value_sextets bytes
  have widths := holds.length
  have room := holds.few
  have bits : decoder.bits = spare := by omega
  have spells := holds.spells
  rw [bits, same] at spells
  have low := Nat.mod_lt decoder.buffer.toNat (Nat.two_pow_pos spare)
  apply bytesValue_injective (by omega)
  -- The bits after the bytes are fewer than would make another of either.
  have left := congrArg (· / 2 ^ spare) spells
  simp only [Nat.mul_div_cancel _ (Nat.two_pow_pos spare)] at left
  rw [Nat.mul_comm, Nat.mul_add_div (Nat.two_pow_pos spare), Nat.div_eq_of_lt low,
    Nat.add_zero] at left
  exact left

theorem sextetOf_symbol (alphabet : Alphabet) : ∀ sextet < 64,
    (alphabet.symbol sextet).toNat < 128 ∧ alphabet.symbol sextet ≠ '=' ∧
      sextetOf (UInt8.ofNat (alphabet.symbol sextet).toNat) = some (UInt8.ofNat sextet) := by
  cases alphabet <;> decide +kernel

/-- Whatever is encoded, in either alphabet and with or without its padding, is decoded to itself. -/
theorem base64Url_inverts_base64 (alphabet : Alphabet) (padded : Bool) (bytes : List UInt8) :
    base64Url (encode alphabet padded bytes) = some bytes := by
  have known : ∀ symbol ∈ (sextets bytes).map alphabet.symbol, symbol.toNat < 128 ∧ symbol ≠ '=' := by
    intro symbol member
    obtain ⟨sextet, here, same⟩ := List.mem_map.mp member
    obtain ⟨ascii, apart, _⟩ := sextetOf_symbol alphabet sextet (sextet_lt sextet here)
    rw [← same]
    exact ⟨ascii, apart⟩
  have trimmed : shortened '=' (encode alphabet padded bytes).toList =
      (sextets bytes).map alphabet.symbol := by
    unfold encode
    rw [String.toList_ofList]
    exact shortened_of_padded (fun symbol here => (known symbol here).2) _
  have characters : utf8 (String.ofList ((sextets bytes).map alphabet.symbol)) =
      (sextets bytes).map fun sextet => UInt8.ofNat (alphabet.symbol sextet).toNat := by
    rw [utf8_of_ascii, String.toList_ofList, List.map_map]
    · rfl
    · rw [String.toList_ofList]
      exact fun symbol here => (known symbol here).1
  have stand : List.Forall₂ (fun sextet character => sextet < 64 ∧
      sextetOf character = some (UInt8.ofNat sextet)) (sextets bytes)
      ((sextets bytes).map fun sextet => UInt8.ofNat (alphabet.symbol sextet).toNat) := by
    rw [List.forall₂_map_right_iff, List.forall₂_same]
    intro sextet here
    have low := sextet_lt sextet here
    exact ⟨low, (sextetOf_symbol alphabet sextet low).2.2⟩
  obtain ⟨final, run, held⟩ := holds_new.foldlM stand
  unfold base64Url
  simp only [trimmed, characters, run, Option.map_some]
  rw [held.bytes_eq]

/-- The bytes `0xff 0xfb 0xff 0xbf`, whose text has both symbols the alphabets differ in. -/
example : encode .urlSafe false [255, 251, 255, 191] = "__v_vw" ∧
    encode .standard true [255, 251, 255, 191] = "//v/vw==" := by decide

end MeteredUsage.Quota.Base64Url

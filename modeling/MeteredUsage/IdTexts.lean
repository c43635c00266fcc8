import Mathlib.Data.List.GetD
import Mathlib.Data.String.Basic
import MeteredUsage.Library.Numerals
import MeteredUsage.Library.Outcome
import MeteredUsage.Library.Utf8
import MeteredUsage.Values

/-! Ids as the texts the API and its urls carry. A text is read back only when it is the one its id
is written as, and the texts sort as the ids do. -/

namespace MeteredUsage.IdTexts
open MeteredUsage.Values MeteredUsage.Library.Numerals MeteredUsage.Library.Outcome
open MeteredUsage.Library.Utf8

structure Id where
  value : Int64
deriving DecidableEq, Repr

inductive DecodeError where
  | length (bytes : Nat)
  | character (character : Char)
  | overflow
deriving DecidableEq, Repr

/-- `Id::encode`, of the same 64 bits without a sign. -/
def Id.encode (id : Id) : String := Values.encode id.value.toUInt64.toNat

/-- `u64::checked_mul` -/
def checkedMul (first second : UInt64) : Option UInt64 :=
  if first.toNat * second.toNat < 2 ^ 64 then some (first * second) else none

/-- `u64::checked_add` -/
def checkedAdd (first second : UInt64) : Option UInt64 :=
  if first.toNat + second.toNat < 2 ^ 64 then some (first + second) else none

/-- One character more of the text of an id. -/
def readDigit (value : UInt64) (character : Char) : Except DecodeError UInt64 :=
  match alphabet.idxOf? character with
  | none => .error (.character character)
  | some digit =>
    match (checkedMul value 62).bind fun shifted => checkedAdd shifted (.ofNat digit) with
    | none => .error .overflow
    | some next => .ok next

/-- `Id::from_str` -/
def Id.fromStr (text : String) : Except DecodeError Id :=
  if (utf8 text).length ≠ 11 then
    .error (.length (utf8 text).length)
  else do
    let value ← text.toList.foldlM readDigit 0
    if value > Int64.maxValue.toUInt64 then .error .overflow else .ok ⟨value.toInt64⟩

theorem alphabet_length : alphabet.length = 62 := by decide

theorem alphabet_several : 1 < alphabet.length := by
  rw [alphabet_length]
  decide

theorem alphabet_ascending : alphabet.Pairwise (· < ·) :=
  List.isChain_iff_pairwise.mp (by decide)

theorem alphabet_ascii : ∀ character ∈ alphabet, character.toNat < 128 := by
  have small : alphabet.all (fun character => decide (character.toNat < 128)) = true := by decide
  exact fun character listed => of_decide_eq_true (List.all_eq_true.mp small character listed)

theorem length_digits (width value : Nat) : (digits width value).length = width := by
  induction width generalizing value with
  | zero => rfl
  | succ width ih => rw [digits, List.length_cons, ih]

theorem getD_alphabet (value : Nat) :
    alphabet.getD (value % 62) '0' ∈ alphabet ∧
      alphabet.idxOf (alphabet.getD (value % 62) '0') = value % 62 := by
  have low : value % 62 < alphabet.length := by
    rw [alphabet_length]
    omega
  rw [List.getD_eq_getElem _ _ low]
  have once : alphabet.Nodup := alphabet_ascending.imp ne_of_lt
  exact ⟨List.getElem_mem low, once.idxOf_getElem _ low⟩

theorem digits_subset (width value : Nat) : digits width value ⊆ alphabet := by
  induction width generalizing value with
  | zero => exact List.nil_subset _
  | succ width ih => exact List.cons_subset.mpr ⟨(getD_alphabet value).1, ih (value / 62)⟩

/-- The digits of a value spell it where it has no more of them. -/
theorem number_digits {width value : Nat} (fits : value < 62 ^ width) :
    number alphabet (digits width value).reverse = value := by
  induction width generalizing value with
  | zero =>
    rw [Nat.pow_zero] at fits
    have zero : value = 0 := by omega
    rw [zero]
    rfl
  | succ width ih =>
    have rest : value / 62 < 62 ^ width := by
      rw [Nat.div_lt_iff_lt_mul (by decide), ← Nat.pow_succ]
      exact fits
    rw [digits, List.reverse_cons, number_append_singleton, ih rest, (getD_alphabet value).2,
      alphabet_length]
    omega

theorem readDigit_ok_iff {value next : UInt64} {character : Char} :
    readDigit value character = .ok next ↔
      character ∈ alphabet ∧ value.toNat * 62 + alphabet.idxOf character = next.toNat := by
  unfold readDigit
  by_cases listed : character ∈ alphabet
  · have position : alphabet.idxOf? character = some (alphabet.idxOf character) :=
      List.findIdx?_eq_some_of_exists ⟨character, listed, beq_self_eq_true character⟩
    have low : alphabet.idxOf character < 62 := by
      rw [← alphabet_length]
      exact List.idxOf_lt_length_iff.mpr listed
    have digit : (UInt64.ofNat (alphabet.idxOf character)).toNat = alphabet.idxOf character := by
      rw [UInt64.toNat_ofNat']
      omega
    have factor : (62 : UInt64).toNat = 62 := rfl
    have bound := next.toNat_lt
    simp only [position, checkedMul, checkedAdd, factor, digit, listed, true_and]
    by_cases room : value.toNat * 62 < 2 ^ 64
    · have shifted : (value * 62).toNat = value.toNat * 62 := by
        rw [UInt64.toNat_mul, factor, Nat.mod_eq_of_lt room]
      rw [if_pos room, Option.bind_some, shifted]
      by_cases fits : value.toNat * 62 + alphabet.idxOf character < 2 ^ 64
      · have sum : (value * 62 + UInt64.ofNat (alphabet.idxOf character)).toNat =
            value.toNat * 62 + alphabet.idxOf character := by
          rw [UInt64.toNat_add, shifted, digit, Nat.mod_eq_of_lt fits]
        rw [if_pos fits, ← sum, UInt64.toNat_inj]
        exact Except.ok.injEq _ _ |>.to_iff
      · rw [if_neg fits]
        exact iff_of_false (fun same => nomatch same) (by omega)
    · rw [if_neg room, Option.bind_none]
      exact iff_of_false (fun same => nomatch same) (by omega)
  · have position : alphabet.idxOf? character = none := List.idxOf?_eq_none_iff.mpr listed
    rw [position]
    exact iff_of_false (fun same => nomatch same) fun both => listed both.1

theorem foldlM_readDigit_ok_iff {letters : List Char} {value final : UInt64} :
    letters.foldlM readDigit value = .ok final ↔ letters ⊆ alphabet ∧
      value.toNat * 62 ^ letters.length + number alphabet letters = final.toNat := by
  induction letters generalizing value with
  | nil =>
    rw [List.foldlM_nil, pure_ok, number_nil, List.length_nil, Nat.pow_zero, Nat.mul_one,
      Nat.add_zero, UInt64.toNat_inj]
    exact (and_iff_right (List.nil_subset _)).symm
  | cons letter letters ih =>
    rw [List.foldlM_cons, bind_ok, List.cons_subset, number_cons, alphabet_length, List.length_cons,
      and_assoc]
    have weights (leading digit : Nat) : leading * 62 ^ (letters.length + 1) +
        (digit * 62 ^ letters.length + number alphabet letters) =
        (leading * 62 + digit) * 62 ^ letters.length + number alphabet letters := by
      ring
    rw [weights]
    constructor
    · intro reads
      obtain ⟨next, first, later⟩ := reads
      obtain ⟨listed, value⟩ := readDigit_ok_iff.mp first
      rw [value]
      exact ⟨listed, ih.mp later⟩
    · intro spells
      obtain ⟨listed, rest, total⟩ := spells
      -- What is read so far is no more than the whole, which fits.
      have bound := final.toNat_lt
      have part : value.toNat * 62 + alphabet.idxOf letter ≤
          (value.toNat * 62 + alphabet.idxOf letter) * 62 ^ letters.length :=
        Nat.le_mul_of_pos_right _ (Nat.pow_pos (by decide))
      have next : (UInt64.ofNat (value.toNat * 62 + alphabet.idxOf letter)).toNat =
          value.toNat * 62 + alphabet.idxOf letter := by
        rw [UInt64.toNat_ofNat']
        omega
      refine ⟨_, readDigit_ok_iff.mpr ⟨listed, next.symm⟩, ih.mpr ⟨rest, ?_⟩⟩
      rw [next]
      exact total

theorem length_utf8 {text : String} (listed : text.toList ⊆ alphabet) :
    (utf8 text).length = text.toList.length := by
  rw [utf8_of_ascii fun character here => alphabet_ascii character (listed here), List.length_map]

theorem toInt_toInt64 {value : UInt64} (fits : value.toNat < 2 ^ 63) :
    value.toInt64.toInt = value.toNat := by
  rw [← Int64.toInt_ofNat_of_lt fits, ← UInt64.toInt64_ofNat', UInt64.ofNat_toNat]

theorem toNat_toUInt64 {value : Int64} (nonneg : 0 ≤ value) :
    (value.toUInt64.toNat : Int) = value.toInt ∧ value.toUInt64.toNat < 2 ^ 63 := by
  have sign : 0 ≤ value.toInt := Int64.le_iff_toInt_le.mp nonneg
  have bound := value.toInt_lt
  rw [Int64.toNat_toUInt64_of_le nonneg]
  change (value.toInt.toNat : Int) = value.toInt ∧ value.toInt.toNat < 2 ^ 63
  omega

/-- What `Id::from_str` reads: eleven letters of the alphabet that spell a number an id can be. -/
theorem fromStr_ok_iff {text : String} {id : Id} : Id.fromStr text = .ok id ↔
    text.toList.length = 11 ∧ text.toList ⊆ alphabet ∧
      (number alphabet text.toList : Int) = id.value.toInt := by
  have start : (0 : UInt64).toNat = 0 := rfl
  have greatest : Int64.maxValue.toUInt64.toNat = 2 ^ 63 - 1 := by decide
  have value_lt := id.value.toInt_lt
  unfold Id.fromStr
  by_cases width : (utf8 text).length = 11
  · rw [if_neg (not_not_intro width), bind_ok]
    constructor
    · intro read
      obtain ⟨value, digits, read⟩ := read
      obtain ⟨listed, spells⟩ := foldlM_readDigit_ok_iff.mp digits
      rw [start, Nat.zero_mul, Nat.zero_add] at spells
      split at read
      next => cases read
      next low =>
        have fits : value.toNat < 2 ^ 63 := by
          have least := UInt64.le_iff_toNat_le.mp (UInt64.not_lt.mp low)
          omega
        cases read
        rw [toInt_toInt64 fits, spells, ← length_utf8 listed]
        exact ⟨width, listed, rfl⟩
    · intro spells
      obtain ⟨letters, listed, same⟩ := spells
      have fits : number alphabet text.toList < 2 ^ 63 := by omega
      have value : (UInt64.ofNat (number alphabet text.toList)).toNat = number alphabet text.toList := by
        rw [UInt64.toNat_ofNat']
        omega
      refine ⟨.ofNat (number alphabet text.toList), foldlM_readDigit_ok_iff.mpr ⟨listed, ?_⟩, ?_⟩
      · rw [start, value]
        omega
      · have low : ¬UInt64.ofNat (number alphabet text.toList) > Int64.maxValue.toUInt64 := by
          rw [gt_iff_lt, UInt64.lt_iff_toNat_lt, value]
          omega
        have signed : (UInt64.ofNat (number alphabet text.toList)).toInt64 = id.value := by
          rw [← Int64.toInt_inj, toInt_toInt64 (by omega), value]
          exact same
        rw [if_neg low, signed]
  · rw [if_pos width]
    refine iff_of_false (fun same => nomatch same) fun spells => width ?_
    rw [length_utf8 spells.2.1]
    exact spells.1

theorem toList_encode (value : Nat) : (Values.encode value).toList = (digits 11 value).reverse := by
  unfold Values.encode
  rw [String.toList_ofList]

/-- The text of a value: eleven letters of the alphabet, which spell it. -/
theorem encode_spells {value : Nat} (fits : value < 2 ^ 64) :
    (Values.encode value).toList.length = 11 ∧ (Values.encode value).toList ⊆ alphabet ∧
      number alphabet (Values.encode value).toList = value := by
  rw [toList_encode, List.length_reverse, length_digits]
  have wide : 2 ^ 64 < 62 ^ 11 := by decide
  exact ⟨rfl, List.reverse_subset.mpr (digits_subset 11 value), number_digits (fits.trans wide)⟩

/-- A text of eleven letters is that of the value it spells. -/
theorem eq_encode {text : String} (letters : text.toList.length = 11)
    (listed : text.toList ⊆ alphabet) (fits : number alphabet text.toList < 2 ^ 64) :
    text = Values.encode (number alphabet text.toList) := by
  obtain ⟨width, subset, spells⟩ := encode_spells fits
  apply String.toList_injective
  exact number_injective alphabet_several listed subset (letters.trans width.symm) spells.symm

theorem encode_injective {first second : Nat} (left : first < 2 ^ 64) (right : second < 2 ^ 64)
    (same : Values.encode first = Values.encode second) : first = second := by
  obtain ⟨_, _, spells⟩ := encode_spells left
  obtain ⟨_, _, otherSpells⟩ := encode_spells right
  rw [← spells, same, otherSpells]

theorem encode_lt_iff {first second : Nat} (left : first < 2 ^ 64) (right : second < 2 ^ 64) :
    Values.encode first < Values.encode second ↔ first < second := by
  obtain ⟨width, subset, spells⟩ := encode_spells left
  obtain ⟨otherWidth, otherSubset, otherSpells⟩ := encode_spells right
  have sorted := lt_iff_number_lt alphabet_several alphabet_ascending subset otherSubset
    (width.trans otherWidth.symm)
  rw [spells, otherSpells] at sorted
  rw [String.lt_iff_toList_lt]
  exact sorted

/-- What `Id::from_str` reads is the text the id is written as. -/
theorem fromStr_eq_encode {text : String} {id : Id} :
    Id.fromStr text = .ok id ↔ 0 ≤ id.value ∧ text = id.encode := by
  rw [fromStr_ok_iff]
  have value_lt := id.value.toInt_lt
  constructor
  · intro spells
    obtain ⟨letters, listed, same⟩ := spells
    have nonneg : 0 ≤ id.value := by
      rw [Int64.le_iff_toInt_le, Int64.toInt_zero]
      omega
    have unsigned := (toNat_toUInt64 nonneg).1
    have value : number alphabet text.toList = id.value.toUInt64.toNat := by omega
    refine ⟨nonneg, ?_⟩
    rw [Id.encode, ← value]
    exact eq_encode letters listed (by omega)
  · intro written
    obtain ⟨nonneg, text⟩ := written
    obtain ⟨unsigned, fits⟩ := toNat_toUInt64 nonneg
    obtain ⟨width, listed, spells⟩ := encode_spells (by omega : id.value.toUInt64.toNat < 2 ^ 64)
    rw [text, Id.encode, spells]
    exact ⟨width, listed, unsigned⟩

/-- A number an id can be, and the text it is written as. -/
theorem fromStr_encode {value : Nat} (fits : value < 2 ^ 63) :
    Id.fromStr (Values.encode value) = .ok ⟨.ofNat value⟩ := by
  obtain ⟨width, listed, spells⟩ := encode_spells (by omega : value < 2 ^ 64)
  rw [fromStr_ok_iff, spells, Int64.toInt_ofNat_of_lt fits]
  exact ⟨width, listed, rfl⟩

theorem exists_of_fromStr {text : String} {id : Id} (read : Id.fromStr text = .ok id) :
    ∃ value : Nat, value < 2 ^ 63 ∧ text = Values.encode value ∧ id = ⟨.ofNat value⟩ := by
  obtain ⟨nonneg, written⟩ := fromStr_eq_encode.mp read
  have fits := (toNat_toUInt64 nonneg).2
  have same := read
  rw [written, Id.encode, fromStr_encode fits] at same
  exact ⟨_, fits, written, (Except.ok.inj same).symm⟩

/-- Ids of zero and more are read back from their texts, which are the only ones read, and sort as
their texts do. -/
theorem ids_encode_canonically :
    (∀ id : Id, 0 ≤ id.value → Id.fromStr id.encode = .ok id) ∧
    (∀ text id, Id.fromStr text = .ok id ↔ 0 ≤ id.value ∧ text = id.encode) ∧
    (∀ text, (∃ id, Id.fromStr text = .ok id) ↔ text.toList.length = 11 ∧
      text.toList ⊆ alphabet ∧ number alphabet text.toList ≤ Int64.maxValue.toInt) ∧
    ∀ first second : Id, 0 ≤ first.value → 0 ≤ second.value →
      (first.encode < second.encode ↔ first.value < second.value) := by
  refine ⟨fun id nonneg => fromStr_eq_encode.mpr ⟨nonneg, rfl⟩,
    fun text id => fromStr_eq_encode, fun text => ?_, fun first second left right => ?_⟩
  · have greatest : Int64.maxValue.toInt = 2 ^ 63 - 1 := by decide
    simp only [fromStr_ok_iff]
    constructor
    · intro read
      obtain ⟨id, letters, listed, same⟩ := read
      have value_lt := id.value.toInt_lt
      exact ⟨letters, listed, by omega⟩
    · intro spells
      obtain ⟨letters, listed, low⟩ := spells
      refine ⟨⟨.ofNat (number alphabet text.toList)⟩, letters, listed, ?_⟩
      rw [Int64.toInt_ofNat_of_lt (by omega)]
  · obtain ⟨firstValue, firstFits⟩ := toNat_toUInt64 left
    obtain ⟨secondValue, secondFits⟩ := toNat_toUInt64 right
    rw [Id.encode, Id.encode, encode_lt_iff (by omega) (by omega), Int64.lt_iff_toInt_lt]
    omega

/-- The greatest id, and the text after its own. -/
theorem greatest_id_and_the_next :
    Id.fromStr (Id.mk Int64.maxValue).encode = .ok ⟨Int64.maxValue⟩ ∧
      (Id.mk Int64.maxValue).encode = "AzL8n0Y58m7" ∧ Id.fromStr "AzL8n0Y58m8" = .error .overflow :=
  ⟨ids_encode_canonically.1 ⟨Int64.maxValue⟩ (by decide), by decide, by decide⟩

end MeteredUsage.IdTexts

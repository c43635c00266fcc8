import Mathlib.Data.List.Basic
import MeteredUsage.Library.Numerals

/-! Base64, in its two alphabets, with and without padding. The sextets of a byte string spell the
number its bytes do, with zero bits after it where the last sextet is not filled. -/

namespace MeteredUsage.Library.Base64
open MeteredUsage.Library.Numerals

inductive Alphabet where
  | standard
  | urlSafe
deriving DecidableEq, Repr

/-- The symbol of every sextet. -/
def Alphabet.symbols : Alphabet → List Char
  | .standard => "ABCDEFGHIJKLMNOPQRSTUVWXYZabcdefghijklmnopqrstuvwxyz0123456789+/".toList
  | .urlSafe => "ABCDEFGHIJKLMNOPQRSTUVWXYZabcdefghijklmnopqrstuvwxyz0123456789-_".toList

def Alphabet.symbol (alphabet : Alphabet) (sextet : Nat) : Char := alphabet.symbols.getD sextet '='

/-- The sextets of a byte string: four for three bytes, and the rest filled up with zero bits. -/
def sextets : List UInt8 → List Nat
  | [] => []
  | [first] => [first.toNat / 4, first.toNat % 4 * 16]
  | [first, second] =>
    [first.toNat / 4, first.toNat % 4 * 16 + second.toNat / 16, second.toNat % 16 * 4]
  | first :: second :: third :: rest =>
    first.toNat / 4 :: (first.toNat % 4 * 16 + second.toNat / 16) ::
      (second.toNat % 16 * 4 + third.toNat / 64) :: third.toNat % 64 :: sextets rest

/-- How many `=` fill the last four symbols up. -/
def padding (bytes : List UInt8) : Nat := (3 - bytes.length % 3) % 3

def encode (alphabet : Alphabet) (padded : Bool) (bytes : List UInt8) : String :=
  String.ofList ((sextets bytes).map alphabet.symbol ++
    List.replicate (if padded then padding bytes else 0) '=')

/-- The number a byte string spells. -/
def bytesValue (bytes : List UInt8) : Nat := value 256 (bytes.map UInt8.toNat)

theorem bytesValue_injective {first second : List UInt8} (widths : first.length = second.length)
    (same : bytesValue first = bytesValue second) : first = second := by
  have low (bytes : List UInt8) : ∀ digit ∈ bytes.map UInt8.toNat, digit < 256 := by
    intro digit member
    obtain ⟨byte, _, value⟩ := List.mem_map.mp member
    rw [← value]
    exact byte.toNat_lt
  have lengths : (first.map UInt8.toNat).length = (second.map UInt8.toNat).length := by
    rw [List.length_map, List.length_map, widths]
  have digits := value_injective (by decide) (low first) (low second) lengths same
  exact List.map_injective_iff.mpr (fun _ _ => UInt8.toNat_inj.mp) digits

theorem sextet_lt {bytes : List UInt8} : ∀ sextet ∈ sextets bytes, sextet < 64 := by
  fun_induction sextets bytes with
  | case1 => simp
  | case2 first =>
    have firstLow := first.toNat_lt
    simp only [List.mem_cons, List.not_mem_nil, or_false]
    omega
  | case3 first second =>
    have firstLow := first.toNat_lt
    have secondLow := second.toNat_lt
    simp only [List.mem_cons, List.not_mem_nil, or_false]
    omega
  | case4 first second third rest ih =>
    have firstLow := first.toNat_lt
    have secondLow := second.toNat_lt
    have thirdLow := third.toNat_lt
    simp only [List.mem_cons]
    intro sextet member
    rcases member with here | here | here | here | later
    · omega
    · omega
    · omega
    · omega
    · exact ih sextet later

/-- The sextets hold the bits of the bytes, then fewer than six that are zero. -/
theorem value_sextets (bytes : List UInt8) : ∃ spare < 6,
    6 * (sextets bytes).length = 8 * bytes.length + spare ∧
      value 64 (sextets bytes) = bytesValue bytes * 2 ^ spare := by
  fun_induction sextets bytes with
  | case1 => exact ⟨0, by decide, rfl, rfl⟩
  | case2 first =>
    refine ⟨4, by decide, rfl, ?_⟩
    simp only [bytesValue, List.map_cons, List.map_nil, value_cons, value_nil, List.length_cons,
      List.length_nil]
    omega
  | case3 first second =>
    refine ⟨2, by decide, rfl, ?_⟩
    simp only [bytesValue, List.map_cons, List.map_nil, value_cons, value_nil, List.length_cons,
      List.length_nil]
    omega
  | case4 first second third rest ih =>
    obtain ⟨spare, few, lengths, same⟩ := ih
    refine ⟨spare, few, by simp only [List.length_cons]; omega, ?_⟩
    have weights : 64 ^ (sextets rest).length = 256 ^ rest.length * 2 ^ spare := by
      rw [show 64 = 2 ^ 6 from rfl, show 256 = 2 ^ 8 from rfl, ← Nat.pow_mul, ← Nat.pow_mul, lengths,
        Nat.pow_add]
    have group : first.toNat / 4 * 64 ^ 3 + (first.toNat % 4 * 16 + second.toNat / 16) * 64 ^ 2 +
        (second.toNat % 16 * 4 + third.toNat / 64) * 64 + third.toNat % 64 =
        first.toNat * 256 ^ 2 + second.toNat * 256 + third.toNat := by
      omega
    simp only [bytesValue, List.map_cons, value_cons, List.length_cons, List.length_map] at same ⊢
    rw [same]
    calc
      _ = (first.toNat / 4 * 64 ^ 3 + (first.toNat % 4 * 16 + second.toNat / 16) * 64 ^ 2 +
          (second.toNat % 16 * 4 + third.toNat / 64) * 64 + third.toNat % 64) *
            64 ^ (sextets rest).length + value 256 (rest.map UInt8.toNat) * 2 ^ spare := by ring
      _ = _ := by
        rw [group, weights]
        ring

end MeteredUsage.Library.Base64

import Mathlib.Data.List.Lex
import Mathlib.Data.Nat.Digits.Lemmas
import Mathlib.Order.Basic

/-! Numbers written in the symbols of an alphabet, where a symbol counts what stands before it there.
Texts of one width spell different numbers, and over an ascending alphabet they sort as them. -/

namespace MeteredUsage.Library.Numerals

section Digits

variable {base : Nat} {digits first second : List Nat}

/-- The number some digits make, the first of them counting most. -/
def value (base : Nat) (digits : List Nat) : Nat := Nat.ofDigits base digits.reverse

theorem value_nil : value base [] = 0 := rfl

theorem value_cons (digit : Nat) (digits : List Nat) :
    value base (digit :: digits) = digit * base ^ digits.length + value base digits := by
  unfold value
  rw [List.reverse_cons, Nat.ofDigits_append, List.length_reverse, Nat.ofDigits_singleton]
  ring

theorem value_append_singleton (digits : List Nat) (digit : Nat) :
    value base (digits ++ [digit]) = value base digits * base + digit := by
  unfold value
  rw [List.reverse_append, List.reverse_singleton, List.singleton_append, Nat.ofDigits_cons]
  ring

theorem value_lt (several : 1 < base) (low : ∀ digit ∈ digits, digit < base) :
    value base digits < base ^ digits.length := by
  rw [← List.length_reverse]
  exact Nat.ofDigits_lt_base_pow_length several fun digit here => low digit (List.mem_reverse.mp here)

theorem value_injective (several : 1 < base) (left : ∀ digit ∈ first, digit < base)
    (right : ∀ digit ∈ second, digit < base) (widths : first.length = second.length)
    (same : value base first = value base second) : first = second := by
  have lengths : first.reverse.length = second.reverse.length := by
    rw [List.length_reverse, List.length_reverse, widths]
  apply List.reverse_inj.mp
  exact Nat.ofDigits_inj_of_len_eq several lengths
    (fun digit here => left digit (List.mem_reverse.mp here))
    (fun digit here => right digit (List.mem_reverse.mp here)) same

end Digits

section Spelling

variable {Symbol : Type*} [DecidableEq Symbol] {alphabet text first second : List Symbol}

/-- The number a text spells. -/
def number (alphabet text : List Symbol) : Nat := value alphabet.length (text.map alphabet.idxOf)

theorem number_nil : number alphabet [] = 0 := rfl

theorem number_cons (symbol : Symbol) (text : List Symbol) :
    number alphabet (symbol :: text) =
      alphabet.idxOf symbol * alphabet.length ^ text.length + number alphabet text := by
  unfold number
  rw [List.map_cons, value_cons, List.length_map]

theorem number_append_singleton (text : List Symbol) (symbol : Symbol) :
    number alphabet (text ++ [symbol]) =
      number alphabet text * alphabet.length + alphabet.idxOf symbol := by
  unfold number
  rw [List.map_append, List.map_singleton, value_append_singleton]

theorem idxOf_lt_of_subset (spelled : text ⊆ alphabet) :
    ∀ digit ∈ text.map alphabet.idxOf, digit < alphabet.length := by
  intro digit member
  obtain ⟨symbol, here, same⟩ := List.mem_map.mp member
  rw [← same]
  exact List.idxOf_lt_length_iff.mpr (spelled here)

theorem number_lt (several : 1 < alphabet.length) (spelled : text ⊆ alphabet) :
    number alphabet text < alphabet.length ^ text.length := by
  have below := value_lt several (idxOf_lt_of_subset spelled)
  rwa [List.length_map] at below

theorem number_injective (several : 1 < alphabet.length) (left : first ⊆ alphabet)
    (right : second ⊆ alphabet) (widths : first.length = second.length)
    (same : number alphabet first = number alphabet second) : first = second := by
  have lengths : (first.map alphabet.idxOf).length = (second.map alphabet.idxOf).length := by
    rw [List.length_map, List.length_map, widths]
  have digits := value_injective several (idxOf_lt_of_subset left) (idxOf_lt_of_subset right)
    lengths same
  apply List.ext_getElem widths
  intro index here there
  have places := congrArg (·[index]?) digits
  simp only [List.getElem?_map, List.getElem?_eq_getElem here, List.getElem?_eq_getElem there] at places
  exact (List.idxOf_inj (left (List.getElem_mem here))).mp (Option.some.inj places)

end Spelling

section Sorted

variable {Symbol : Type*} [DecidableEq Symbol] [LinearOrder Symbol] {alphabet : List Symbol}

theorem idxOf_lt_iff (ascending : alphabet.Pairwise (· < ·)) {first second : Symbol}
    (left : first ∈ alphabet) (right : second ∈ alphabet) :
    alphabet.idxOf first < alphabet.idxOf second ↔ first < second := by
  have forward {first second : Symbol} (left : first ∈ alphabet) (right : second ∈ alphabet)
      (before : alphabet.idxOf first < alphabet.idxOf second) : first < second := by
    have less := List.pairwise_iff_getElem.mp ascending _ _ (List.idxOf_lt_length_iff.mpr left)
      (List.idxOf_lt_length_iff.mpr right) before
    rwa [List.getElem_idxOf, List.getElem_idxOf] at less
  constructor
  · exact forward left right
  · intro less
    by_contra notBefore
    rcases Nat.lt_or_eq_of_le (Nat.le_of_not_lt notBefore) with after | same
    · exact lt_asymm less (forward right left after)
    · exact less.ne ((List.idxOf_inj right).mp same).symm

theorem lt_iff_number_lt (several : 1 < alphabet.length) (ascending : alphabet.Pairwise (· < ·))
    {first second : List Symbol} (left : first ⊆ alphabet) (right : second ⊆ alphabet)
    (widths : first.length = second.length) :
    first < second ↔ number alphabet first < number alphabet second := by
  induction first generalizing second with
  | nil =>
    rw [List.length_eq_zero_iff.mp widths.symm]
    exact iff_of_false (lt_irrefl _) (lt_irrefl _)
  | cons head tail ih =>
    cases second with
    | nil => cases widths
    | cons next later =>
      have lengths : tail.length = later.length := Nat.succ.inj widths
      obtain ⟨headIn, tailIn⟩ := List.cons_subset.mp left
      obtain ⟨nextIn, laterIn⟩ := List.cons_subset.mp right
      have heads := idxOf_lt_iff ascending headIn nextIn
      have tails := ih tailIn laterIn lengths
      have tailLow := number_lt several tailIn
      have laterLow := number_lt several laterIn
      rw [List.cons_lt_cons_iff, tails, ← heads, number_cons, number_cons, ← lengths]
      rw [← lengths] at laterLow
      rcases Nat.lt_trichotomy (alphabet.idxOf head) (alphabet.idxOf next) with before | same | after
      · -- A greater first digit outweighs whatever the others are.
        have weight : alphabet.idxOf head * alphabet.length ^ tail.length +
            alphabet.length ^ tail.length ≤ alphabet.idxOf next * alphabet.length ^ tail.length := by
          rw [← Nat.succ_mul]
          exact Nat.mul_le_mul_right _ before
        exact iff_of_true (.inl before) (by omega)
      · have symbols : head = next := (List.idxOf_inj headIn).mp same
        rw [symbols]
        simp only [lt_irrefl, true_and, false_or]
        omega
      · have weight : alphabet.idxOf next * alphabet.length ^ tail.length +
            alphabet.length ^ tail.length ≤ alphabet.idxOf head * alphabet.length ^ tail.length := by
          rw [← Nat.succ_mul]
          exact Nat.mul_le_mul_right _ after
        have apart : head ≠ next := by
          intro symbols
          rw [symbols] at after
          exact lt_irrefl _ after
        refine iff_of_false ?_ (by omega)
        rintro (before | ⟨symbols, _⟩)
        · omega
        · exact apart symbols

end Sorted

end MeteredUsage.Library.Numerals

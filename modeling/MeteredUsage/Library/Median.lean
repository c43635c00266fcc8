import Mathlib

/-! The middle of a sorted list. Whatever fewer than half of its values are, what stands in the middle is
between the bounds that hold for the others. -/

namespace MeteredUsage.Library.Median

variable {Value : Type*} [LinearOrder Value] {sorted : List Value} {place : Nat} {value low high : Value}

/-- The values up to one that is below a bound are. -/
theorem many_below (ordered : sorted.Pairwise (· ≤ ·)) (placed : sorted[place]? = some value)
    (below : value < low) : place + 1 ≤ sorted.countP (· < low) := by
  induction sorted generalizing place with
  | nil => cases placed
  | cons first rest ih =>
    obtain ⟨least, later⟩ := List.pairwise_cons.mp ordered
    cases place with
    | zero =>
      cases placed
      rw [List.countP_cons_of_pos (by simpa using below)]
      omega
    | succ place =>
      have inside : first < low := (least value (List.mem_of_getElem? placed)).trans_lt below
      have more := ih later placed
      rw [List.countP_cons_of_pos (by simpa using inside)]
      omega

/-- The values from one that is above a bound on are. -/
theorem many_above (ordered : sorted.Pairwise (· ≤ ·)) (placed : sorted[place]? = some value)
    (above : high < value) : sorted.length ≤ sorted.countP (high < ·) + place := by
  induction sorted generalizing place with
  | nil => cases placed
  | cons first rest ih =>
    obtain ⟨least, later⟩ := List.pairwise_cons.mp ordered
    cases place with
    | zero =>
      cases placed
      have all : (value :: rest).countP (high < ·) = (value :: rest).length := by
        rw [List.countP_eq_length]
        intro other member
        rcases List.mem_cons.mp member with rfl | after
        · simpa using above
        · simpa using above.trans_le (least other after)
      omega
    | succ place =>
      have more := ih later placed
      have grown : rest.countP (high < ·) ≤ (first :: rest).countP (high < ·) :=
        (List.sublist_cons_self _ _).countP_le
      rw [List.length_cons]
      omega

/-- The values between two bounds are neither below nor above them. -/
theorem between_apart (values : List Value) (low high : Value) :
    values.countP (fun value => low ≤ value ∧ value ≤ high) + values.countP (· < low) ≤ values.length ∧
      values.countP (fun value => low ≤ value ∧ value ≤ high) + values.countP (high < ·) ≤ values.length := by
  induction values with
  | nil => simp
  | cons first rest ih =>
    simp only [List.countP_cons, List.length_cons, decide_eq_true_eq]
    by_cases within : low ≤ first ∧ first ≤ high
    · rw [if_pos within, if_neg within.1.not_gt, if_neg within.2.not_gt]
      omega
    · rw [if_neg within]
      split <;> split <;> omega

/-- What stands in the middle is between bounds that hold for more than half of the values. -/
theorem middle_between (ordered : sorted.Pairwise (· ≤ ·)) (placed : sorted[place]? = some value)
    (before : 2 * place ≤ sorted.length) (after : sorted.length ≤ 2 * place + 2)
    (most : sorted.length < 2 * sorted.countP fun value => low ≤ value ∧ value ≤ high) :
    low ≤ value ∧ value ≤ high := by
  obtain ⟨under, ended⟩ := between_apart sorted low high
  constructor
  · by_contra below
    have many := many_below ordered placed (not_le.mp below)
    omega
  · by_contra above
    have many := many_above ordered placed (not_le.mp above)
    omega

end MeteredUsage.Library.Median

import Mathlib.Algebra.Order.Floor.Div
import Mathlib.Data.List.Basic
import Mathlib.Data.List.TakeDrop
import Mathlib.Tactic.Linarith

/-! Every n-th item of a list, and how many a share of them leaves when the step is the length over
the share, rounded up. -/

namespace MeteredUsage.Library.Thinning

variable {Item : Type*}

/-- The items at the positions that `step` divides, the first being at position 0. -/
def everyNth (step : Nat) (items : List Item) : List Item :=
  (items.zipIdx.filter fun entry => entry.2 % step = 0).map Prod.fst

/-- Rounded up, a quotient grows past each multiple. -/
theorem succ_ceilDiv (start : Nat) {step : Nat} (positive : 0 < step) :
    (start + 1) ⌈/⌉ step = start ⌈/⌉ step + if start % step = 0 then 1 else 0 := by
  have parts := Nat.div_add_mod start step
  have below := Nat.mod_lt start positive
  simp only [Nat.ceilDiv_eq_add_pred_div]
  split
  next divides =>
    have left : start + 1 + step - 1 = step * (start / step + 1) := by
      rw [Nat.mul_add]
      omega
    have right : start + step - 1 = step * (start / step) + (step - 1) := by omega
    have short : (step - 1) / step = 0 := Nat.div_eq_of_lt (by omega)
    rw [left, right, Nat.mul_div_cancel_left _ positive, Nat.mul_add_div positive, short]
  next apart =>
    have left : start + 1 + step - 1 = step * (start / step + 1) + start % step := by
      rw [Nat.mul_add]
      omega
    have right : start + step - 1 = step * (start / step + 1) + (start % step - 1) := by
      rw [Nat.mul_add]
      omega
    have short : (start % step - 1) / step = 0 := Nat.div_eq_of_lt (by omega)
    rw [left, right, Nat.mul_add_div positive, Nat.mul_add_div positive, Nat.div_eq_of_lt below, short]

/-- From a position on, as many positions are multiples of a step as the rounded quotient grows. -/
theorem length_filter_zipIdx (step : Nat) (positive : 0 < step) (items : List Item) (start : Nat) :
    ((items.zipIdx start).filter fun entry => entry.2 % step = 0).length =
      (start + items.length) ⌈/⌉ step - start ⌈/⌉ step := by
  induction items generalizing start with
  | nil => simp
  | cons item rest ih =>
    have whole : start + (item :: rest).length = start + 1 + rest.length := by
      rw [List.length_cons]
      omega
    have grows : (start + 1) ⌈/⌉ step ≤ (start + 1 + rest.length) ⌈/⌉ step := by
      simp only [Nat.ceilDiv_eq_add_pred_div]
      exact Nat.div_le_div_right (by omega)
    have next := succ_ceilDiv start positive
    rw [List.zipIdx_cons, List.filter_cons, whole]
    have rest := ih (start + 1)
    split
    next divides =>
      have divides : start % step = 0 := by simpa using divides
      rw [if_pos divides] at next
      rw [List.length_cons, rest]
      omega
    next apart =>
      have apart : ¬start % step = 0 := by simpa using apart
      rw [if_neg apart] at next
      rw [rest, next]
      rfl

/-- Every n-th of a list is as many as the length over n, rounded up. -/
theorem length_everyNth (step : Nat) (positive : 0 < step) (items : List Item) :
    (everyNth step items).length = items.length ⌈/⌉ step := by
  have counted := length_filter_zipIdx step positive items 0
  rw [Nat.zero_add, zero_ceilDiv, Nat.sub_zero] at counted
  unfold everyNth
  rw [List.length_map, counted]

/-- The first item is always taken. -/
theorem mem_everyNth_cons (step : Nat) (item : Item) (rest : List Item) :
    item ∈ everyNth step (item :: rest) := by
  unfold everyNth
  rw [List.zipIdx_cons, List.filter_cons_of_pos (by simp)]
  exact List.mem_cons_self

theorem everyNth_subset (step : Nat) (items : List Item) : everyNth step items ⊆ items := by
  intro item taken
  obtain ⟨entry, kept, rfl⟩ := List.mem_map.mp taken
  exact List.fst_mem_of_mem_zipIdx (List.mem_of_mem_filter kept)

/-- The step that leaves at most a share of a length. -/
def stepOf (share length : Nat) : Nat := (length + share - 1) / share

theorem stepOf_eq (share length : Nat) : stepOf share length = length ⌈/⌉ share := rfl

/-- No more than the share is left. -/
theorem ceilDiv_stepOf_le {share length : Nat} (positive : 0 < share) :
    length ⌈/⌉ stepOf share length ≤ share := by
  rcases Nat.eq_zero_or_pos length with rfl | filled
  · simp
  · have whole : length ≤ share * (length ⌈/⌉ share) := le_smul_ceilDiv positive
    have step : 0 < length ⌈/⌉ share := by
      apply Nat.pos_of_ne_zero
      intro none_left
      rw [none_left] at whole
      omega
    rw [stepOf_eq, ceilDiv_le_iff_le_mul step, Nat.mul_comm]
    exact whole

/-- What does not exceed the share is left whole. -/
theorem stepOf_eq_one {share length : Nat} (filled : 0 < length) (fits : length ≤ share) :
    stepOf share length = 1 := by
  unfold stepOf
  rw [Nat.div_eq_iff (by omega)]
  omega

theorem stepOf_pos {share length : Nat} (positive : 0 < share) (filled : 0 < length) :
    0 < stepOf share length := by
  unfold stepOf
  exact Nat.div_pos (by omega) positive

end MeteredUsage.Library.Thinning

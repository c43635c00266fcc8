import Mathlib.Algebra.BigOperators.Group.Finset.Piecewise
import Mathlib.Algebra.BigOperators.Group.List.Basic
import Mathlib.Data.List.Dedup
import Mathlib.Data.List.ProdSigma

/-! Items in groups: a measure that adds up over the items adds up over the groups, a place in
a ranking is how many rank ahead, and a grid is cut into rows. -/

namespace MeteredUsage.Library.Groups

variable {Item Key Sum : Type*}

section Totals
variable [AddCommMonoid Sum]

theorem sum_ite_of_mem [DecidableEq Key] {keys : List Key} (once : keys.Nodup) {key : Key}
    (member : key ∈ keys) (value : Sum) :
    (keys.map fun other => if key = other then value else 0).sum = value := by
  rw [← List.sum_toFinset _ once, Finset.sum_ite_eq, if_pos (List.mem_toFinset.mpr member)]

/-- Items under distinct keys that every item has one of add up as all of them. -/
theorem sum_filter [DecidableEq Key] {keys : List Key} (once : keys.Nodup) (key : Item → Key)
    (measure : Item → Sum) {items : List Item} (known : ∀ item ∈ items, key item ∈ keys) :
    (keys.map fun name => ((items.filter (key · = name)).map measure).sum).sum =
      (items.map measure).sum := by
  induction items with
  | nil => simp
  | cons item rest ih =>
    have split (name : Key) : (((item :: rest).filter (key · = name)).map measure).sum =
        (if key item = name then measure item else 0) +
          ((rest.filter (key · = name)).map measure).sum := by
      by_cases named : key item = name
      · simp [named]
      · simp [named]
    simp only [split]
    rw [List.sum_map_add, sum_ite_of_mem once (known item List.mem_cons_self),
      ih fun other member => known other (List.mem_cons_of_mem _ member), List.map_cons,
      List.sum_cons]

theorem sum_modify {values : List Sum} {index : Nat} (inside : index < values.length) (more : Sum) :
    (values.modify index (· + more)).sum = values.sum + more := by
  induction values generalizing index with
  | nil => exact absurd inside (Nat.not_lt_zero _)
  | cons value rest ih =>
    cases index with
    | zero =>
      rw [List.modify_zero_cons, List.sum_cons, List.sum_cons]
      exact add_right_comm value more rest.sum
    | succ index =>
      rw [List.modify_succ_cons, List.sum_cons, List.sum_cons, ih (Nat.lt_of_succ_lt_succ inside),
        add_assoc]

end Totals

/-- In a list in the order of a ranking, an item is among the first where fewer rank ahead. -/
theorem mem_take_iff [DecidableEq Item] {ahead : Item → Item → Bool}
    (irrefl : ∀ item, ahead item item = false)
    (asymm : ∀ first second, ahead first second = true → ahead second first = false)
    {ranked : List Item} (sorted : ranked.Pairwise fun first second => ahead first second = true)
    {item : Item} (member : item ∈ ranked) (count : Nat) :
    item ∈ ranked.take count ↔ ranked.countP (ahead · item) < count := by
  induction ranked generalizing count with
  | nil => cases member
  | cons first rest ih =>
    have ⟨leads, later⟩ := List.pairwise_cons.mp sorted
    cases count with
    | zero => simp
    | succ count =>
      rw [List.take_succ_cons, List.mem_cons, List.countP_cons]
      rcases List.mem_cons.mp member with rfl | below
      · have none_ahead : rest.countP (ahead · item) = 0 :=
          List.countP_eq_zero.mpr fun other stored => by
            rw [asymm item other (leads other stored)]
            exact Bool.false_ne_true
        simp [none_ahead, irrefl]
      · have apart : item ≠ first := by
          rintro rfl
          exact Bool.false_ne_true ((irrefl item).symm.trans (leads item below))
        rw [ih later below, leads item below]
        simp [apart]

/-- Rows of one width, one after another, are one stretch of places. -/
theorem range_rows (width : Nat) (value : Nat → Item) (height : Nat) :
    ((List.range height).flatMap fun row => (List.range width).map fun place =>
      value (row * width + place)) = (List.range (height * width)).map value := by
  induction height with
  | zero => simp
  | succ height ih =>
    rw [List.range_succ, List.flatMap_append, ih, Nat.succ_mul, List.range_add, List.map_append,
      List.map_map, List.flatMap_singleton]
    rfl

end MeteredUsage.Library.Groups

import Mathlib.Algebra.BigOperators.Group.List.Basic
import Mathlib.Algebra.Order.BigOperators.Group.List
import Mathlib.Algebra.Order.Group.Int
import Mathlib.Data.Int.ConditionallyCompleteOrder

/-! Sums whose every step has to stay in a range. Those of some items do in every order where
the items above zero add up inside the range and so do those below it, and in no other case. -/

namespace MeteredUsage.Library.CheckedSums

variable {low limit start total : Int} {items part rest : List Int}

section
variable (low limit : Int)

def Within (value : Int) : Prop := low ≤ value ∧ value < limit

instance (value : Int) : Decidable (Within low limit value) := inferInstanceAs (Decidable (_ ∧ _))

/-- A sum that is defined only inside the range. -/
def add (first second : Int) : Option Int :=
  if Within low limit (first + second) then some (first + second) else none

/-- The items added one after another. -/
def run (start : Int) (items : List Int) : Option Int := items.foldlM (add low limit) start

end

/-- What the items above zero add up to. -/
def above (items : List Int) : Int := (items.map (max · 0)).sum

/-- What the items below zero add up to. -/
def below (items : List Int) : Int := (items.map (min · 0)).sum

theorem add_eq_some_iff {first second : Int} :
    add low limit first second = some total ↔
      Within low limit (first + second) ∧ total = first + second := by
  unfold add
  split
  case isTrue fits => simp [fits, eq_comm]
  case isFalse outside => simp [outside]

theorem run_nil : run low limit start [] = some start := rfl

theorem run_cons {item : Int} :
    run low limit start (item :: items) =
      (add low limit start item).bind fun next => run low limit next items := rfl

theorem run_append : run low limit start (part ++ rest) =
    (run low limit start part).bind fun next => run low limit next rest := by
  unfold run
  rw [List.foldlM_append]
  rfl

theorem above_cons {item : Int} : above (item :: items) = max item 0 + above items := by
  rw [above, List.map_cons, List.sum_cons, above]

theorem below_cons {item : Int} : below (item :: items) = min item 0 + below items := by
  rw [below, List.map_cons, List.sum_cons, below]

theorem above_nonneg (items : List Int) : 0 ≤ above items := by
  induction items with
  | nil => decide
  | cons item items ih =>
    rw [above_cons]
    omega

theorem below_nonpos (items : List Int) : below items ≤ 0 := by
  induction items with
  | nil => decide
  | cons item items ih =>
    rw [below_cons]
    omega

theorem above_append : above (part ++ rest) = above part + above rest := by
  simp [above]

theorem below_append : below (part ++ rest) = below part + below rest := by
  simp [below]

theorem above_perm (same : part.Perm items) : above part = above items :=
  (same.map _).sum_eq

theorem below_perm (same : part.Perm items) : below part = below items :=
  (same.map _).sum_eq

/-- The sum itself lies between the two. -/
theorem sum_between (items : List Int) : below items ≤ items.sum ∧ items.sum ≤ above items := by
  induction items with
  | nil => decide
  | cons item items ih =>
    rw [below_cons, above_cons, List.sum_cons]
    omega

theorem part_between (split : (part ++ rest).Perm items) :
    below items ≤ below part ∧ above part ≤ above items := by
  have least := below_perm split
  have most := above_perm split
  rw [below_append] at least
  rw [above_append] at most
  have := below_nonpos rest
  have := above_nonneg rest
  omega

theorem le_above {item : Int} (member : item ∈ items) : item ≤ above items := by
  have split : ([item] ++ items.erase item).Perm items := (List.perm_cons_erase member).symm
  have inside := (part_between split).2
  rw [above_cons] at inside
  have : above [] = 0 := rfl
  omega

/-- A run that is defined ends at the sum, and inside the range. -/
theorem sum_of_run (inside : Within low limit start) (defined : run low limit start items = some total) :
    total = start + items.sum ∧ Within low limit total := by
  induction items generalizing start with
  | nil =>
    have same : start = total := Option.some.inj defined
    subst same
    simp [inside]
  | cons item items ih =>
    rw [run_cons, Option.bind_eq_some_iff] at defined
    have ⟨next, step, later⟩ := defined
    have ⟨fits, next_eq⟩ := add_eq_some_iff.mp step
    subst next_eq
    have ⟨total_eq, ends⟩ := ih fits later
    exact ⟨by rw [total_eq, List.sum_cons, add_assoc], ends⟩

/-- Inside the range the order does not matter. -/
theorem run_of_between (least : low ≤ start + below items) (most : start + above items < limit) :
    run low limit start items = some (start + items.sum) := by
  induction items generalizing start with
  | nil => simp [run_nil]
  | cons item items ih =>
    rw [below_cons] at least
    rw [above_cons] at most
    have := below_nonpos items
    have := above_nonneg items
    have fits : Within low limit (start + item) := ⟨by omega, by omega⟩
    rw [run_cons, add_eq_some_iff.mpr ⟨fits, rfl⟩, Option.bind_some, ih (by omega) (by omega),
      List.sum_cons, add_assoc]

/-- What is above zero and what is below it make the sum. -/
theorem above_add_below (items : List Int) : above items + below items = items.sum := by
  induction items with
  | nil => rfl
  | cons item items ih =>
    rw [above_cons, below_cons, List.sum_cons, ← ih]
    omega

theorem above_eq_zero (each : ∀ item ∈ items, item ≤ 0) : above items = 0 := by
  induction items with
  | nil => rfl
  | cons item items ih =>
    have ⟨first, later⟩ := List.forall_mem_cons.mp each
    rw [above_cons, ih later]
    omega

theorem below_eq_zero (each : ∀ item ∈ items, 0 ≤ item) : below items = 0 := by
  induction items with
  | nil => rfl
  | cons item items ih =>
    have ⟨first, later⟩ := List.forall_mem_cons.mp each
    rw [below_cons, ih later]
    omega

theorem sum_filter_nonneg (items : List Int) : (items.filter (0 ≤ ·)).sum = above items := by
  induction items with
  | nil => rfl
  | cons item items ih =>
    rw [List.filter_cons, above_cons, ← ih]
    split
    case isTrue up =>
      have : 0 ≤ item := of_decide_eq_true up
      rw [List.sum_cons]
      omega
    case isFalse down =>
      have : ¬ 0 ≤ item := fun up => down (decide_eq_true up)
      omega

theorem sum_filter_neg (items : List Int) : (items.filter fun item => !decide (0 ≤ item)).sum = below items := by
  induction items with
  | nil => rfl
  | cons item items ih =>
    rw [List.filter_cons, below_cons, ← ih]
    split
    case isTrue down =>
      have : ¬ 0 ≤ item := by simpa using down
      rw [List.sum_cons]
      omega
    case isFalse up =>
      have : 0 ≤ item := by simpa using up
      omega

section
variable {rows : List Item} {measure : Item → Int}

/-- Where every order's run is defined, the ones that take the items of one sign first bound them. -/
theorem between_of_runs (zero : Within low limit 0)
    (defined : ∀ order : List Item, order.Perm rows → run low limit 0 (order.map measure) ≠ none) :
    low ≤ below (rows.map measure) ∧ above (rows.map measure) < limit := by
  have first (part rest : List Item) (order : (part ++ rest).Perm rows) :
      Within low limit (part.map measure).sum := by
    have ends := defined _ order
    rw [List.map_append, run_append] at ends
    cases reached : run low limit 0 (part.map measure) with
    | none => simp [reached] at ends
    | some total =>
      have ⟨total_eq, inside⟩ := sum_of_run zero reached
      rwa [total_eq, zero_add] at inside
  have split := List.filter_append_perm (fun row : Item => decide (0 ≤ measure row)) rows
  constructor
  · rw [← sum_filter_neg, List.filter_map]
    exact (first _ _ (List.perm_append_comm.trans split)).1
  · rw [← sum_filter_nonneg, List.filter_map]
    exact (first _ _ split).2

/-- Every order of some items adds up without leaving the range exactly where those above zero and
those below it do. -/
theorem runs_iff (zero : Within low limit 0) :
    (∀ order : List Item, order.Perm rows →
      run low limit 0 (order.map measure) = some (rows.map measure).sum) ↔
      low ≤ below (rows.map measure) ∧ above (rows.map measure) < limit := by
  constructor
  · intro each
    apply between_of_runs zero
    intro order same
    rw [each order same]
    exact Option.some_ne_none _
  · intro ⟨least, most⟩ order same
    rw [← below_perm (same.map measure)] at least
    rw [← above_perm (same.map measure)] at most
    rw [run_of_between (by omega) (by omega), zero_add, (same.map measure).sum_eq]

/-- A row that is added first leaves an order of the others. -/
theorem exists_run_cons {row : Item} {others : List Item} (split : rows.Perm (row :: others))
    (fits : Within low limit (start + measure row))
    (later : ∃ order : List Item, order.Perm others ∧
      run low limit (start + measure row) (order.map measure) =
        some (start + measure row + (others.map measure).sum)) :
    ∃ order : List Item, order.Perm rows ∧
      run low limit start (order.map measure) = some (start + (rows.map measure).sum) := by
  have ⟨order, same, ran⟩ := later
  refine ⟨row :: order, (same.cons row).trans split.symm, ?_⟩
  rw [List.map_cons, run_cons, add_eq_some_iff.mpr ⟨fits, rfl⟩, Option.bind_some, ran,
    (split.map measure).sum_eq, List.map_cons, List.sum_cons, add_assoc]

/-- Items of the range whose sum is in it are added in some order without leaving it: while the sum
so far is below zero one that is not goes next, and otherwise one that is. -/
theorem exists_run (least : low ≤ 0) (inside : Within low limit start)
    (each : ∀ row ∈ rows, Within low limit (measure row))
    (fits : Within low limit (start + (rows.map measure).sum)) :
    ∃ order : List Item, order.Perm rows ∧
      run low limit start (order.map measure) = some (start + (rows.map measure).sum) := by
  induction count : rows.length generalizing rows start with
  | zero =>
    rw [List.length_eq_zero_iff.mp count]
    exact ⟨[], .rfl, by simp [run_nil]⟩
  | succ rest ih =>
    have next {row : Item} (member : row ∈ rows) (stays : Within low limit (start + measure row)) :
        ∃ order : List Item, order.Perm rows ∧
          run low limit start (order.map measure) = some (start + (rows.map measure).sum) := by
      obtain ⟨before, after, split⟩ := List.append_of_mem member
      have first : rows.Perm (row :: (before ++ after)) := split ▸ List.perm_middle
      have total := (first.map measure).sum_eq
      rw [List.map_cons, List.sum_cons] at total
      apply exists_run_cons first stays
      apply ih stays (fun other held => each other (first.mem_iff.mpr (List.mem_cons_of_mem row held)))
      · rw [add_assoc, ← total]
        exact fits
      · have := first.length_eq
        rw [List.length_cons] at this
        omega
    by_cases up : 0 ≤ start
    · by_cases some_below : ∃ row ∈ rows, measure row < 0
      · obtain ⟨row, member, down⟩ := some_below
        have := (each row member).1
        have := inside.2
        exact next member ⟨by omega, by omega⟩
      · have none_below : below (rows.map measure) = 0 := below_eq_zero (by simpa using some_below)
        have total := above_add_below (rows.map measure)
        refine ⟨rows, .rfl, run_of_between (by omega) ?_⟩
        have := fits.2
        omega
    · by_cases some_above : ∃ row ∈ rows, 0 ≤ measure row
      · obtain ⟨row, member, positive⟩ := some_above
        have := (each row member).2
        have := inside.1
        exact next member ⟨by omega, by omega⟩
      · have none_above : above (rows.map measure) = 0 := by
          apply above_eq_zero
          intro item member
          obtain ⟨row, held, rfl⟩ := List.mem_map.mp member
          by_contra positive
          exact some_above ⟨row, held, by omega⟩
        have total := above_add_below (rows.map measure)
        refine ⟨rows, .rfl, run_of_between ?_ (by have := inside.2; omega)⟩
        have := fits.1
        omega

/-- Numbers that are each at most another and add up to as much are those others. -/
theorem eq_of_sum_eq {other : Item → Int} (each : ∀ row ∈ rows, measure row ≤ other row)
    (same : (rows.map measure).sum = (rows.map other).sum) : ∀ row ∈ rows, measure row = other row := by
  induction rows with
  | nil => exact fun row member => absurd member List.not_mem_nil
  | cons first rest ih =>
    have ⟨least, later⟩ := List.forall_mem_cons.mp each
    have most : (rest.map measure).sum ≤ (rest.map other).sum := List.sum_le_sum later
    rw [List.map_cons, List.map_cons, List.sum_cons, List.sum_cons] at same
    exact List.forall_mem_cons.mpr ⟨by omega, ih later (by omega)⟩

end

end MeteredUsage.Library.CheckedSums

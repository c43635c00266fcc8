import MeteredUsage.Analytics.Totals
import MeteredUsage.Library.CheckedSums
import MeteredUsage.Store.Thresholds

/-! The integer sums of the measures as SQLite takes them, one row after another, and the addition
of one group's measures to another's. Which rows come first is SQLite's choice. -/

namespace MeteredUsage.Analytics.RunningSums
open MeteredUsage.Values MeteredUsage.Store.Schema
open MeteredUsage.Store.Thresholds (nearestEven)
open MeteredUsage.Analytics.Metrics MeteredUsage.Library.CheckedSums

/-- A number as SQL holds it. The REALs that come up here are whole. -/
inductive Cell where
  | integer (value : Int)
  | real (value : Int)
deriving DecidableEq, Repr

/-- The distance between two REALs as far from zero as a whole number, from 1 on. -/
def spacing (value : Int) : Nat := 2 ^ (value.natAbs.log2 - 52)

/-- The REAL nearest a whole number. -/
def nearestReal (value : Int) : Int := nearestEven (value / spacing value) * spacing value

namespace Cell

def value : Cell → Int
  | .integer value => value
  | .real value => value

def asReal : Cell → Int
  | .integer value => nearestReal value
  | .real value => value

/-- `-`, which is done in REALs where the difference of two integers is past 64 bits. -/
def minus : Cell → Cell → Cell
  | .integer first, .integer second =>
    if Fits (first - second) then .integer (first - second)
    else .real (nearestReal (nearestReal first - nearestReal second))
  | first, second => .real (nearestReal (first.asReal - second.asReal))

/-- `MAX` of two numbers, the first where they are equal. -/
def larger (first second : Cell) : Cell := if first.value < second.value then second else first

end Cell

/-- The input tokens that neither hit nor filled a cache, as SQLite computes them. -/
def uncachedCell (event : UsageEvent) : Cell :=
  (((Cell.integer event.inputTokens).minus (.integer event.cacheReadTokens)).minus
    (.integer event.cacheWriteTokens)).larger (.integer 0)

/-- What a `SUM` has come to: a whole number, or an approximate one, past an overflow or not. -/
inductive Running where
  | whole (sum : Int)
  | approximate (overflow : Bool)
deriving DecidableEq, Repr

def Running.step : Running → Cell → Running
  | .whole sum, .integer value =>
    if Fits (sum + value) then .whole (sum + value) else .approximate true
  | .approximate overflow, .integer _ => .approximate overflow
  -- A REAL makes the answer a REAL, and an overflow before it is forgotten.
  | _, .real _ => .approximate false

/-- What a query answers for a `SUM`. An overflow fails the query. -/
inductive Answer where
  | null
  | integer (sum : Int)
  | real
  | overflow
deriving DecidableEq, Repr

def Running.answer : Running → Answer
  | .whole sum => .integer sum
  | .approximate true => .overflow
  | .approximate false => .real

/-- `SUM`. -/
def sumCells (cells : List Cell) : Answer :=
  if cells = [] then .null else (cells.foldl Running.step (.whole 0)).answer

/-- `COALESCE` with 0. -/
def Answer.orZero : Answer → Answer
  | .null => .integer 0
  | answer => answer

/-- An answer decoded as an `i64`. -/
def Answer.decode : Answer → Option Int
  | .integer sum => some sum
  | _ => none

def readSum (column : Joined → Cell) (rows : List Joined) : Option Int :=
  (sumCells (rows.map column)).decode

/-- The measures of one group as a query reads them, its rows in the order they are visited. -/
def queried (rows : List Joined) : Option UsageMetrics := do
  let failures ← readSum (fun row => .integer (if row.event.failed then 1 else 0)) rows
  let inputTokens ← readSum (fun row => .integer row.event.inputTokens) rows
  let uncachedInputTokens ← readSum (uncachedCell ·.event) rows
  let cacheReadTokens ← readSum (fun row => .integer row.event.cacheReadTokens) rows
  let cacheWriteTokens ← readSum (fun row => .integer row.event.cacheWriteTokens) rows
  let outputTokens ← readSum (fun row => .integer row.event.outputTokens) rows
  let reasoningTokens ← readSum (fun row => .integer row.event.reasoningTokens) rows
  let unclassifiedTokens ← readSum (fun row => .integer row.event.unclassifiedTokens) rows
  let totalTokens ← readSum (fun row => .integer row.event.totalTokens) rows
  return { metrics rows with
    failures
    inputTokens
    uncachedInputTokens
    cacheReadTokens
    cacheWriteTokens
    outputTokens
    reasoningTokens
    unclassifiedTokens
    totalTokens }

/-- The measures that are `i64`s. -/
def integers (measures : UsageMetrics) : List Int :=
  [measures.requests, measures.failures, measures.inputTokens, measures.uncachedInputTokens,
    measures.cacheReadTokens, measures.cacheWriteTokens, measures.outputTokens, measures.reasoningTokens,
    measures.unclassifiedTokens, measures.totalTokens, measures.unpricedRequests,
    measures.unbilledRequests]

/-- `AddAssign`, where none of its additions overflows. -/
def addAssign (left other : UsageMetrics) : Option UsageMetrics :=
  if ∀ measure ∈ integers (left + other), Fits measure then some (left + other) else none

/-- The groups of a query, each with its rows in the order they are visited, added to a total. -/
def merged (groups : List (List Joined)) : Option UsageMetrics :=
  groups.foldlM (fun total group => (queried group).bind (addAssign total)) 0

/-- The total tokens of the leverage query, its rows in the order they are visited. -/
def leverageTokens (events : List UsageEvent) : Option Int :=
  (sumCells (events.map fun event => .integer event.totalTokens)).orZero.decode

/-- The integer measures of some rows are read exactly, in whichever order and groups they are
queried and merged, and so are the tokens of the leverage query. -/
structure SumsExact (rows : List Joined) : Prop where
  measures : ∀ groups : List (List Joined), (∀ group ∈ groups, group ≠ []) →
    groups.flatten.Perm rows → (merged groups).map integers = some (integers (metrics rows))
  tokens : ∀ order : List Joined, order.Perm rows →
    leverageTokens (order.map (·.event)) = some (sum (·.event.totalTokens) rows)

/-- The columns of tokens that are summed. -/
def tokenColumns : List (Joined → Int) :=
  [(·.event.inputTokens), (uncached ·.event), (·.event.cacheReadTokens), (·.event.cacheWriteTokens),
    (·.event.outputTokens), (·.event.reasoningTokens), (·.event.unclassifiedTokens),
    (·.event.totalTokens)]

/-- The input less the cache reads fits 64 bits, or is below them and, in REALs, still below zero
without the cache writes. -/
def StaysWhole (event : UsageEvent) : Prop :=
  Fits (event.inputTokens - event.cacheReadTokens) ∨
    event.inputTokens < event.cacheReadTokens ∧
      nearestReal (nearestReal event.inputTokens - nearestReal event.cacheReadTokens) <
        nearestReal event.cacheWriteTokens

instance (event : UsageEvent) : Decidable (StaysWhole event) := inferInstanceAs (Decidable (_ ∨ _))

/-- In each column what is above zero adds up inside 64 bits, and so does what is below. -/
structure Bounded (rows : List Joined) : Prop where
  few : rows.length < 2 ^ 63
  between : ∀ column ∈ tokenColumns,
    -2 ^ 63 ≤ below (rows.map column) ∧ above (rows.map column) < 2 ^ 63
  whole : ∀ row ∈ rows, StaysWhole row.event

instance (rows : List Joined) : Decidable (Bounded rows) :=
  decidable_of_iff (rows.length < 2 ^ 63 ∧
      (∀ column ∈ tokenColumns, -2 ^ 63 ≤ below (rows.map column) ∧ above (rows.map column) < 2 ^ 63) ∧
      ∀ row ∈ rows, StaysWhole row.event)
    ⟨fun ⟨few, between, whole⟩ => ⟨few, between, whole⟩,
      fun ⟨few, between, whole⟩ => ⟨few, between, whole⟩⟩

section Sums
variable {cells : List Cell} {values : List Int} {start total : Int}

theorem foldl_approximate (cells : List Cell) (overflow : Bool) :
    ∃ after, cells.foldl Running.step (.approximate overflow) = .approximate after := by
  induction cells generalizing overflow with
  | nil => exact ⟨overflow, rfl⟩
  | cons cell cells ih =>
    cases cell with
    | integer value => exact ih overflow
    | real value => exact ih false

/-- A sum stays whole as long as it and every number in it are integers of 64 bits. -/
theorem foldl_whole_iff : cells.foldl Running.step (.whole start) = .whole total ↔
    ∃ values : List Int, cells = values.map Cell.integer ∧
      run (-2 ^ 63) (2 ^ 63) start values = some total := by
  induction cells generalizing start with
  | nil =>
    constructor
    · intro same
      cases same
      exact ⟨[], rfl, rfl⟩
    · intro ⟨values, same, summed⟩
      cases List.map_eq_nil_iff.mp same.symm
      cases summed
      rfl
  | cons cell cells ih =>
    cases cell with
    | real value =>
      have ⟨after, approximate⟩ := foldl_approximate cells false
      constructor
      · intro same
        cases approximate.symm.trans same
      · intro ⟨values, same, _⟩
        cases values <;> cases same
    | integer value =>
      by_cases fits : Fits (start + value)
      · have stepped : Running.step (.whole start) (.integer value) = .whole (start + value) := if_pos fits
        have added : add (-2 ^ 63) (2 ^ 63) start value = some (start + value) := if_pos fits
        rw [List.foldl_cons, stepped, ih]
        constructor
        · intro ⟨values, same, summed⟩
          refine ⟨value :: values, by rw [same, List.map_cons], ?_⟩
          rw [run_cons, added]
          exact summed
        · intro ⟨values, same, summed⟩
          obtain ⟨first, rest, rfl, first_eq, rest_eq⟩ := List.map_eq_cons_iff.mp same.symm
          cases first_eq
          rw [run_cons, added] at summed
          exact ⟨rest, rest_eq.symm, summed⟩
      · have stepped : Running.step (.whole start) (.integer value) = .approximate true := if_neg fits
        have added : add (-2 ^ 63) (2 ^ 63) start value = none := if_neg fits
        have ⟨after, approximate⟩ := foldl_approximate cells true
        rw [List.foldl_cons, stepped]
        constructor
        · intro same
          cases approximate.symm.trans same
        · intro ⟨values, same, summed⟩
          obtain ⟨first, rest, rfl, first_eq, rest_eq⟩ := List.map_eq_cons_iff.mp same.symm
          cases first_eq
          rw [run_cons, added] at summed
          cases summed

theorem decode_answer_iff {running : Running} : running.answer.decode = some total ↔ running = .whole total := by
  cases running with
  | whole sum => simp [Running.answer, Answer.decode]
  | approximate overflow => cases overflow <;> simp [Running.answer, Answer.decode]

/-- A `SUM` decodes where it is of integers and stays inside 64 bits. -/
theorem decode_sumCells_iff : (sumCells cells).decode = some total ↔
    cells ≠ [] ∧ ∃ values : List Int, cells = values.map Cell.integer ∧
      run (-2 ^ 63) (2 ^ 63) 0 values = some total := by
  unfold sumCells
  split
  case isTrue empty => simp [empty, Answer.decode]
  case isFalse filled => rw [decode_answer_iff, foldl_whole_iff, and_iff_right filled]

theorem decode_sumCells_integers : (sumCells (values.map Cell.integer)).decode = some total ↔
    values ≠ [] ∧ run (-2 ^ 63) (2 ^ 63) 0 values = some total := by
  have injective : Function.Injective Cell.integer := fun first second same => Cell.integer.inj same
  rw [decode_sumCells_iff, ne_eq, List.map_eq_nil_iff]
  constructor
  · intro ⟨filled, other, same, summed⟩
    rw [List.map_injective_iff.mpr injective same] at filled ⊢
    exact ⟨filled, summed⟩
  · intro ⟨filled, summed⟩
    exact ⟨filled, values, rfl, summed⟩

end Sums

section Uncached
variable {event : UsageEvent}

theorem nearestEven_between (number : ℚ) :
    number.floor ≤ nearestEven number ∧ nearestEven number ≤ number.floor + 1 := by
  unfold nearestEven
  dsimp only
  split
  case isTrue => omega
  case isFalse =>
    split
    case isTrue => omega
    case isFalse => omega

/-- A whole number that is no REAL itself is many times as far from zero as REALs there are apart. -/
theorem spacing_le {value : Int} (far : spacing value ≠ 1) : 2 * spacing value ≤ value.natAbs := by
  unfold spacing at far ⊢
  have big : 53 ≤ value.natAbs.log2 := by
    by_contra small
    exact far (by rw [Nat.sub_eq_zero_of_le (by omega), pow_zero])
  have nonzero : value.natAbs ≠ 0 := by
    intro zero
    rw [zero] at big
    exact absurd big (by decide)
  calc 2 * 2 ^ (value.natAbs.log2 - 52) = 2 ^ (value.natAbs.log2 - 52 + 1) := by rw [pow_succ, mul_comm]
    _ ≤ 2 ^ value.natAbs.log2 := Nat.pow_le_pow_right (by decide) (by omega)
    _ ≤ value.natAbs := Nat.log2_self_le nonzero

/-- Rounding to a REAL keeps what is below zero there, and keeps the rest out. -/
theorem nearestReal_neg_iff (value : Int) : nearestReal value < 0 ↔ value < 0 := by
  have positive : 0 < spacing value := Nat.two_pow_pos _
  have ⟨least, most⟩ := nearestEven_between (value / spacing value)
  have floor_eq : (value / spacing value : ℚ).floor = value / spacing value :=
    Rat.floor_intCast_div_natCast value (spacing value)
  rw [floor_eq] at least most
  unfold nearestReal
  constructor
  · intro down
    by_contra up
    have quotient : 0 ≤ value / (spacing value : Int) := Int.ediv_nonneg (by omega) (by omega)
    have := Int.mul_nonneg (le_trans quotient least) (Int.natCast_nonneg (spacing value))
    omega
  · intro down
    apply Int.mul_neg_of_neg_of_pos _ (by omega)
    by_cases near : spacing value = 1
    · rw [near]
      simp only [Nat.cast_one, div_one]
      rw [Store.Thresholds.nearestEven_int]
      exact down
    · have far := spacing_le near
      have quotient : value / (spacing value : Int) ≤ -2 := by
        rw [← Int.lt_add_one_iff]
        apply Int.ediv_lt_of_lt_mul (by omega)
        omega
      omega

theorem minus_fits {first second : Int} (fits : Fits (first - second)) :
    (Cell.integer first).minus (.integer second) = .integer (first - second) := if_pos fits

theorem minus_past {first second : Int} (past : ¬ Fits (first - second)) :
    (Cell.integer first).minus (.integer second) =
      .real (nearestReal (nearestReal first - nearestReal second)) := if_neg past

theorem larger_integer (value : Int) :
    (Cell.integer value).larger (.integer 0) = .integer (max value 0) := by
  unfold Cell.larger Cell.value
  dsimp only
  split
  case isTrue down => rw [max_eq_right (le_of_lt down)]
  case isFalse up => rw [max_eq_left (not_lt.mp up)]

theorem larger_real (value : Int) :
    (Cell.real (nearestReal value)).larger (.integer 0) =
      if value < 0 then .integer 0 else .real (nearestReal value) := by
  unfold Cell.larger Cell.value
  simp only [nearestReal_neg_iff]

/-- What is computed of an event in integers is exact. -/
theorem uncachedCell_fits (first : Fits (event.inputTokens - event.cacheReadTokens))
    (second : Fits (event.inputTokens - event.cacheReadTokens - event.cacheWriteTokens)) :
    uncachedCell event = .integer (uncached event) := by
  unfold uncachedCell
  rw [minus_fits first, minus_fits second, larger_integer]
  rfl

/-- Where only the second difference leaves 64 bits. -/
theorem uncachedCell_second (first : Fits (event.inputTokens - event.cacheReadTokens))
    (second : ¬ Fits (event.inputTokens - event.cacheReadTokens - event.cacheWriteTokens)) :
    uncachedCell event =
      let difference :=
        nearestReal (event.inputTokens - event.cacheReadTokens) - nearestReal event.cacheWriteTokens
      if difference < 0 then .integer 0 else .real (nearestReal difference) := by
  unfold uncachedCell
  rw [minus_fits first, minus_past second, larger_real]

theorem uncachedCell_first (first : ¬ Fits (event.inputTokens - event.cacheReadTokens)) :
    uncachedCell event =
      let difference := nearestReal (nearestReal event.inputTokens - nearestReal event.cacheReadTokens) -
        nearestReal event.cacheWriteTokens
      if difference < 0 then .integer 0 else .real (nearestReal difference) := by
  unfold uncachedCell
  rw [minus_past first]
  exact larger_real _

/-- An integer computed of an event is never too large. -/
theorem le_of_uncachedCell {value : Int} (computed : uncachedCell event = .integer value) :
    value ≤ uncached event := by
  have zero : 0 ≤ uncached event := le_max_right _ _
  by_cases first : Fits (event.inputTokens - event.cacheReadTokens)
  · by_cases second : Fits (event.inputTokens - event.cacheReadTokens - event.cacheWriteTokens)
    · rw [uncachedCell_fits first second] at computed
      exact le_of_eq (Cell.integer.inj computed).symm
    · rw [uncachedCell_second first second] at computed
      dsimp only at computed
      split at computed
      · cases computed
        exact zero
      · cases computed
  · rw [uncachedCell_first first] at computed
    dsimp only at computed
    split at computed
    · cases computed
      exact zero
    · cases computed

/-- The counts of a stored event that the input is split by fit 64 bits. -/
def Held (event : UsageEvent) : Prop :=
  Fits event.inputTokens ∧ Fits event.cacheReadTokens ∧ Fits event.cacheWriteTokens

instance (event : UsageEvent) : Decidable (Held event) := inferInstanceAs (Decidable (_ ∧ _ ∧ _))

/-- One that is exact is computed from a difference that stays whole. -/
theorem staysWhole_of_uncachedCell (held : Held event)
    (computed : uncachedCell event = .integer (uncached event)) : StaysWhole event := by
  by_cases first : Fits (event.inputTokens - event.cacheReadTokens)
  · exact .inl first
  · rw [uncachedCell_first first] at computed
    dsimp only at computed
    split at computed
    case isTrue down =>
      have none : uncached event = 0 := (Cell.integer.inj computed).symm
      have most : event.inputTokens - event.cacheReadTokens - event.cacheWriteTokens ≤ 0 := by
        rw [← none]
        exact le_max_left _ _
      have ⟨_, _, write⟩ := held
      unfold Fits at first write
      exact .inr ⟨by omega, by omega⟩
    case isFalse => cases computed

/-- An event that stays whole is computed exactly, unless its uncached tokens are past 64 bits. -/
theorem uncachedCell_of_staysWhole (held : Held event) (whole : StaysWhole event)
    (below : uncached event < 2 ^ 63) : uncachedCell event = .integer (uncached event) := by
  have ⟨input, read, write⟩ := held
  have most : event.inputTokens - event.cacheReadTokens - event.cacheWriteTokens ≤ uncached event :=
    le_max_left _ _
  by_cases first : Fits (event.inputTokens - event.cacheReadTokens)
  · by_cases second : Fits (event.inputTokens - event.cacheReadTokens - event.cacheWriteTokens)
    · exact uncachedCell_fits first second
    · -- The second difference is below 64 bits, so the first is below zero and the writes are not.
      unfold Fits at first second write
      have none : uncached event = 0 := max_eq_right (by omega)
      have negative := (nearestReal_neg_iff (event.inputTokens - event.cacheReadTokens)).mpr (by omega)
      have positive := mt (nearestReal_neg_iff event.cacheWriteTokens).mp (by omega)
      rw [uncachedCell_second first second, none]
      exact if_pos (by omega)
  · have ⟨less, down⟩ := whole.resolve_left first
    unfold Fits at first write
    have none : uncached event = 0 := max_eq_right (by omega)
    rw [uncachedCell_first first, none]
    exact if_pos (by omega)

end Uncached

section Reads
variable {rows group rest : List Joined} {column : Joined → Int} {total : Int}

/-- 1 for a row that failed. -/
def failure (row : Joined) : Int := if row.event.failed then 1 else 0

theorem readSum_integers : readSum (fun row => .integer (column row)) rows = some total ↔
    rows ≠ [] ∧ run (-2 ^ 63) (2 ^ 63) 0 (rows.map column) = some total := by
  have cells : rows.map (fun row => Cell.integer (column row)) = (rows.map column).map Cell.integer :=
    List.map_map.symm
  unfold readSum
  rw [cells, decode_sumCells_integers, ne_eq, List.map_eq_nil_iff]

theorem readSum_congr {cell : Joined → Cell} (each : ∀ row ∈ rows, cell row = .integer (column row)) :
    readSum cell rows = readSum (fun row => .integer (column row)) rows :=
  congrArg (fun cells => (sumCells cells).decode) (List.map_congr_left each)

theorem failures_between (rows : List Joined) :
    below (rows.map failure) = 0 ∧ above (rows.map failure) ≤ rows.length := by
  induction rows with
  | nil => decide
  | cons row rest ih =>
    have one : min (failure row) 0 = 0 ∧ max (failure row) 0 ≤ 1 := by
      unfold failure
      split <;> decide
    rw [List.map_cons, below_cons, above_cons, List.length_cons]
    omega

theorem Bounded.part (bounded : Bounded rows) (split : (group ++ rest).Perm rows) : Bounded group where
  few := by
    have length := split.length_eq
    have few := bounded.few
    rw [List.length_append] at length
    omega
  between := by
    intro column listed
    have ⟨least, most⟩ := bounded.between column listed
    have same : (group.map column ++ rest.map column).Perm (rows.map column) := by
      rw [← List.map_append]
      exact split.map column
    have inside := part_between same
    omega
  whole row member := bounded.whole row (split.mem_iff.mp (List.mem_append_left rest member))

theorem Bounded.filter (bounded : Bounded rows) (kept : Joined → Bool) : Bounded (rows.filter kept) :=
  bounded.part (List.filter_append_perm kept rows)

/-- What a column's sums stay between. -/
def Between (column : Joined → Int) (rows : List Joined) : Prop :=
  -2 ^ 63 ≤ below (rows.map column) ∧ above (rows.map column) < 2 ^ 63

theorem Bounded.failures (bounded : Bounded rows) : Between failure rows := by
  have ⟨least, most⟩ := failures_between rows
  have few := bounded.few
  exact ⟨by omega, by omega⟩

/-- A column between the bounds is read exactly. -/
theorem Between.readSum (between : Between column rows) (filled : rows ≠ []) :
    readSum (fun row => .integer (column row)) rows = some (sum column rows) := by
  have ⟨least, most⟩ := between
  rw [readSum_integers, run_of_between (by omega) (by omega), zero_add]
  exact ⟨filled, rfl⟩

theorem Between.fits (between : Between column rows) : Fits (sum column rows) := by
  have ⟨least, most⟩ := between
  have ⟨low, high⟩ := sum_between (rows.map column)
  exact ⟨le_trans least low, lt_of_le_of_lt high most⟩

theorem Bounded.readUncached (bounded : Bounded rows) (held : ∀ row ∈ rows, Held row.event)
    (filled : rows ≠ []) : RunningSums.readSum (uncachedCell ·.event) rows = some (sum (uncached ·.event) rows) := by
  have listed : (fun row : Joined => uncached row.event) ∈ tokenColumns := by simp [tokenColumns]
  have most := (bounded.between _ listed).2
  rw [readSum_congr fun row member => ?_]
  · exact Between.readSum (bounded.between _ listed) filled
  · apply uncachedCell_of_staysWhole (held row member) (bounded.whole row member)
    have least : uncached row.event ≤ above (rows.map (uncached ·.event)) :=
      le_above (List.mem_map_of_mem member)
    omega

/-- The measures of a group are read exactly. -/
theorem Bounded.queried (bounded : Bounded rows) (held : ∀ row ∈ rows, Held row.event)
    (filled : rows ≠ []) : queried rows = some (metrics rows) := by
  have read (column : Joined → Int) (listed : column ∈ tokenColumns) :=
    Between.readSum (bounded.between column listed) filled
  have failures := bounded.failures.readSum filled
  unfold failure at failures
  unfold RunningSums.queried
  rw [failures, read (·.event.inputTokens) (by simp [tokenColumns]), bounded.readUncached held filled,
    read (·.event.cacheReadTokens) (by simp [tokenColumns]),
    read (·.event.cacheWriteTokens) (by simp [tokenColumns]),
    read (·.event.outputTokens) (by simp [tokenColumns]),
    read (·.event.reasoningTokens) (by simp [tokenColumns]),
    read (·.event.unclassifiedTokens) (by simp [tokenColumns]),
    read (·.event.totalTokens) (by simp [tokenColumns])]
  rfl

theorem count_between {Value : Type} (column : Joined → Option Value) (rows : List Joined) :
    0 ≤ countAll rows - count column rows ∧ countAll rows - count column rows ≤ rows.length := by
  have most := List.countP_le_length (p := fun row => (column row).isSome) (l := rows)
  unfold countAll count
  omega

/-- No measure of the rows is past 64 bits. -/
theorem Bounded.fits (bounded : Bounded rows) : ∀ measure ∈ integers (metrics rows), Fits measure := by
  have few := bounded.few
  have listed (column : Joined → Int) (listed : column ∈ tokenColumns) : Fits (sum column rows) :=
    Between.fits (bounded.between column listed)
  have failures := bounded.failures.fits
  have missing {Value : Type} (column : Joined → Option Value) :
      Fits (countAll rows - count column rows) := by
    have ⟨least, most⟩ := count_between column rows
    exact ⟨by omega, by omega⟩
  have requests : Fits (countAll rows) := ⟨by unfold countAll; omega, by unfold countAll; omega⟩
  have sums := List.forall_mem_cons.mpr ⟨failures, List.forall_mem_map.mpr listed⟩
  unfold tokenColumns at sums
  simp only [List.map_cons, List.map_nil, List.forall_mem_cons] at sums
  have ⟨failed, input, uncached, read, write, output, reasoning, unclassified, total, ended⟩ := sums
  simp only [integers, List.forall_mem_cons]
  exact ⟨requests, failed, input, uncached, read, write, output, reasoning, unclassified, total,
    missing _, missing _, ended⟩

theorem metrics_append (rows rest : List Joined) : metrics (rows ++ rest) = metrics rows + metrics rest := by
  rw [metrics_eq_sum, metrics_eq_sum rows, metrics_eq_sum rest, List.map_append, List.sum_append]

theorem metrics_perm (same : group.Perm rows) : metrics group = metrics rows := by
  rw [metrics_eq_sum, metrics_eq_sum rows]
  exact (same.map _).sum_eq

/-- Groups are added to the measures of those before them, and the addition is exact. -/
theorem Bounded.merge (bounded : Bounded rows) (held : ∀ row ∈ rows, Held row.event)
    {groups : List (List Joined)} (filled : ∀ group ∈ groups, group ≠ []) {before : List Joined}
    (split : (before ++ groups.flatten).Perm rows) :
    groups.foldlM (fun total group => (RunningSums.queried group).bind (addAssign total)) (metrics before) =
      some (metrics (before ++ groups.flatten)) := by
  induction groups generalizing before with
  | nil => simp
  | cons group groups ih =>
    have ⟨some_rows, later⟩ := List.forall_mem_cons.mp filled
    rw [List.flatten_cons, ← List.append_assoc] at split ⊢
    have apart : (group ++ (before ++ groups.flatten)).Perm rows := by
      rw [← List.append_assoc]
      exact (List.perm_append_comm.append_right _).trans split
    have read := (bounded.part apart).queried (fun row member =>
      held row (apart.mem_iff.mp (List.mem_append_left _ member))) some_rows
    have added : addAssign (metrics before) (metrics group) = some (metrics (before ++ group)) := by
      unfold addAssign
      rw [← metrics_append, if_pos (bounded.part split).fits]
    rw [List.foldlM_cons, read, Option.bind_some, added]
    exact ih later split

/-- A sum of integers that a NULL is read as 0 for. -/
theorem decode_orZero (values : List Int) :
    (sumCells (values.map Cell.integer)).orZero.decode = run (-2 ^ 63) (2 ^ 63) 0 values := by
  by_cases empty : values = []
  · rw [empty]
    rfl
  · have summed : sumCells (values.map Cell.integer) ≠ .null := by
      unfold sumCells
      rw [if_neg (mt List.map_eq_nil_iff.mp empty)]
      cases (values.map Cell.integer).foldl Running.step (.whole 0) with
      | whole sum => exact Answer.noConfusion
      | approximate overflow => cases overflow <;> exact Answer.noConfusion
    have same : (sumCells (values.map Cell.integer)).orZero = sumCells (values.map Cell.integer) := by
      cases answered : sumCells (values.map Cell.integer) with
      | null => exact absurd answered summed
      | integer sum => rfl
      | real => rfl
      | overflow => rfl
    apply Option.ext
    intro total
    rw [same, decode_sumCells_integers, and_iff_right empty]

theorem leverageTokens_eq (events : List UsageEvent) :
    leverageTokens events = run (-2 ^ 63) (2 ^ 63) 0 (events.map (·.totalTokens)) := by
  have cells : events.map (fun event => Cell.integer event.totalTokens) =
      (events.map (·.totalTokens)).map Cell.integer := List.map_map.symm
  unfold leverageTokens
  rw [cells, decode_orZero]

theorem Bounded.exact (bounded : Bounded rows) (held : ∀ row ∈ rows, Held row.event) : SumsExact rows where
  measures groups filled same := by
    have start : ([] ++ groups.flatten).Perm rows := same
    have merged_eq : merged groups = some (metrics groups.flatten) := bounded.merge held filled start
    rw [merged_eq, metrics_perm same]
    rfl
  tokens order same := by
    have listed : (·.event.totalTokens) ∈ tokenColumns := by simp [tokenColumns]
    have each := (runs_iff (by decide)).mpr (bounded.between _ listed) order same
    rw [leverageTokens_eq, List.map_map]
    exact each

/-- A sum of what is computed of the rows that is right is right at each of them. -/
theorem uncached_of_readSum
    (read : readSum (uncachedCell ·.event) rows = some (sum (uncached ·.event) rows)) :
    ∀ row ∈ rows, uncachedCell row.event = .integer (uncached row.event) := by
  have ⟨_, values, cells, summed⟩ := decode_sumCells_iff.mp read
  have computed : ∀ row ∈ rows, uncachedCell row.event = .integer (uncachedCell row.event).value := by
    intro row member
    have listed : uncachedCell row.event ∈ values.map Cell.integer :=
      cells ▸ List.mem_map_of_mem member
    have ⟨value, _, same⟩ := List.mem_map.mp listed
    rw [← same]
    rfl
  have values_eq : values = rows.map fun row => (uncachedCell row.event).value := by
    have valued := congrArg (List.map Cell.value) cells
    rw [List.map_map, List.map_map] at valued
    rw [show rows.map (fun row => (uncachedCell row.event).value) = _ from valued]
    exact (List.map_id values).symm
  have total := (sum_of_run (by decide) summed).1
  rw [zero_add, values_eq] at total
  have each := eq_of_sum_eq (fun row member => le_of_uncachedCell (computed row member)) total.symm
  intro row member
  rw [computed row member, each row member]

theorem reads_of_queried {measures : UsageMetrics} (read : queried rows = some measures) :
    readSum (uncachedCell ·.event) rows = some measures.uncachedInputTokens ∧
    readSum (fun row => .integer row.event.inputTokens) rows = some measures.inputTokens ∧
    readSum (fun row => .integer row.event.cacheReadTokens) rows = some measures.cacheReadTokens ∧
    readSum (fun row => .integer row.event.cacheWriteTokens) rows = some measures.cacheWriteTokens ∧
    readSum (fun row => .integer row.event.outputTokens) rows = some measures.outputTokens ∧
    readSum (fun row => .integer row.event.reasoningTokens) rows = some measures.reasoningTokens ∧
    readSum (fun row => .integer row.event.unclassifiedTokens) rows = some measures.unclassifiedTokens ∧
    readSum (fun row => .integer row.event.totalTokens) rows = some measures.totalTokens ∧
    countAll rows = measures.requests := by
  unfold queried at read
  have ⟨failures, _, read⟩ := Option.bind_eq_some_iff.mp read
  have ⟨input, inputRead, read⟩ := Option.bind_eq_some_iff.mp read
  have ⟨uncached, uncachedRead, read⟩ := Option.bind_eq_some_iff.mp read
  have ⟨hits, hitsRead, read⟩ := Option.bind_eq_some_iff.mp read
  have ⟨fills, fillsRead, read⟩ := Option.bind_eq_some_iff.mp read
  have ⟨output, outputRead, read⟩ := Option.bind_eq_some_iff.mp read
  have ⟨reasoning, reasoningRead, read⟩ := Option.bind_eq_some_iff.mp read
  have ⟨unclassified, unclassifiedRead, read⟩ := Option.bind_eq_some_iff.mp read
  have ⟨total, totalRead, read⟩ := Option.bind_eq_some_iff.mp read
  cases read
  exact ⟨uncachedRead, inputRead, hitsRead, fillsRead, outputRead, reasoningRead, unclassifiedRead,
    totalRead, rfl⟩

/-- One group of rows is read as the measures of them all, which fit. -/
theorem SumsExact.queried (exact : SumsExact rows) (filled : rows ≠ []) {order : List Joined}
    (same : order.Perm rows) :
    ∃ measures, RunningSums.queried order = some measures ∧
      integers measures = integers (metrics rows) ∧ ∀ measure ∈ integers measures, Fits measure := by
  have one := exact.measures [order] (by
    intro group member
    rw [List.mem_singleton.mp member]
    intro none
    exact filled (List.nil_perm.mp (none ▸ same))) (by simpa using same)
  have ⟨merged, merged_eq, integers_eq⟩ := Option.map_eq_some_iff.mp one
  have folded : (RunningSums.queried order).bind (addAssign 0) = some merged := by
    unfold RunningSums.merged at merged_eq
    simpa only [List.foldlM_cons, List.foldlM_nil, bind_pure] using merged_eq
  have ⟨measures, read, added⟩ := Option.bind_eq_some_iff.mp folded
  unfold addAssign at added
  split at added
  case isTrue fit =>
    cases added
    rw [zero_add] at fit integers_eq
    exact ⟨measures, read, integers_eq, fit⟩
  case isFalse => cases added

/-- Each order's sums are those of the rows. -/
theorem SumsExact.reads (exact : SumsExact rows) (filled : rows ≠ []) {order : List Joined}
    (same : order.Perm rows) :
    RunningSums.readSum (uncachedCell ·.event) order = some (sum (uncached ·.event) rows) ∧
    ∀ column ∈ tokenColumns, (column = fun row => uncached row.event) ∨
      RunningSums.readSum (fun row => .integer (column row)) order = some (sum column rows) := by
  obtain ⟨measures, read, same_integers, _⟩ := exact.queried filled same
  obtain ⟨uncachedRead, input, hits, fills, output, reasoning, unclassified, total, _⟩ := reads_of_queried read
  simp only [integers, metrics, List.cons.injEq] at same_integers
  obtain ⟨_, _, input_eq, uncached_eq, hits_eq, fills_eq, output_eq, reasoning_eq, unclassified_eq, total_eq, _⟩ :=
    same_integers
  rw [uncached_eq] at uncachedRead
  rw [input_eq] at input
  rw [hits_eq] at hits
  rw [fills_eq] at fills
  rw [output_eq] at output
  rw [reasoning_eq] at reasoning
  rw [unclassified_eq] at unclassified
  rw [total_eq] at total
  refine ⟨uncachedRead, ?_⟩
  unfold tokenColumns
  simp only [List.forall_mem_cons]
  exact ⟨.inr input, .inl trivial, .inr hits, .inr fills, .inr output, .inr reasoning, .inr unclassified,
    .inr total, fun column listed => absurd listed List.not_mem_nil⟩

theorem bounded_nil : Bounded [] where
  few := by decide
  between column _ := by
    change -2 ^ 63 ≤ below [] ∧ above [] < 2 ^ 63
    decide
  whole row none := (nomatch none)

theorem SumsExact.bounded (exact : SumsExact rows) (held : ∀ row ∈ rows, Held row.event) : Bounded rows := by
  by_cases empty : rows = []
  · rw [empty]
    exact bounded_nil
  · have computed := uncached_of_readSum (exact.reads empty (List.Perm.refl rows)).1
    constructor
    case few =>
      have ⟨measures, read, same_integers, fit⟩ := exact.queried empty (List.Perm.refl rows)
      have requests := (reads_of_queried read).2.2.2.2.2.2.2.2
      have fits := fit measures.requests List.mem_cons_self
      rw [← requests] at fits
      unfold countAll Fits at fits
      omega
    case whole =>
      intro row member
      exact staysWhole_of_uncachedCell (held row member) (computed row member)
    case between =>
      intro column listed
      apply (runs_iff (by decide)).mp
      intro order same
      have ⟨uncachedRead, others⟩ := exact.reads empty same
      have read : RunningSums.readSum (fun row => .integer (column row)) order = some (sum column rows) := by
        cases others column listed with
        | inr read => exact read
        | inl uncached_column =>
          rw [uncached_column, ← readSum_congr fun row member => computed row (same.mem_iff.mp member)]
          exact uncachedRead
      exact (readSum_integers.mp read).2

theorem sumsExact_iff (held : ∀ row ∈ rows, Held row.event) : SumsExact rows ↔ Bounded rows :=
  ⟨fun exact => exact.bounded held, fun bounded => bounded.exact held⟩

end Reads

end MeteredUsage.Analytics.RunningSums

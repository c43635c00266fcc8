import Mathlib.Algebra.BigOperators.Group.List.Basic
import Mathlib.Algebra.Order.Ring.Rat
import Mathlib.Tactic.Ring
import MeteredUsage.Store.Schema

/-! The measures every analytics answer reports, whatever it groups by. Sums of dollars are exact. -/

namespace MeteredUsage.Analytics.Metrics
open MeteredUsage.Store.Schema

/-- US dollars per million tokens of each kind, as numbers. -/
structure ExactRates where
  inputUsdPerMtok : ℚ
  cachedInputUsdPerMtok : ℚ
  cacheWriteUsdPerMtok : ℚ
  outputUsdPerMtok : ℚ
deriving DecidableEq

/-- A stored event left joined to the price row that priced it, with its two costs as numbers. -/
structure Joined where
  event : UsageEvent
  listCostUsd : Option ℚ
  billedCostUsd : Option ℚ
  price : Option ExactRates
deriving DecidableEq

@[ext] structure UsageMetrics where
  requests : Int
  failures : Int
  inputTokens : Int
  uncachedInputTokens : Int
  cacheReadTokens : Int
  cacheWriteTokens : Int
  outputTokens : Int
  reasoningTokens : Int
  unclassifiedTokens : Int
  totalTokens : Int
  listCostUsd : ℚ
  billedCostUsd : ℚ
  uncachedInputCostUsd : ℚ
  cacheReadCostUsd : ℚ
  cacheWriteCostUsd : ℚ
  outputCostUsd : ℚ
  cacheSavingsUsd : ℚ
  unpricedRequests : Int
  unbilledRequests : Int
  latencyMsTotal : ℚ
  latencySamples : ℚ
  ttftMsTotal : ℚ
  ttftSamples : ℚ
  generatedOutputTokens : ℚ
  generationMsTotal : ℚ
deriving DecidableEq

/-- `SUM` of a column that is never NULL. -/
def sum (column : Joined → Int) (rows : List Joined) : Int := (rows.map column).sum

/-- `TOTAL`, which passes over NULL. -/
def total (column : Joined → Option ℚ) (rows : List Joined) : ℚ :=
  (rows.map fun row => (column row).getD 0).sum

/-- `COUNT(*)`. -/
def countAll (rows : List Joined) : Int := rows.length

/-- `COUNT` of a column, which passes over NULL. -/
def count {Value : Type} (column : Joined → Option Value) (rows : List Joined) : Int :=
  rows.countP fun row => (column row).isSome

/-- The input tokens that neither hit nor filled a cache. -/
def uncached (event : UsageEvent) : Int :=
  max (event.inputTokens - event.cacheReadTokens - event.cacheWriteTokens) 0

def uncachedInputCost (row : Joined) : Option ℚ :=
  row.price.map fun rates => uncached row.event * rates.inputUsdPerMtok / 1000000

def cacheReadCost (row : Joined) : Option ℚ :=
  row.price.map fun rates => row.event.cacheReadTokens * rates.cachedInputUsdPerMtok / 1000000

def cacheWriteCost (row : Joined) : Option ℚ :=
  row.price.map fun rates => row.event.cacheWriteTokens * rates.cacheWriteUsdPerMtok / 1000000

def outputCost (row : Joined) : Option ℚ :=
  row.price.map fun rates => row.event.outputTokens * rates.outputUsdPerMtok / 1000000

def cacheSavings (row : Joined) : Option ℚ :=
  row.price.map fun rates =>
    (row.event.cacheReadTokens * (rates.inputUsdPerMtok - rates.cachedInputUsdPerMtok) -
      row.event.cacheWriteTokens * (rates.cacheWriteUsdPerMtok - rates.inputUsdPerMtok)) / 1000000

/-- The time a successful request spent generating, if any. -/
def generationMs (row : Joined) : Option Int :=
  (row.event.latencyMs.map fun latency => latency - row.event.ttftMs.getD 0).filter fun spent =>
    !row.event.failed && decide (0 < spent)

/-- `METRICS`. -/
def metrics (rows : List Joined) : UsageMetrics where
  requests := countAll rows
  failures := sum (fun row => if row.event.failed then 1 else 0) rows
  inputTokens := sum (·.event.inputTokens) rows
  uncachedInputTokens := sum (uncached ·.event) rows
  cacheReadTokens := sum (·.event.cacheReadTokens) rows
  cacheWriteTokens := sum (·.event.cacheWriteTokens) rows
  outputTokens := sum (·.event.outputTokens) rows
  reasoningTokens := sum (·.event.reasoningTokens) rows
  unclassifiedTokens := sum (·.event.unclassifiedTokens) rows
  totalTokens := sum (·.event.totalTokens) rows
  listCostUsd := total Joined.listCostUsd rows
  billedCostUsd := total Joined.billedCostUsd rows
  uncachedInputCostUsd := total uncachedInputCost rows
  cacheReadCostUsd := total cacheReadCost rows
  cacheWriteCostUsd := total cacheWriteCost rows
  outputCostUsd := total outputCost rows
  cacheSavingsUsd := total cacheSavings rows
  unpricedRequests := countAll rows - count Joined.listCostUsd rows
  unbilledRequests := countAll rows - count Joined.billedCostUsd rows
  latencyMsTotal := total (·.event.latencyMs.map Int.cast) rows
  latencySamples := total (fun row => some (if row.event.latencyMs.isSome then 1 else 0)) rows
  ttftMsTotal := total (·.event.ttftMs.map Int.cast) rows
  ttftSamples := total (fun row => some (if row.event.ttftMs.isSome then 1 else 0)) rows
  generatedOutputTokens := total (fun row => (generationMs row).map fun _ => row.event.outputTokens) rows
  generationMsTotal := total (fun row => (generationMs row).map Int.cast) rows

variable {rows : List Joined}

/-- What the tokens of an event cost at some rates. -/
def listCost (event : UsageEvent) (rates : ExactRates) : ℚ :=
  (uncached event * rates.inputUsdPerMtok + event.cacheReadTokens * rates.cachedInputUsdPerMtok +
    event.cacheWriteTokens * rates.cacheWriteUsdPerMtok + event.outputTokens * rates.outputUsdPerMtok) /
    1000000

/-- The list cost of a row is that of its tokens at the rates of the row it is joined to; one that
is joined to none has no list cost. -/
def Frozen (row : Joined) : Prop :=
  row.listCostUsd = row.price.map (listCost row.event)

instance (row : Joined) : Decidable (Frozen row) := inferInstanceAs (Decidable (_ = _))

/-- The list cost of a row and its four parts. -/
def costColumns : List (Joined → Option ℚ) :=
  [Joined.listCostUsd, uncachedInputCost, cacheReadCost, cacheWriteCost, outputCost]

/-- Its list cost and every part of it are NULL, so the sums pass over the row. -/
def addsNothing (row : Joined) : Bool := costColumns.all fun column => (column row).isNone

/-- Its list cost and every part of it, as the sums take them, are zero. -/
def addsZero (row : Joined) : Bool := costColumns.all fun column => decide (total column [row] = 0)

theorem Frozen.parts {row : Joined} (frozen : Frozen row) :
    (uncachedInputCost row).getD 0 + (cacheReadCost row).getD 0 + (cacheWriteCost row).getD 0 +
      (outputCost row).getD 0 = row.listCostUsd.getD 0 := by
  unfold Frozen at frozen
  unfold uncachedInputCost cacheReadCost cacheWriteCost outputCost
  rw [frozen]
  cases row.price with
  | none => simp
  | some rates =>
    simp only [Option.map_some, Option.getD_some, listCost]
    ring

theorem Frozen.unpriced {row : Joined} (frozen : Frozen row) :
    row.listCostUsd.isNone = row.price.isNone ∧ addsNothing row = row.price.isNone := by
  unfold Frozen at frozen
  simp only [addsNothing, costColumns, uncachedInputCost, cacheReadCost, cacheWriteCost, outputCost,
    frozen, Option.isNone_map, List.all_cons, List.all_nil, Bool.and_true, Bool.and_self, and_self]

theorem parts_sum (frozen : ∀ row ∈ rows, Frozen row) :
    (metrics rows).uncachedInputCostUsd + (metrics rows).cacheReadCostUsd +
      (metrics rows).cacheWriteCostUsd + (metrics rows).outputCostUsd = (metrics rows).listCostUsd := by
  simp only [metrics, total, ← List.sum_map_add]
  exact congrArg List.sum (List.map_congr_left fun row member => (frozen row member).parts)

theorem unpriced_eq (frozen : ∀ row ∈ rows, Frozen row) :
    (metrics rows).unpricedRequests = rows.countP fun row => row.price.isNone := by
  have priced : rows.countP (fun row => row.listCostUsd.isSome) =
      rows.countP fun row => !row.price.isNone := by
    apply List.countP_congr
    intro row member
    rw [← (frozen row member).unpriced.1, Option.not_isNone]
  have split : rows.length = rows.countP (fun row => row.price.isNone) +
      rows.countP fun row => !row.price.isNone := by
    rw [List.length_eq_countP_add_countP fun row : Joined => row.price.isNone]
    refine congrArg _ (List.countP_congr fun row _ => ?_)
    cases row.price <;> simp
  simp only [metrics, countAll, count]
  rw [priced, split]
  omega

end MeteredUsage.Analytics.Metrics

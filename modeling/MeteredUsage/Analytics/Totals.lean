import MeteredUsage.Analytics.Metrics
import MeteredUsage.Library.Groups

/-! The measures of two groups merge exactly: they add up field by field, and those of any rows are
the sum of each row's own. -/

namespace MeteredUsage.Analytics.Metrics
open MeteredUsage.Store.Schema

/-- `UsageMetrics::default`. -/
instance : Zero UsageMetrics where
  zero := ⟨0, 0, 0, 0, 0, 0, 0, 0, 0, 0, 0, 0, 0, 0, 0, 0, 0, 0, 0, 0, 0, 0, 0, 0, 0⟩

/-- `AddAssign` of one group's measures to another's. -/
def UsageMetrics.add (left other : UsageMetrics) : UsageMetrics where
  requests := left.requests + other.requests
  failures := left.failures + other.failures
  inputTokens := left.inputTokens + other.inputTokens
  uncachedInputTokens := left.uncachedInputTokens + other.uncachedInputTokens
  cacheReadTokens := left.cacheReadTokens + other.cacheReadTokens
  cacheWriteTokens := left.cacheWriteTokens + other.cacheWriteTokens
  outputTokens := left.outputTokens + other.outputTokens
  reasoningTokens := left.reasoningTokens + other.reasoningTokens
  unclassifiedTokens := left.unclassifiedTokens + other.unclassifiedTokens
  totalTokens := left.totalTokens + other.totalTokens
  listCostUsd := left.listCostUsd + other.listCostUsd
  billedCostUsd := left.billedCostUsd + other.billedCostUsd
  uncachedInputCostUsd := left.uncachedInputCostUsd + other.uncachedInputCostUsd
  cacheReadCostUsd := left.cacheReadCostUsd + other.cacheReadCostUsd
  cacheWriteCostUsd := left.cacheWriteCostUsd + other.cacheWriteCostUsd
  outputCostUsd := left.outputCostUsd + other.outputCostUsd
  cacheSavingsUsd := left.cacheSavingsUsd + other.cacheSavingsUsd
  unpricedRequests := left.unpricedRequests + other.unpricedRequests
  unbilledRequests := left.unbilledRequests + other.unbilledRequests
  latencyMsTotal := left.latencyMsTotal + other.latencyMsTotal
  latencySamples := left.latencySamples + other.latencySamples
  ttftMsTotal := left.ttftMsTotal + other.ttftMsTotal
  ttftSamples := left.ttftSamples + other.ttftSamples
  generatedOutputTokens := left.generatedOutputTokens + other.generatedOutputTokens
  generationMsTotal := left.generationMsTotal + other.generationMsTotal

instance : Add UsageMetrics := ⟨UsageMetrics.add⟩

instance : AddCommMonoid UsageMetrics where
  add_assoc _ _ _ := by apply UsageMetrics.ext <;> exact add_assoc _ _ _
  zero_add _ := by apply UsageMetrics.ext <;> exact zero_add _
  add_zero _ := by apply UsageMetrics.ext <;> exact add_zero _
  add_comm _ _ := by apply UsageMetrics.ext <;> exact add_comm _ _
  nsmul := nsmulRec

theorem sum_cons (column : Joined → Int) (row : Joined) (rows : List Joined) :
    sum column (row :: rows) = sum column [row] + sum column rows := by
  simp [sum]

theorem total_cons (column : Joined → Option ℚ) (row : Joined) (rows : List Joined) :
    total column (row :: rows) = total column [row] + total column rows := by
  simp [total]

theorem countAll_cons (row : Joined) (rows : List Joined) :
    countAll (row :: rows) = countAll [row] + countAll rows := by
  simp only [countAll, List.length_cons, List.length_nil]
  omega

theorem missing_cons {Value : Type} (column : Joined → Option Value) (row : Joined) (rows : List Joined) :
    countAll (row :: rows) - count column (row :: rows) =
      countAll [row] - count column [row] + (countAll rows - count column rows) := by
  simp only [countAll, count, List.length_cons, List.length_nil, List.countP_cons, List.countP_nil]
  omega

theorem metrics_cons (row : Joined) (rows : List Joined) :
    metrics (row :: rows) = metrics [row] + metrics rows := by
  have sums := fun column => sum_cons column row rows
  have totals := fun column => total_cons column row rows
  have unpriced := missing_cons Joined.listCostUsd row rows
  have unbilled := missing_cons Joined.billedCostUsd row rows
  change metrics (row :: rows) = (metrics [row]).add (metrics rows)
  apply UsageMetrics.ext <;> dsimp only [metrics, UsageMetrics.add]
  case requests => exact countAll_cons row rows
  case unpricedRequests => exact unpriced
  case unbilledRequests => exact unbilled
  case failures | inputTokens | uncachedInputTokens | cacheReadTokens | cacheWriteTokens | outputTokens
      | reasoningTokens | unclassifiedTokens | totalTokens => exact sums _
  all_goals exact totals _

/-- The measures of some rows are the sum of those of each. -/
theorem metrics_eq_sum (rows : List Joined) : metrics rows = (rows.map fun row => metrics [row]).sum := by
  induction rows with
  | nil => rfl
  | cons row rest ih => rw [metrics_cons, ih, List.map_cons, List.sum_cons]

end MeteredUsage.Analytics.Metrics

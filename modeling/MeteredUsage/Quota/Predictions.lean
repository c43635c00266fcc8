import Mathlib.Algebra.Order.BigOperators.Group.List
import Mathlib.Algebra.Order.Field.Rat
import Mathlib.Data.List.Infix
import Mathlib.Data.List.Sort
import Mathlib.Tactic.Linarith
import Mathlib.Tactic.NormNum
import MeteredUsage.Billing.Periods
import MeteredUsage.Store.Windows

/-! What a window holds now, from the provider's last report and the usage this service metered
since. Costs and shares are exact numbers. -/

namespace MeteredUsage.Quota.Predictions
open MeteredUsage.Values MeteredUsage.Store MeteredUsage.Store.Schema MeteredUsage.Store.Windows
open MeteredUsage.Billing.Periods (isTimestamp)

/-- `Scope` as a stored text reads. -/
def scopeOf (stored : String) : Scope :=
  match List.isPrefixOf? "model:".toList stored.toList with
  | some model => .model (String.ofList model)
  | none => if stored = "unmetered" then .unmetered else .account

/-- The event counts toward the scope: a model's name must contain that of the scope. -/
def counts (scope : Scope) (event : UsageEvent) : Bool :=
  match scope with
  | .model name => decide (name.toList <:+: (Sql.lower event.model).toList)
  | _ => true

/-- The usage of a window's account that counts toward it, both bounds included. -/
def usedBetween (tables : Tables) (window : QuotaWindow) (start finish : Timestamp) : List UsageEvent :=
  tables.events.filter fun event => event.accountId = window.accountId && start ≤ event.occurredAt &&
    event.occurredAt ≤ finish && counts (scopeOf window.scope) event

/-- `SUM(list_cost_usd)`, which passes over NULL. -/
def listCost (value : Sql.Float64 → ℚ) (events : List UsageEvent) : ℚ :=
  (events.map fun event => (event.listCostUsd.map value).getD 0).sum

/-- `SUM(failed = 0)`. -/
def succeeded (events : List UsageEvent) : Int := events.countP fun event => !event.failed

structure Metered where
  requests : Int
  costUsd : ℚ
deriving DecidableEq

/-- The number of requests is read as 32 bits, which refuses more. -/
def between (value : Sql.Float64 → ℚ) (tables : Tables) (window : QuotaWindow) (start finish : Timestamp) :
    Option Metered :=
  let events := usedBetween tables window start finish
  if succeeded events < 2 ^ 31 then some ⟨succeeded events, listCost value events⟩ else none

/-- A window whose share per dollar is off the median. -/
structure Outlier where
  startedAt : Timestamp
  fractionPerUsd : ℚ
deriving DecidableEq

/-- The share of a window that one list dollar spends. -/
structure Calibration where
  fractionPerUsd : ℚ
  /-- The windows the median was taken over. -/
  windows : Nat
  outliers : List Outlier
  positive : 0 < fractionPerUsd

/-- Only windows reported this recently teach the rate. -/
def horizon : Int := hours (28 * 24)

/-- Below this share, the rounding of a whole percent is most of what was reported. -/
def minUsedFraction : ℚ := 1 / 20

def outlierFactor : ℚ := 2

/-- The share one dollar spent of each window that teaches, the newest window first. -/
def rates (value : Sql.Float64 → ℚ) (tables : Tables) (window : QuotaWindow) (now : Timestamp) :
    List (Timestamp × ℚ) :=
  let samples := tables.samples.filter fun sample => sample.accountId = window.accountId &&
    sample.windowKey = window.windowKey && now - horizon ≤ sample.observedAt &&
    minUsedFraction ≤ value sample.usedFraction
  let newest := samples.insertionSort fun first second => second.startedAt ≤ first.startedAt
  newest.filterMap fun sample =>
    let cost := listCost value (usedBetween tables window sample.startedAt sample.observedAt)
    if 0 < cost then some (sample.startedAt, value sample.usedFraction / cost) else none

def median (sorted : List ℚ) : Option ℚ :=
  let middle := sorted.length / 2
  sorted[middle]?.map fun upper =>
    if sorted.length % 2 = 0 then (sorted.getD (middle - 1) 0 + upper) / 2 else upper

theorem rates_positive {value : Sql.Float64 → ℚ} {tables : Tables} {window : QuotaWindow} {now : Timestamp}
    {rate : Timestamp × ℚ} (member : rate ∈ rates value tables window now) : 0 < rate.2 := by
  simp only [rates, List.mem_filterMap, List.mem_insertionSort, List.mem_filter, Bool.and_eq_true,
    decide_eq_true_eq] at member
  obtain ⟨sample, ⟨_, _, used⟩, taught⟩ := member
  split at taught
  next spent =>
    obtain rfl := Option.some.inj taught
    exact div_pos ((by norm_num [minUsedFraction] : 0 < minUsedFraction).trans_le used) spent
  next => cases taught

theorem median_positive {sorted : List ℚ} {middle : ℚ} (positive : ∀ rate ∈ sorted, 0 < rate)
    (found : median sorted = some middle) : 0 < middle := by
  obtain ⟨upper, read, rfl⟩ := Option.map_eq_some_iff.mp found
  have high := positive upper (List.mem_of_getElem? read)
  split
  next =>
    have low : 0 ≤ sorted.getD (sorted.length / 2 - 1) 0 := by
      rw [List.getD_eq_getElem?_getD]
      rcases Option.eq_none_or_eq_some sorted[sorted.length / 2 - 1]? with absent | ⟨lower, present⟩
      · rw [absent]
        exact le_refl _
      · rw [present]
        exact (positive lower (List.mem_of_getElem? present)).le
    linarith
  next => exact high

/-- `Calibration::learn`. -/
def learn (value : Sql.Float64 → ℚ) (tables : Tables) (window : QuotaWindow) (now : Timestamp) :
    Option Calibration :=
  if scopeOf window.scope = .unmetered ∨ window.unit = some requests then none
  else
    let taught := rates value tables window now
    match found : median ((taught.map Prod.snd).insertionSort (· ≤ ·)) with
    | none => none
    | some fractionPerUsd => some {
        fractionPerUsd
        windows := taught.length
        outliers := taught.filterMap fun (startedAt, rate) =>
          let ratio := rate / fractionPerUsd
          if 1 / outlierFactor ≤ ratio ∧ ratio ≤ outlierFactor then none else some ⟨startedAt, rate⟩
        positive := median_positive (fun rate member => by
          obtain ⟨sample, taught, rfl⟩ := List.mem_map.mp ((List.mem_insertionSort _).mp member)
          exact rates_positive taught) found }

/-- The share of the window one metered unit spends. -/
inductive Rate where
  | perRequest (share : ℚ)
  /-- Nothing until the account has a window to learn it from. -/
  | perUsd (share : Option ℚ)
deriving DecidableEq

/-- Unknown only when there is spend and nothing to price it by. -/
def Rate.spent (metered : Metered) : Rate → Option ℚ
  | perRequest share => some (share * metered.requests)
  | perUsd (some share) => some (share * metered.costUsd)
  | perUsd none => if metered.costUsd ≤ 0 then some 0 else none

/-- The rate of a window; nothing for one counted in requests that states no limit. -/
def rateOf (value : Sql.Float64 → ℚ) (window : QuotaWindow) (calibration : Option Calibration) : Option Rate :=
  if window.unit = some requests then
    ((window.limitValue.map value).filter (0 < ·)).map fun limit => .perRequest (1 / limit)
  else some (.perUsd (calibration.map Calibration.fractionPerUsd))

/-- An instant rounded to an hour, toward the epoch. -/
def truncHour (instant : Timestamp) : Timestamp := instant.tdiv (hours 1) * hours 1

/-- `SELECT MIN(occurred_at)` of an account's successful requests, both bounds included. -/
def firstSuccess (tables : Tables) (id : AccountId) (reset now : Timestamp) : Option Timestamp :=
  ((tables.events.filter fun event => event.accountId = id && !event.failed && reset ≤ event.occurredAt &&
    event.occurredAt ≤ now).map (·.occurredAt)).min?

/-- The start and reset of the window holding `now`, for a window that opens at the first request
after it resets. Nothing where the loop asks for more rounds than are left. -/
def openedOnUse : Nat → Tables → AccountId → Timestamp → Int → Timestamp → Option (Option (Timestamp × Timestamp))
  | 0, _, _, _, _, _ => none
  | left + 1, tables, id, reset, length, now =>
    match firstSuccess tables id reset now with
    | none => some none
    | some first =>
      let ends := truncHour first + length
      if !isTimestamp ends then some none
      else if now < ends then some (some (first, ends))
      else openedOnUse left tables id ends length now

/-- The start and reset of the window holding `now`, for a window that follows the last one
straight away. Nothing where the lengths are past 32 bits, their seconds past 64, or an instant cannot
be held. -/
def nextOnSchedule (reset : Timestamp) (windowSeconds : Int) (now : Timestamp) :
    Option (Timestamp × Timestamp) :=
  let lengths := (now - reset).tdiv (seconds 1) / max windowSeconds 1 + 1
  let after := windowSeconds * lengths
  let resetsAt := reset + seconds after
  let start := resetsAt - seconds windowSeconds
  if lengths < 2 ^ 31 ∧ (-2 ^ 63 ≤ after ∧ after < 2 ^ 63) ∧ isTimestamp resetsAt = true ∧
      isTimestamp start = true then some (start, resetsAt)
  else none

structure Prediction where
  /-- The share of the window used by now. -/
  usedFraction : ℚ
  /-- When the window that holds now resets. -/
  resetsAt : Option Timestamp
  /-- The window reset after the report, so the report no longer describes it. -/
  hasReset : Bool
deriving DecidableEq

/-- The window that holds now. A loop of one round more than there are events ends, see
`openedOnUse_ends`. -/
def current (tables : Tables) (window : QuotaWindow) (reset : Timestamp) (windowSeconds : Int)
    (now : Timestamp) : Option (Option (Timestamp × Timestamp)) :=
  if window.startsOnUse then
    openedOnUse (tables.events.length + 1) tables window.accountId reset (seconds windowSeconds) now
  else some (nextOnSchedule reset windowSeconds now)

/-- `Prediction::of`, for a window with what it was calibrated to. Nothing where a statement fails
or the loop does not end. -/
def Prediction.of (value : Sql.Float64 → ℚ) (tables : Tables) (window : QuotaWindow)
    (calibration : Option Calibration) (now : Timestamp) : Option (Option Prediction) :=
  if scopeOf window.scope = .unmetered then some none
  else
    match rateOf value window calibration with
    | none => some none
    | some rate =>
      match window.resetsAt.filter (· ≤ now) with
      | none =>
        match window.usedFraction with
        | none => some none
        | some used => (between value tables window window.observedAt now).map fun metered =>
          ((rate.spent metered).filter (0 < ·)).map fun added =>
            ⟨min (value used + added) 1, window.resetsAt, false⟩
      | some reset =>
        match window.windowSeconds with
        | none => some none
        | some windowSeconds =>
          (current tables window reset windowSeconds now).bind fun holding =>
            match holding with
            | none => some (some ⟨0, none, true⟩)
            | some (start, resetsAt) => (between value tables window start now).map fun metered =>
              (rate.spent metered).map fun used => ⟨min used 1, some resetsAt, true⟩

end MeteredUsage.Quota.Predictions

import Mathlib.Data.Int.ConditionallyCompleteOrder
import Mathlib.Data.List.MinMax
import Mathlib.Data.Prod.Lex
import Mathlib.Order.ConditionallyCompleteLattice.Basic
import MeteredUsage.Store.Schema

/-! The two costs an event carries: its tokens at list rates, and what was billed for it. -/

namespace MeteredUsage.Store.Cost
open MeteredUsage.Values MeteredUsage.Store.Schema MeteredUsage.Library.Transaction

/-- `pricing.priced_as`: the price map key of a model the map knows under another name. -/
abbrev PricedAs := List (String × String)

/-- Whether a price is one of those `FILL` ranks for an event. -/
def matchesPrice (pricedAs : PricedAs) (event : UsageEvent) (price : ModelPrice) : Bool :=
  (price.model = event.model || event.modelAlias = some price.model ||
      pricedAs.contains (event.model, price.model) ||
      (price.model = event.provider ++ "/" ++ event.model && price.provider = some event.provider)) &&
    (price.origin ≠ .manual || price.provider.all (· = event.provider)) &&
    price.serviceTier.all (fun tier => event.serviceTier = some tier) &&
    decide (price.minInputTokens ≤ event.inputTokens) &&
    decide (price.effectiveFrom ≤ event.occurredAt)

def Origin.rank : Origin → Int
  | .manual => 0
  | .liteLlmLive => 1
  | .liteLlmPublic => 2

/-- The order of preference of an event's prices, the best the greatest. -/
def preference (event : UsageEvent) (price : ModelPrice) :
    Bool ×ₗ Bool ×ₗ Int ×ₗ Int ×ₗ Bool ×ₗ Int ×ₗ Nat :=
  toLex (price.model = event.model, toLex (price.serviceTier.isSome, toLex (-Origin.rank price.origin,
    toLex (price.minInputTokens, toLex (price.provider.isSome, toLex (price.effectiveFrom, price.id))))))

/-- The row of preference 1. -/
def chosen (pricedAs : PricedAs) (prices : List ModelPrice) (event : UsageEvent) :
    Option ModelPrice :=
  (prices.filter (matchesPrice pricedAs event)).foldl (fun best price =>
    match best with
    | some other => if preference event other < preference event price then some price else some other
    | none => some price) none

theorem chosen_eq (pricedAs : PricedAs) (prices : List ModelPrice) (event : UsageEvent) :
    chosen pricedAs prices event =
      (prices.filter (matchesPrice pricedAs event)).argmax (preference event) := by
  unfold chosen List.argmax
  congr 1
  funext best price
  cases best <;> rfl

/-- The row chosen is a matching one that none is preferred to. -/
theorem chosen_cases {pricedAs : PricedAs} {prices : List ModelPrice} {event : UsageEvent}
    {price : ModelPrice} (best : chosen pricedAs prices event = some price) :
    price ∈ prices ∧ matchesPrice pricedAs event price = true ∧ ∀ other ∈ prices,
      matchesPrice pricedAs event other = true → preference event other ≤ preference event price := by
  rw [chosen_eq] at best
  obtain ⟨member, matched⟩ := List.mem_filter.mp (List.argmax_mem best)
  refine ⟨member, matched, fun other listed matching => ?_⟩
  exact List.le_of_mem_argmax (List.mem_filter.mpr ⟨listed, matching⟩) best

def listCost (runtime : Sql.Runtime) (event : UsageEvent) (rates : Rates) : Sql.Float64 :=
  runtime.listCost
    [(max (event.inputTokens - event.cacheReadTokens - event.cacheWriteTokens) 0,
        rates.inputUsdPerMtok),
      (event.cacheReadTokens, rates.cachedInputUsdPerMtok),
      (event.cacheWriteTokens, rates.cacheWriteUsdPerMtok),
      (event.outputTokens, rates.outputUsdPerMtok)]

/-- The price `FILL` gives an event: none where it has its cost, or no price or account is
there to be joined. -/
def priceOf (pricedAs : PricedAs) (tables : Tables) (event : UsageEvent) :
    Option (ModelPrice × Account) :=
  if event.listCostUsd.isSome then none
  else do
    let price ← chosen pricedAs tables.prices event
    let account ← tables.accounts.find? (·.id = event.accountId)
    return (price, account)

def priced (runtime : Sql.Runtime) (event : UsageEvent) (price : ModelPrice) (account : Account) :
    UsageEvent :=
  let cost := listCost runtime event price.rates
  { event with
    priceId := some price.id
    listCostUsd := some cost
    billedCostUsd := event.billedCostUsd.or
      (some (if account.authKind = .oauth then .zero else cost)) }

/-- Picks one price per unpriced event and freezes its cost onto the event, answering the
events it priced. -/
def fillTables (runtime : Sql.Runtime) (pricedAs : PricedAs) (tables : Tables) :
    List EventId × Tables :=
  ((tables.events.filter fun event => (priceOf pricedAs tables event).isSome).map UsageEvent.id,
    { tables with
      events := tables.events.map fun event =>
        match priceOf pricedAs tables event with
        | some (price, account) => priced runtime event price account
        | none => event })

/-- `ModelPrice::fill`. -/
def fill (runtime : Sql.Runtime) (pricedAs : PricedAs) : Write (Ending Nat) := do
  let filled ← attempt fun tables => some (fillTables runtime pricedAs tables)
  onlyIf (filled ≠ []) (record .usage)
  commit (.database .query) filled.length

/-- Whether the event happened in the range. -/
def inRange (start finish : Option Timestamp) (event : UsageEvent) : Bool :=
  start.all (fun start => decide (start ≤ event.occurredAt)) &&
    finish.all fun finish => decide (event.occurredAt ≤ finish)

def forgotten (tables : Tables) (event : UsageEvent) : UsageEvent :=
  { event with
    priceId := none
    listCostUsd := none
    billedCostUsd := if tables.sources.any fun source =>
        source.id = event.sourceId && source.kind = .liteLlm
      then event.billedCostUsd else none }

def forgetTables (start finish : Option Timestamp) (tables : Tables) : Nat × Tables :=
  ((tables.events.filter (inRange start finish)).length,
    { tables with
      events := tables.events.map fun event =>
        if inRange start finish event then forgotten tables event else event })

/-- Forgets the cost of every event in the range and prices it again. A billed cost is kept
only where the upstream set it, which only a LiteLLM source does. -/
def reprice (runtime : Sql.Runtime) (pricedAs : PricedAs) (start finish : Option Timestamp) :
    Write (Ending Nat) := do
  let cleared ← attempt fun tables => some (forgetTables start finish tables)
  let filled ← attempt fun tables => some (fillTables runtime pricedAs tables)
  onlyIf (0 < cleared ∨ filled ≠ []) (record .usage)
  commit (.database .query) cleared

end MeteredUsage.Store.Cost

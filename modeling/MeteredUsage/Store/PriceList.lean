import Mathlib.Order.WithBot
import MeteredUsage.Library.Keyed
import MeteredUsage.Store.Cost
import MeteredUsage.Store.Events
import MeteredUsage.Store.Prices

/-! The list of prices: the latest row of each key, against the row of the key that a request now
is charged at. -/

namespace MeteredUsage.Store.PriceList
open MeteredUsage.Values MeteredUsage.Store.Schema MeteredUsage.Store.Prices
open MeteredUsage.Store.Cost MeteredUsage.Library.Keyed

structure PriceFilter where
  model : Option String
  origin : Option Origin
  history : Bool

def Origin.stored : Origin → String
  | .manual => "manual"
  | .liteLlmLive => "litellm_live"
  | .liteLlmPublic => "litellm_public"

/-- What a row is listed as: its provider, model, service tier, threshold and origin. -/
abbrev ListKey := Key × Origin

def listKey (price : ModelPrice) : ListKey := (keyOf price, price.origin)

/-- Whether a row of the same key begins to count after a price. -/
def isOutdated (prices : List ModelPrice) (price : ModelPrice) : Bool :=
  prices.any fun later => listKey later = listKey price && decide (since price < since later)

/-- The order of the list. A missing text comes first. -/
def listOrder (price : ModelPrice) :
    String ×ₗ WithBot String ×ₗ WithBot String ×ₗ Int ×ₗ String ×ₗ Int ×ₗ Int :=
  toLex (price.model, toLex (price.provider.elim ⊥ WithBot.some,
    toLex (price.serviceTier.elim ⊥ WithBot.some, toLex (price.minInputTokens,
      toLex (Origin.stored price.origin, toLex (-price.effectiveFrom, -price.id))))))

/-- Whether a filter asks for the rows of a key. -/
def PriceFilter.names (filter : PriceFilter) (key : ListKey) : Bool :=
  filter.model.all (· = key.1.2.1) && filter.origin.all (· = key.2)

/-- `ModelPrice::list`. -/
def list (filter : PriceFilter) (tables : Tables) : List ModelPrice :=
  (tables.prices.filter fun price => filter.names (listKey price) &&
    (filter.history || !isOutdated tables.prices price)).insertionSort fun first second =>
      listOrder first ≤ listOrder second

/-- The row `FILL`'s ordering chooses among those of a key for a request. -/
def chosenOf (key : ListKey) (prices : List ModelPrice) (event : UsageEvent) : Option ModelPrice :=
  (prices.filter fun price => listKey price = key &&
    decide (price.effectiveFrom ≤ event.occurredAt)).foldl (fun best price =>
      match best with
      | some other => if preference event other < preference event price then some price else some other
      | none => some price) none

variable {pricedAs : PricedAs} {prices : List ModelPrice} {event : UsageEvent} {key : ListKey}
  {price other : ModelPrice} {filter : PriceFilter} {tables : Tables}

/-- Of two rows of one key the one that begins to count later is preferred. -/
theorem preference_le_iff (event : UsageEvent) (same : listKey other = listKey price) :
    preference event other ≤ preference event price ↔ since other ≤ since price := by
  simp only [listKey, keyOf, Prod.mk.injEq] at same
  obtain ⟨⟨provider, model, tier, threshold⟩, origin⟩ := same
  simp only [preference, since, Prod.Lex.toLex_le_toLex, provider, model, tier, threshold, origin,
    lt_irrefl, true_and, false_or]

/-- The rows of a key match a request alike, but for their dates. -/
theorem matchesPrice_of_key (same : listKey other = listKey price)
    (matched : matchesPrice pricedAs event price = true) :
    matchesPrice pricedAs event other = decide (other.effectiveFrom ≤ event.occurredAt) := by
  simp only [listKey, keyOf, Prod.mk.injEq] at same
  obtain ⟨⟨provider, model, tier, threshold⟩, origin⟩ := same
  unfold matchesPrice at matched ⊢
  rw [Bool.and_eq_true] at matched
  rw [provider, model, tier, threshold, origin, matched.1, Bool.true_and]

theorem chosenOf_eq (key : ListKey) (prices : List ModelPrice) (event : UsageEvent) :
    chosenOf key prices event = (prices.filter fun price => listKey price = key &&
      decide (price.effectiveFrom ≤ event.occurredAt)).argmax (preference event) := by
  unfold chosenOf List.argmax
  congr 1
  funext best price
  cases best <;> rfl

/-- Where a row of a key is charged, `FILL` chooses among the rows of the key as its ordering
does. -/
theorem chosen_eq_chosenOf (named : listKey price = key)
    (matched : matchesPrice pricedAs event price = true) :
    chosen pricedAs (prices.filter fun row => listKey row = key) event = chosenOf key prices event := by
  rw [chosen_eq, chosenOf_eq, List.filter_filter]
  congr 1
  apply List.filter_congr
  intro row _
  by_cases same : listKey row = key
  · rw [matchesPrice_of_key (same.trans named.symm) matched, Bool.and_comm]
  · simp [same]

theorem isOutdated_eq_false_iff :
    isOutdated prices price = false ↔
      ∀ later ∈ prices, listKey later = listKey price → since later ≤ since price := by
  unfold isOutdated
  simp only [List.any_eq_false, Bool.and_eq_true, decide_eq_true_eq, not_and, not_lt]

/-- A row of a key is listed on its own where no row of the key begins to count after it. -/
theorem listed_iff (ids : Distinct ModelPrice.id tables.prices) (latestOnly : filter.history = false)
    (named : filter.names key = true) :
    (list filter tables).filter (fun row => listKey row = key) = [price] ↔
      price ∈ tables.prices ∧ listKey price = key ∧
        ∀ later ∈ tables.prices, listKey later = key → since later ≤ since price := by
  have shown (row : ModelPrice) : row ∈ (list filter tables).filter (fun row => listKey row = key) ↔
      row ∈ tables.prices ∧ listKey row = key ∧
        ∀ later ∈ tables.prices, listKey later = key → since later ≤ since row := by
    simp only [list, List.mem_filter, List.mem_insertionSort, latestOnly, Bool.false_or,
      Bool.and_eq_true, Bool.not_eq_true', isOutdated_eq_false_iff, decide_eq_true_eq]
    constructor
    · rintro ⟨⟨member, _, latest⟩, rfl⟩
      exact ⟨member, rfl, latest⟩
    · rintro ⟨member, rfl, latest⟩
      exact ⟨⟨member, named, latest⟩, rfl⟩
  have once : ((list filter tables).filter fun row => listKey row = key).Nodup := by
    have rows : tables.prices.Nodup := ids.imp fun apart same => apart (congrArg ModelPrice.id same)
    exact ((List.perm_insertionSort _ _).nodup_iff.mpr (rows.filter _)).filter _
  rw [← shown]
  constructor
  · intro alone
    rw [alone]
    exact List.mem_singleton_self price
  · intro member
    apply List.perm_singleton.mp
    apply (List.perm_ext_iff_of_nodup once (List.nodup_singleton price)).mpr
    intro row
    refine ⟨fun also => ?_, fun same => List.mem_singleton.mp same ▸ member⟩
    obtain ⟨stored, isKey, latest⟩ := (shown price).mp member
    obtain ⟨known, alsoKey, last⟩ := (shown row).mp also
    have equal : since row = since price := le_antisymm (latest row known alsoKey) (last price stored isKey)
    have one := ids.eq_of_key known stored (congrArg (fun stamp => (ofLex stamp).2) equal)
    exact List.mem_singleton.mpr one

/-- The row the list answers for a key is the one a request now is charged at exactly where no row of
the key is dated in the future. -/
theorem list_shows_charge_iff (filter : PriceFilter) (tables : Tables) (key : ListKey)
    (event : UsageEvent) (ids : Distinct ModelPrice.id tables.prices)
    (latestOnly : filter.history = false) (named : filter.names key = true)
    (inForce : ∃ price ∈ tables.prices, listKey price = key ∧
      price.effectiveFrom ≤ event.occurredAt) :
    (∃ price, (list filter tables).filter (fun row => listKey row = key) = [price] ∧
      chosenOf key tables.prices event = some price) ↔
    ∀ price ∈ tables.prices, listKey price = key → price.effectiveFrom ≤ event.occurredAt := by
  have among (row : ModelPrice) :
      row ∈ tables.prices.filter (fun price => listKey price = key &&
        decide (price.effectiveFrom ≤ event.occurredAt)) ↔
      row ∈ tables.prices ∧ listKey row = key ∧ row.effectiveFrom ≤ event.occurredAt := by
    simp only [List.mem_filter, Bool.and_eq_true, decide_eq_true_eq]
  constructor
  · intro ⟨price, alone, charged⟩ row member isKey
    rw [chosenOf_eq] at charged
    obtain ⟨_, _, latest⟩ := (listed_iff ids latestOnly named).mp alone
    obtain ⟨_, _, reached⟩ := (among price).mp (List.argmax_mem charged)
    have before : row.effectiveFrom ≤ price.effectiveFrom :=
      Prod.Lex.monotone_fst_ofLex (latest row member isKey)
    exact before.trans reached
  · intro reached
    obtain ⟨first, stored, isFirst, dated⟩ := inForce
    obtain ⟨price, charged⟩ : ∃ price, chosenOf key tables.prices event = some price := by
      apply Option.ne_none_iff_exists'.mp
      rw [chosenOf_eq, ne_eq, List.argmax_eq_none]
      exact List.ne_nil_of_mem ((among first).mpr ⟨stored, isFirst, dated⟩)
    have top := (chosenOf_eq key tables.prices event).symm.trans charged
    obtain ⟨member, isKey, _⟩ := (among price).mp (List.argmax_mem top)
    refine ⟨price, (listed_iff ids latestOnly named).mpr ⟨member, isKey, fun later known alsoKey => ?_⟩,
      charged⟩
    rw [← preference_le_iff event (alsoKey.trans isKey.symm)]
    exact List.le_of_mem_argmax ((among later).mpr ⟨known, alsoKey, reached later known alsoKey⟩) top

/-- A manual price of one model. -/
def manualRow (id : PriceId) (effectiveFrom : Timestamp) : ModelPrice where
  id := id
  provider := none
  model := "model"
  serviceTier := none
  minInputTokens := 0
  origin := .manual
  effectiveFrom := effectiveFrom
  rates := ⟨.one, .one, .one, .one⟩

def manualKey : ListKey := ((none, "model", none, 0), .manual)

def manualTable (dates : List Timestamp) : Tables :=
  { Tables.empty with prices := (dates.zipIdx 1).map fun row => manualRow row.2 row.1 }

/-- A request for the model at an instant. -/
def requestAt (now : Timestamp) : UsageEvent :=
  ({ Events.NewUsageEvent.idle "key" now with model := "model" } : Events.NewUsageEvent).row
    Sql.Runtime.inert 1 1 1

theorem a_past_price_is_shown :
    ∃ price, (list ⟨none, none, false⟩ (manualTable [1, 3, 2])).filter
        (fun row => listKey row = manualKey) = [price] ∧
      chosenOf manualKey (manualTable [1, 3, 2]).prices (requestAt 4) = some price := by
  apply (list_shows_charge_iff _ _ _ _ (by simp [Distinct, manualTable, manualRow]) rfl rfl
    ⟨manualRow 1 1, by simp [manualTable], rfl, by decide⟩).mpr
  decide

/-- A price dated in the future is listed in the place of the one a request now is charged. -/
theorem a_future_price_is_shown :
    (list ⟨none, none, false⟩ (manualTable [1, 5])).filter (fun row => listKey row = manualKey) =
        [manualRow 2 5] ∧
      chosenOf manualKey (manualTable [1, 5]).prices (requestAt 4) = some (manualRow 1 1) ∧
      chosen [] (manualTable [1, 5]).prices (requestAt 4) = some (manualRow 1 1) := by
  decide

end MeteredUsage.Store.PriceList

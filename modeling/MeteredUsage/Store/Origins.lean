import MeteredUsage.Store.Cost
import MeteredUsage.Store.Events

/-! Where the price of a request comes from: the origin of the row `FILL` freezes, against the
origins of the other rows that match the event. -/

namespace MeteredUsage.Store.Origins
open MeteredUsage.Values MeteredUsage.Store.Schema MeteredUsage.Store.Cost

variable {pricedAs : PricedAs} {tables : Tables} {event : UsageEvent} {price other : ModelPrice}
  {account : Account}

/-- A price row `FILL` ranks for an event. -/
def Matches (pricedAs : PricedAs) (tables : Tables) (event : UsageEvent) (price : ModelPrice) : Prop :=
  price ∈ tables.prices ∧ matchesPrice pricedAs event price = true

/-- No matching row is of a better origin. -/
def BestOrigin (pricedAs : PricedAs) (tables : Tables) (event : UsageEvent) (price : ModelPrice) :
    Prop :=
  ∀ other, Matches pricedAs tables event other → Origin.rank price.origin ≤ Origin.rank other.origin

/-- What `FILL` ranks before the origin: the exact name, then naming a service tier. -/
def standing (event : UsageEvent) (price : ModelPrice) : Bool ×ₗ Bool :=
  toLex (price.model = event.model, price.serviceTier.isSome)

/-- A matching row of the best origin stands as high as any matching row. -/
def BestOriginLeads (pricedAs : PricedAs) (tables : Tables) (event : UsageEvent) : Prop :=
  ∃ price, Matches pricedAs tables event price ∧ BestOrigin pricedAs tables event price ∧
    ∀ other, Matches pricedAs tables event other → standing event other ≤ standing event price

/-- A preferred row stands as high, and where both stand alike its origin is as good. -/
theorem standing_le (preferred : preference event other ≤ preference event price) :
    standing event other ≤ standing event price ∧
      (standing event other = standing event price →
        Origin.rank price.origin ≤ Origin.rank other.origin) := by
  unfold preference at preferred
  unfold standing
  rw [Prod.Lex.toLex_le_toLex] at preferred ⊢
  rcases preferred with exacter | ⟨exact', preferred⟩
  · refine ⟨.inl exacter, fun same => ?_⟩
    have equal := congrArg (fun stand => (ofLex stand).1) same
    exact absurd equal exacter.ne
  · rw [Prod.Lex.toLex_le_toLex] at preferred
    rcases preferred with tiered | ⟨tier, preferred⟩
    · refine ⟨.inr ⟨exact', tiered.le⟩, fun same => ?_⟩
      have equal := congrArg (fun stand => (ofLex stand).2) same
      exact absurd equal tiered.ne
    · refine ⟨.inr ⟨exact', tier.le⟩, fun _ => ?_⟩
      rw [Prod.Lex.toLex_le_toLex] at preferred
      rcases preferred with better | ⟨alike, _⟩ <;> simp only at * <;> omega

theorem priceOf_cases (frozen : priceOf pricedAs tables event = some (price, account)) :
    Matches pricedAs tables event price ∧ ∀ other, Matches pricedAs tables event other →
      preference event other ≤ preference event price := by
  unfold priceOf at frozen
  split at frozen
  next => cases frozen
  next =>
    obtain ⟨best, chosen, rest⟩ := Option.bind_eq_some_iff.mp frozen
    obtain ⟨found, _, same⟩ := Option.bind_eq_some_iff.mp rest
    cases same
    obtain ⟨member, matched, top⟩ := chosen_cases chosen
    exact ⟨⟨member, matched⟩, fun other row => top other row.1 row.2⟩

/-- The row `FILL` freezes has the best origin there is exactly where a row of that origin is not
outdone by the name or the tier of a row of another. -/
theorem best_origin_iff (frozen : priceOf pricedAs tables event = some (price, account)) :
    BestOrigin pricedAs tables event price ↔ BestOriginLeads pricedAs tables event := by
  obtain ⟨matched, top⟩ := priceOf_cases frozen
  constructor
  · intro best
    exact ⟨price, matched, best, fun other row => (standing_le (top other row)).1⟩
  · rintro ⟨leader, row, best, leads⟩ other listed
    obtain ⟨below, ranks⟩ := standing_le (top leader row)
    have level : standing event leader = standing event price :=
      le_antisymm below (leads price matched)
    exact (ranks level).trans (best other listed)

/-- A price of a model from the beginning on. -/
def priceRow (id : PriceId) (origin : Origin) (serviceTier : Option String) : ModelPrice where
  id := id
  provider := none
  model := "model"
  serviceTier := serviceTier
  minInputTokens := 0
  origin := origin
  effectiveFrom := 0
  rates := ⟨.one, .one, .one, .one⟩

/-- A request for the model at the priority tier. -/
def request : UsageEvent :=
  ({ Events.NewUsageEvent.idle "key" 1 with model := "model", serviceTier := some "priority" } :
    Events.NewUsageEvent).row Sql.Runtime.inert 1 1 1

def payer : Account := ⟨1, 1, "codex", "key", .apiKey, none, none, none, 0, 0⟩

def priceTable (prices : List ModelPrice) : Tables :=
  { Tables.empty with accounts := [payer], prices := prices }

theorem a_manual_price_is_frozen :
    BestOrigin [] (priceTable [priceRow 1 .manual none, priceRow 2 .liteLlmPublic none]) request
      (priceRow 1 .manual none) := by
  have frozen : priceOf [] (priceTable [priceRow 1 .manual none, priceRow 2 .liteLlmPublic none])
      request = some (priceRow 1 .manual none, payer) := by decide
  refine (best_origin_iff frozen).mpr ⟨_, (priceOf_cases frozen).1, ?_, ?_⟩
  · intro other _
    cases other.origin <;> decide
  · rintro other ⟨member, _⟩
    have listed : ∀ price ∈ [priceRow 1 .manual none, priceRow 2 .liteLlmPublic none],
        standing request price ≤ standing request (priceRow 1 .manual none) := by decide
    exact listed other member

/-- A public price for the tier a request names is frozen in the place of a manual one that names
none. -/
theorem a_public_tier_is_frozen :
    priceOf [] (priceTable [priceRow 1 .manual none, priceRow 2 .liteLlmPublic (some "priority")])
      request = some (priceRow 2 .liteLlmPublic (some "priority"), payer) ∧
    Matches [] (priceTable [priceRow 1 .manual none, priceRow 2 .liteLlmPublic (some "priority")])
      request (priceRow 1 .manual none) ∧
    ¬ BestOrigin [] (priceTable [priceRow 1 .manual none,
      priceRow 2 .liteLlmPublic (some "priority")]) request
        (priceRow 2 .liteLlmPublic (some "priority")) := by
  have matched : Matches [] (priceTable [priceRow 1 .manual none,
      priceRow 2 .liteLlmPublic (some "priority")]) request (priceRow 1 .manual none) :=
    ⟨List.mem_cons_self, by decide⟩
  refine ⟨by decide, matched, fun best => ?_⟩
  exact absurd (best _ matched) (by decide)

end MeteredUsage.Store.Origins

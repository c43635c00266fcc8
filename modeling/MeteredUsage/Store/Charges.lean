import MeteredUsage.Store.SyncedPrices

/-! What a request is charged after a map was recorded, against what it would be charged by a
database that never knew another map. -/

namespace MeteredUsage.Store.Charges
open MeteredUsage.Values MeteredUsage.Store.Schema MeteredUsage.Store.Prices
open MeteredUsage.Store.CostMap MeteredUsage.Store.Cost MeteredUsage.Store.Commands
open MeteredUsage.Store.SyncedPrices MeteredUsage.Library.Execution MeteredUsage.Library.Keyed
open MeteredUsage.Library.Versions

variable {pricedAs : PricedAs} {event : UsageEvent} {origin : Origin} {now : Timestamp}
  {base : List ModelPrice} {prices : List CatalogPrice} {tables : Tables}

/-- Whether an entry of a key is one for the event: its model's, of its tier or none, with a
threshold its input reaches. -/
def fits (event : UsageEvent) (key : Key) : Bool :=
  key.2.1 = event.model && key.2.2.1.all (fun tier => event.serviceTier = some tier) &&
    decide (key.2.2.2 ≤ event.inputTokens)

theorem matches_of_fits {row : ModelPrice} (synced : row.origin ≠ .manual)
    (dated : row.effectiveFrom ≤ event.occurredAt) (fit : fits event (keyOf row) = true) :
    matchesPrice pricedAs event row = true := by
  simp only [fits, keyOf, Bool.and_eq_true] at fit
  obtain ⟨⟨named, tier⟩, reached⟩ := fit
  simp [matchesPrice, of_decide_eq_true named, tier, of_decide_eq_true reached, synced, dated]

theorem fits_of_matches {row : ModelPrice} (named : row.model = event.model)
    (matching : matchesPrice pricedAs event row = true) : fits event (keyOf row) = true := by
  simp only [matchesPrice, Bool.and_eq_true] at matching
  simp only [fits, keyOf, Bool.and_eq_true]
  exact ⟨⟨decide_eq_true named, matching.1.1.2⟩, matching.1.2⟩

/-- A row of the event's own model is not passed over for one of another name. -/
theorem named_of_le {row other : ModelPrice} (named : row.model = event.model)
    (le : preference event row ≤ preference event other) : other.model = event.model := by
  simp only [preference, Prod.Lex.toLex_le_toLex, named, decide_true] at le
  by_contra apart
  simp only [apart, decide_false, reduceCtorEq, false_and, or_false] at le
  exact absurd le (by decide)

/-- How FILL orders the entries of one map for a model: by tier, then by threshold. -/
def place (key : Key) : Bool ×ₗ Int := toLex (key.2.2.1.isSome, key.2.2.2)

theorem place_le {row other : ModelPrice} (models : row.model = other.model)
    (origins : row.origin = other.origin) (le : preference event row ≤ preference event other) :
    place (keyOf row) ≤ place (keyOf other) := by
  simp only [preference, Prod.Lex.toLex_le_toLex, models, origins, lt_self_iff_false, false_or,
    true_and] at le
  refine Prod.Lex.toLex_le_toLex.mpr (le.imp id fun tiers => ⟨tiers.1, ?_⟩)
  exact tiers.2.elim le_of_lt fun thresholds => thresholds.1.le

theorem since_le {row other : ModelPrice} (keys : keyOf row = keyOf other)
    (origins : row.origin = other.origin) (le : preference event row ≤ preference event other) :
    since row ≤ since other := by
  simp only [keyOf, Prod.mk.injEq] at keys
  obtain ⟨provider, model, tier, threshold⟩ := keys
  simp only [preference, Prod.Lex.toLex_le_toLex, provider, model, tier, threshold, origins,
    lt_self_iff_false, false_or, true_and] at le
  exact Prod.Lex.toLex_le_toLex.mpr le

/-- After a map is recorded, an event one of its entries is for is charged by a row of its own
model, which no other such row is preferred to. -/
theorem exists_chosen (pricedAs : PricedAs) (followed : Followed origin now base prices tables)
    (synced : origin ≠ .manual) (later : now ≤ event.occurredAt)
    (matching : ∃ entry ∈ prices, fits event entry.key = true) :
    ∃ row, chosen pricedAs tables.prices event = some row ∧ row ∈ tables.prices ∧
      fits event (keyOf row) = true ∧ ∀ other ∈ tables.prices,
        matchesPrice pricedAs event other = true → preference event other ≤ preference event row := by
  obtain ⟨entry, listed, fit⟩ := matching
  obtain ⟨rates, named⟩ := exists_rates listed
  obtain ⟨known, latest, _⟩ := followed.latest entry.key rates named
  have fitting : fits event (keyOf known) = true := latest.same ▸ fit
  have matched : matchesPrice pricedAs event known = true :=
    matches_of_fits (followed.origins known latest.member ▸ synced)
      ((followed.dated known latest.member).trans later) fitting
  have present : known ∈ tables.prices.filter (matchesPrice pricedAs event) :=
    List.mem_filter.mpr ⟨latest.member, matched⟩
  obtain ⟨row, best⟩ : ∃ row, chosen pricedAs tables.prices event = some row := by
    apply Option.ne_none_iff_exists'.mp
    rw [chosen_eq, ne_eq, List.argmax_eq_none]
    exact List.ne_nil_of_mem present
  have top : row ∈ (tables.prices.filter (matchesPrice pricedAs event)).argmax (preference event) := by
    rw [← chosen_eq]
    exact best
  obtain ⟨member, matchedRow⟩ := List.mem_filter.mp (List.argmax_mem top)
  have ofModel : known.model = event.model := by
    simp only [fits, keyOf, Bool.and_eq_true] at fitting
    exact of_decide_eq_true fitting.1.1
  have rowModel := named_of_le ofModel (List.le_of_mem_argmax present top)
  exact ⟨row, best, member, fits_of_matches rowModel matchedRow, fun other stored matchedOther =>
    List.le_of_mem_argmax (List.mem_filter.mpr ⟨stored, matchedOther⟩) top⟩

/-- A charged row whose key the map has is charged at the map's rates. -/
theorem agree_of_chosen (followed : Followed origin now base prices tables)
    (synced : origin ≠ .manual) (later : now ≤ event.occurredAt) {row : ModelPrice}
    (member : row ∈ tables.prices) (fit : fits event (keyOf row) = true)
    (best : ∀ other ∈ tables.prices, matchesPrice pricedAs event other = true →
      preference event other ≤ preference event row)
    (listed : keyOf row ∈ prices.map CatalogPrice.key) :
    ∃ rates, ratesIn prices (keyOf row) = some rates ∧ Agree row.rates rates := by
  obtain ⟨entry, isEntry, same⟩ := List.mem_map.mp listed
  obtain ⟨rates, named⟩ := exists_rates isEntry
  rw [same] at named
  obtain ⟨known, latest, agree⟩ := followed.latest (keyOf row) rates named
  have matched : matchesPrice pricedAs event known = true :=
    matches_of_fits (followed.origins known latest.member ▸ synced)
      ((followed.dated known latest.member).trans later) (latest.same.symm ▸ fit)
  have later := since_le latest.same
    ((followed.origins known latest.member).trans (followed.origins row member).symm)
    (best known latest.member matched)
  have equal : since known = since row := le_antisymm later (latest.last row member rfl)
  have one : known = row :=
    followed.ids.eq_of_key latest.member member (congrArg (fun stamp => (ofLex stamp).2) equal)
  exact ⟨rates, named, one ▸ agree⟩

theorem model_of_fits {key : Key} (fit : fits event key = true) : key.2.1 = event.model := by
  simp only [fits, Bool.and_eq_true] at fit
  exact of_decide_eq_true fit.1.1

/-- No entry for the event comes before the key it is charged by. -/
theorem place_le_of_entry (followed : Followed origin now base prices tables)
    (synced : origin ≠ .manual) (later : now ≤ event.occurredAt) {row : ModelPrice}
    (member : row ∈ tables.prices) (fit : fits event (keyOf row) = true)
    (best : ∀ other ∈ tables.prices, matchesPrice pricedAs event other = true →
      preference event other ≤ preference event row)
    {entry : CatalogPrice} (listed : entry ∈ prices) (entryFit : fits event entry.key = true) :
    place entry.key ≤ place (keyOf row) := by
  obtain ⟨rates, named⟩ := exists_rates listed
  obtain ⟨known, latest, _⟩ := followed.latest entry.key rates named
  have fitting : fits event (keyOf known) = true := latest.same ▸ entryFit
  have matched : matchesPrice pricedAs event known = true :=
    matches_of_fits (followed.origins known latest.member ▸ synced)
      ((followed.dated known latest.member).trans later) fitting
  rw [← latest.same]
  exact place_le ((model_of_fits fitting).trans (model_of_fits fit).symm)
    ((followed.origins known latest.member).trans (followed.origins row member).symm)
    (best known latest.member matched)

theorem key_eq {floats : Floats} {map : Map} {first second : CatalogPrice}
    (left : first ∈ (catalogOf floats map).prices) (right : second ∈ (catalogOf floats map).prices)
    (leftFit : fits event first.key = true) (rightFit : fits event second.key = true)
    (same : place first.key = place second.key) : first.key = second.key := by
  have models : first.model = second.model :=
    (model_of_fits leftFit).trans (model_of_fits rightFit).symm
  have providers := one_provider left right models
  obtain ⟨tiers, thresholds⟩ := Prod.mk.inj (toLex.injective same)
  have tier : first.serviceTier = second.serviceTier := by
    simp only [fits, CatalogPrice.key, Bool.and_eq_true] at leftFit rightFit tiers
    cases firstTier : first.serviceTier with
    | none =>
      rw [firstTier] at tiers
      exact (Option.not_isSome_iff_eq_none.mp (by rw [← tiers]; decide)).symm
    | some tier =>
      rw [firstTier] at tiers leftFit
      obtain ⟨other, secondTier⟩ := Option.isSome_iff_exists.mp tiers.symm
      rw [secondTier] at rightFit
      rw [secondTier, ← of_decide_eq_true leftFit.1.2, ← of_decide_eq_true rightFit.1.2]
  exact Prod.ext providers (Prod.ext models (Prod.ext tier thresholds))

/-- A map recorded, and what its transaction meets. -/
structure Sync where
  map : Map
  report : SyncReport
  world : World

def syncStep (floats : Floats) (origin : Origin) (tables : Tables) (sync : Sync) : Option Tables :=
  landed ((catalogOf floats sync.map).record origin sync.report) (sync.world.session tables)

/-- A map is recorded after those before it, by the clock and by the ids. -/
def InTurn (tables : Tables) (sync : Sync) : Prop := Ready tables sync.world

variable {floats : Floats}

theorem followed_run {start : Tables} {syncs : List Sync} {last : Sync}
    (empty : start.prices = []) (met : Meets (syncStep floats origin) InTurn start (syncs ++ [last]))
    (reached : run (syncStep floats origin) start (syncs ++ [last]) = some tables) :
    ∃ base, Followed origin (last.world.clock 0) base (catalogOf floats last.map).prices tables := by
  obtain ⟨middle, before, ended⟩ := (run_append _ _ _ _ _).mp reached
  obtain ⟨metBefore, metLast⟩ := meets_append met before
  obtain ⟨final, taken, rfl⟩ : ∃ final, syncStep floats origin middle last = some final ∧
      final = tables := by
    obtain ⟨final, taken, rest⟩ := (run_cons _ _ _ _ _).mp ended
    exact ⟨final, taken, Option.some.inj rest⟩
  have known : OfOrigin origin middle := by
    apply invariant_run _ _ metBefore before
    · intro tables sync next known ready taken
      have followed := followed_record ready known taken
      exact ⟨followed.origins, followed.ids⟩
    · exact ⟨by simp [empty], by simp [empty, Distinct]⟩
  exact ⟨middle.prices, followed_record (metLast final taken).1 known taken⟩

/-- FILL charges the event at the rates of the map's entry that a database with no other map
uses: the first by tier and threshold. -/
def ChargedAsFresh (pricedAs : PricedAs) (prices : List CatalogPrice) (tables fresh : Tables)
    (event : UsageEvent) (account : Account) : Prop :=
  ∃ price other rates, priceOf pricedAs tables event = some (price, account) ∧
    chosen pricedAs fresh.prices event = some other ∧ keyOf price = keyOf other ∧
    ratesIn prices (keyOf price) = some rates ∧ Agree price.rates rates ∧ Agree other.rates rates ∧
    ∀ entry ∈ prices, fits event entry.key = true → place entry.key ≤ place (keyOf price)

/-- A row of a key the map no longer has is one FILL prefers to all the map led to. -/
def Overshadowed (pricedAs : PricedAs) (prices : List CatalogPrice) (tables : Tables)
    (event : UsageEvent) : Prop :=
  ∃ stale ∈ tables.prices, keyOf stale ∉ prices.map CatalogPrice.key ∧
    matchesPrice pricedAs event stale = true ∧
    ∀ row ∈ tables.prices, keyOf row ∈ prices.map CatalogPrice.key →
      matchesPrice pricedAs event row = true → preference event row < preference event stale

theorem id_of_preference {row other : ModelPrice}
    (same : preference event row = preference event other) : row.id = other.id := by
  simp only [preference, toLex_inj, Prod.mk.injEq] at same
  exact same.2.2.2.2.2.2

/-- An unpriced request one of the last map's entries is for, made after that map was recorded,
and a database that only ever recorded that map. -/
structure Later (floats : Floats) (origin : Origin) (start : Tables) (syncs : List Sync)
    (last alone : Sync) (tables fresh : Tables) (event : UsageEvent) (account : Account) : Prop where
  synced : origin ≠ .manual
  empty : start.prices = []
  inTurn : Meets (syncStep floats origin) InTurn start (syncs ++ [last])
  reached : run (syncStep floats origin) start (syncs ++ [last]) = some tables
  sameMap : alone.map = last.map
  ready : Ready Tables.empty alone.world
  freshly : syncStep floats origin Tables.empty alone = some fresh
  later : last.world.clock 0 ≤ event.occurredAt
  laterAlone : alone.world.clock 0 ≤ event.occurredAt
  unpriced : event.listCostUsd = none
  account : tables.accounts.find? (·.id = event.accountId) = some account
  entry : ∃ entry ∈ (catalogOf floats last.map).prices, fits event entry.key = true

/-- After any maps of one origin, the last of them decides what a later event of its models is
charged, unless a key it dropped is preferred to all its own. -/
theorem charged_as_fresh_iff {start fresh : Tables} {syncs : List Sync} {last alone : Sync}
    {account : Account}
    (request : Later floats origin start syncs last alone tables fresh event account) :
    ChargedAsFresh pricedAs (catalogOf floats last.map).prices tables fresh event account ↔
      ¬Overshadowed pricedAs (catalogOf floats last.map).prices tables event := by
  obtain ⟨synced, empty, met, reached, sameMap, aloneReady, freshly, later, laterAlone, unpriced,
    charged, matching⟩ := request
  obtain ⟨base, followed⟩ := followed_run empty met reached
  have none_before : OfOrigin origin Tables.empty := ⟨nofun, List.Pairwise.nil⟩
  have alone_followed := followed_record aloneReady none_before freshly
  rw [sameMap] at alone_followed
  obtain ⟨price, best, member, fit, top⟩ := exists_chosen pricedAs followed synced later matching
  obtain ⟨other, otherBest, otherMember, otherFit, otherTop⟩ :=
    exists_chosen pricedAs alone_followed synced laterAlone matching
  have picked : priceOf pricedAs tables event = some (price, account) := by
    unfold priceOf
    rw [unpriced, best, Option.isSome_none, if_neg Bool.false_ne_true, charged]
    rfl
  have matched : matchesPrice pricedAs event price = true :=
    matches_of_fits (followed.origins price member ▸ synced)
      ((followed.dated price member).trans later) fit
  have otherListed := (alone_followed.keys other otherMember).resolve_left nofun
  constructor
  · rintro ⟨found, fresher, _, pickedFound, pickedFresher, same, _⟩ ⟨stale, stored, dropped, applies, above⟩
    obtain rfl : price = found :=
      (Prod.mk.inj (Option.some.inj (picked.symm.trans pickedFound))).1
    obtain rfl : other = fresher := Option.some.inj (otherBest.symm.trans pickedFresher)
    have lower := above price member (same ▸ otherListed) matched
    exact absurd lower (top stale stored applies).not_gt
  · intro clear
    have listed : keyOf price ∈ (catalogOf floats last.map).prices.map CatalogPrice.key := by
      by_contra dropped
      apply clear
      refine ⟨price, member, dropped, matched, fun row stored rowListed rowMatched => ?_⟩
      apply lt_of_le_of_ne (top row stored rowMatched)
      intro equal
      have one := followed.ids.eq_of_key stored member (id_of_preference equal)
      exact dropped (one ▸ rowListed)
    obtain ⟨entry, isEntry, entryKey⟩ := List.mem_map.mp listed
    obtain ⟨otherEntry, isOther, otherKey⟩ := List.mem_map.mp otherListed
    have entryFit : fits event entry.key = true := entryKey ▸ fit
    have otherEntryFit : fits event otherEntry.key = true := otherKey ▸ otherFit
    have up := place_le_of_entry alone_followed synced laterAlone otherMember otherFit otherTop
      isEntry entryFit
    have down := place_le_of_entry followed synced later member fit top isOther otherEntryFit
    rw [← otherKey] at up
    rw [← entryKey] at down
    have same : keyOf price = keyOf other := by
      rw [← entryKey, ← otherKey]
      exact key_eq isEntry isOther entryFit otherEntryFit (le_antisymm up down)
    obtain ⟨rates, named, agree⟩ := agree_of_chosen followed synced later member fit top listed
    obtain ⟨others, otherNamed, otherAgree⟩ :=
      agree_of_chosen alone_followed synced laterAlone otherMember otherFit otherTop otherListed
    rw [← same, named] at otherNamed
    cases otherNamed
    exact ⟨price, other, rates, picked, otherBest, same, named, agree, otherAgree,
      fun _ => place_le_of_entry followed synced later member fit top⟩

/-- A price per token and the double of it, as JSON writes them, and what they are worked out to. -/
def cents : Floats where
  asF64 text := if text = "1e-06" then some ⟨0x3eb0c6f7a0b5ed8d⟩ else some ⟨0x3ec0c6f7a0b5ed8d⟩
  times first second :=
    if second = tokensPerMillion then if first = ⟨0x3eb0c6f7a0b5ed8d⟩ then .one else ⟨0x4000000000000000⟩
    else if first = .one then ratePrecision else ⟨0x41ddcd6500000000⟩
  round := id
  divide first _ := if first = ratePrecision then .one else ⟨0x4000000000000000⟩
  whole _ := "0"

/-- A model's map, with or without a long-context price. -/
def modelMap (long : Bool) : Map where
  members := [("model", .object ([("input_cost_per_token", .number "1e-06"),
    ("output_cost_per_token", .number "1e-06")] ++
      if long then [("input_cost_per_token_above_200k_tokens", .number "2e-06")] else []))]
  keys := by simp

def modelSync (long : Bool) (now : Timestamp) (ids : Nat) : Sync :=
  ⟨modelMap long, ⟨0, 0, []⟩, .calm now fun next => ids + next⟩

def longRequest : UsageEvent :=
  ({ Events.NewUsageEvent.idle "key" 2 with model := "model", inputTokens := 300000 } :
    Events.NewUsageEvent).row .inert 1 1 1

def requester : Account := ⟨1, 1, "codex", "key", .apiKey, none, none, none, 0, 0⟩

theorem ready_of {tables : Tables} {now : Timestamp} {ids : Nat} (epoch : 0 ≤ now)
    (before : ∀ row ∈ tables.prices, row.effectiveFrom ≤ now ∧ row.id < ids) :
    Ready tables (.calm now fun next => ids + next) where
  epoch := epoch
  dated := fun row member => (before row member).1
  below := fun row member => (before row member).2
  rising := fun next => Nat.lt_succ_self (ids + next)

instance (pricedAs : PricedAs) (prices : List CatalogPrice) (tables : Tables) (event : UsageEvent) :
    Decidable (Overshadowed pricedAs prices tables event) :=
  inferInstanceAs (Decidable (∃ stale ∈ tables.prices, _ ∧ _ ∧ ∀ row ∈ tables.prices, _ → _ → _))

/-- The threshold an event is charged by, and the one it would be with the last map alone. -/
def thresholdsOf (tables fresh : Tables) (event : UsageEvent) : Option Int × Option Int :=
  ((priceOf [] tables event).map fun charge => charge.1.minInputTokens,
    (chosen [] fresh.prices event).map ModelPrice.minInputTokens)

/-- A long request after a map with a long-context price, and then one with it or without. -/
theorem exists_later (long : Bool) : ∃ tables fresh,
    Later cents .liteLlmPublic { Tables.empty with accounts := [requester] }
      [modelSync true 0 1] (modelSync long 1 10) (modelSync long 1 1) tables fresh longRequest
      requester ∧
    thresholdsOf tables fresh longRequest = (some 200001, some (if long then 200001 else 0)) ∧
    (Overshadowed [] (catalogOf cents (modelMap long)).prices tables longRequest ↔ long = false) := by
  let start : Tables := { Tables.empty with accounts := [requester] }
  have ran : ((syncStep cents .liteLlmPublic start (modelSync true 0 1)).any fun middle =>
      (syncStep cents .liteLlmPublic middle (modelSync long 1 10)).any fun tables =>
        (syncStep cents .liteLlmPublic Tables.empty (modelSync long 1 1)).any fun fresh =>
          decide ((∀ row ∈ middle.prices, row.effectiveFrom ≤ 1 ∧ row.id < 10) ∧
            tables.accounts.find? (·.id = longRequest.accountId) = some requester ∧
            thresholdsOf tables fresh longRequest =
              (some 200001, some (if long then 200001 else 0)) ∧
            (Overshadowed [] (catalogOf cents (modelMap long)).prices tables longRequest ↔
              long = false))) = true := by
    cases long <;> decide +kernel
  obtain ⟨middle, first, ran⟩ := (Option.any_eq_true _ _).mp ran
  obtain ⟨tables, second, ran⟩ := (Option.any_eq_true _ _).mp ran
  obtain ⟨fresh, freshly, facts⟩ := (Option.any_eq_true _ _).mp ran
  obtain ⟨before, account, thresholds, overshadowed⟩ := of_decide_eq_true facts
  refine ⟨tables, fresh, ?_, thresholds, overshadowed⟩
  have opening : Ready start (modelSync true 0 1).world := ready_of (by decide) nofun
  have closing : Ready middle (modelSync long 1 10).world := ready_of (by decide) before
  exact {
    synced := by decide
    empty := rfl
    inTurn := meets_cons first opening (meets_cons second closing trivial)
    reached := (run_cons _ _ _ _ _).mpr ⟨middle, first, (run_cons _ _ _ _ _).mpr ⟨tables, second, rfl⟩⟩
    sameMap := rfl
    ready := ready_of (by decide) nofun
    freshly := freshly
    later := (by decide : (1 : Int) ≤ 2)
    laterAlone := (by decide : (1 : Int) ≤ 2)
    unpriced := rfl
    account := account
    entry := by cases long <;> decide +kernel }

/-- A threshold the last map still has is charged as it has it. -/
theorem a_kept_threshold_is_charged : ∃ tables fresh,
    Later cents .liteLlmPublic { Tables.empty with accounts := [requester] }
      [modelSync true 0 1] (modelSync true 1 10) (modelSync true 1 1) tables fresh longRequest
      requester ∧
    ChargedAsFresh [] (catalogOf cents (modelMap true)).prices tables fresh longRequest requester := by
  obtain ⟨tables, fresh, request, _, overshadowed⟩ := exists_later true
  exact ⟨tables, fresh, request,
    (charged_as_fresh_iff request).mpr fun lower => Bool.noConfusion (overshadowed.mp lower)⟩

/-- A threshold the last map dropped is charged on. -/
theorem a_dropped_threshold_is_charged : ∃ tables fresh,
    Later cents .liteLlmPublic { Tables.empty with accounts := [requester] }
      [modelSync true 0 1] (modelSync false 1 10) (modelSync false 1 1) tables fresh longRequest
      requester ∧
    ¬ChargedAsFresh [] (catalogOf cents (modelMap false)).prices tables fresh longRequest requester := by
  obtain ⟨tables, fresh, request, thresholds, _⟩ := exists_later false
  refine ⟨tables, fresh, request, ?_⟩
  rintro ⟨price, other, rates, charged, chosen, same, _⟩
  rw [thresholdsOf, charged, chosen] at thresholds
  obtain ⟨left, right⟩ := Prod.mk.inj thresholds
  have long : price.minInputTokens = 200001 := Option.some.inj left
  have base : other.minInputTokens = 0 := Option.some.inj right
  have equal : price.minInputTokens = other.minInputTokens :=
    congrArg (fun key : Key => key.2.2.2) same
  omega

end MeteredUsage.Store.Charges

import MeteredUsage.Analytics.Metrics
import MeteredUsage.Store.Arrivals
import MeteredUsage.Store.Charges
import MeteredUsage.Store.Repricing

/-! The list cost of every event is frozen at the rates of the one price row it names, with costs
kept as exact numbers beside the stored floats. -/

namespace MeteredUsage.Analytics.FrozenCosts
open MeteredUsage.Values MeteredUsage.Store.Schema MeteredUsage.Store.Ingest
open MeteredUsage.Store.Validity MeteredUsage.Store.Statements MeteredUsage.Store.Upkeep
open MeteredUsage.Store.Commands MeteredUsage.Store.Cost MeteredUsage.Store.Prices
open MeteredUsage.Store.Repricing MeteredUsage.Analytics.Metrics
open MeteredUsage.Library.Keyed MeteredUsage.Library.Transaction MeteredUsage.Library.Execution

variable {runtime : Store.Sql.Runtime} {value : Store.Sql.Float64 → ℚ} {tables next : Tables}
  {costs : List (Option ℚ)}

/-- Stored rates as the numbers they stand for. -/
def exactRates (value : Store.Sql.Float64 → ℚ) (rates : Rates) : ExactRates where
  inputUsdPerMtok := value rates.inputUsdPerMtok
  cachedInputUsdPerMtok := value rates.cachedInputUsdPerMtok
  cacheWriteUsdPerMtok := value rates.cacheWriteUsdPerMtok
  outputUsdPerMtok := value rates.outputUsdPerMtok

/-- `FILL`'s list cost of an event, as a number. -/
def exactCost (value : Store.Sql.Float64 → ℚ) (event : UsageEvent) (rates : Rates) : ℚ :=
  ((max (event.inputTokens - event.cacheReadTokens - event.cacheWriteTokens) 0 : ℤ) *
        value rates.inputUsdPerMtok +
      event.cacheReadTokens * value rates.cachedInputUsdPerMtok +
      event.cacheWriteTokens * value rates.cacheWriteUsdPerMtok +
      event.outputTokens * value rates.outputUsdPerMtok) / 1000000

/-- The database, with `list_cost_usd` of each event as a number. -/
structure Ledger where
  tables : Tables
  costs : List (Option ℚ)

/-- `list_cost_usd` after `FILL`. -/
def fillCosts (value : Store.Sql.Float64 → ℚ) (pricedAs : PricedAs) (tables : Tables)
    (costs : List (Option ℚ)) : List (Option ℚ) :=
  List.zipWith (fun event cost =>
    match priceOf pricedAs tables event with
    | some (price, _) => some (exactCost value event price.rates)
    | none => cost) tables.events costs

/-- `list_cost_usd` once the costs of a range are forgotten. -/
def forgetCosts (start finish : Option Timestamp) (tables : Tables) (costs : List (Option ℚ)) :
    List (Option ℚ) :=
  List.zipWith (fun event cost => if inRange start finish event then none else cost) tables.events costs

/-- `list_cost_usd` after an act that left `next`: an `INSERT` leaves it NULL. -/
def costsAfter (value : Store.Sql.Float64 → ℚ) (ledger : Ledger) (next : Tables) : Act → List (Option ℚ)
  | .write (.fill pricedAs) _ => fillCosts value pricedAs ledger.tables ledger.costs
  | .write (.reprice pricedAs start finish) _ =>
    fillCosts value pricedAs (forgetTables start finish ledger.tables).2
      (forgetCosts start finish ledger.tables ledger.costs)
  | .write (.ingest _ _) _ =>
    ledger.costs ++ (Store.Arrivals.added ledger.tables next).map fun _ => none
  | _ => ledger.costs

def ledgerStep (runtime : Store.Sql.Runtime) (value : Store.Sql.Float64 → ℚ) (ledger : Ledger) (act : Act) :
    Option Ledger :=
  (actStep runtime ledger.tables act).map fun next => ⟨next, costsAfter value ledger next act⟩

/-- What stores events, prices them or moves them, and what adds prices. -/
def isCosting : Act → Bool
  | .write command _ => Store.Arrivals.writesUsage command
  | .price .. | .map .. => true

/-- An event and its list cost, at the rates of the row it names. -/
inductive AtItsPrice (runtime : Store.Sql.Runtime) (value : Store.Sql.Float64 → ℚ)
    (prices : List ModelPrice) (event : UsageEvent) : Option ℚ → Prop where
  | unpriced (noRow : event.priceId = none) (noCost : event.listCostUsd = none) :
    AtItsPrice runtime value prices event none
  | priced (price : ModelPrice) (member : price ∈ prices) (row : event.priceId = some price.id)
    (stored : event.listCostUsd = some (Store.Cost.listCost runtime event price.rates)) :
    AtItsPrice runtime value prices event (some (exactCost value event price.rates))

/-- Every event is at its price. -/
structure Costed (runtime : Store.Sql.Runtime) (value : Store.Sql.Float64 → ℚ) (tables : Tables)
    (costs : List (Option ℚ)) : Prop where
  ids : Distinct ModelPrice.id tables.prices
  rows : List.Forall₂ (AtItsPrice runtime value tables.prices) tables.events costs

theorem forall₂_map_zipWith {Row Cost : Type} {before after : Row → Cost → Prop} {change : Row → Row}
    {recost : Row → Cost → Cost} {rows : List Row} {costs : List Cost}
    (each : ∀ row cost, before row cost → after (change row) (recost row cost))
    (pairs : List.Forall₂ before rows costs) :
    List.Forall₂ after (rows.map change) (List.zipWith recost rows costs) := by
  induction pairs with
  | nil => exact .nil
  | cons first _ ih => exact .cons (each _ _ first) ih

theorem forall_mem_zipWith {Row Cost Pair : Type} {related : Row → Cost → Prop} {holds : Pair → Prop}
    {join : Row → Cost → Pair} {rows : List Row} {costs : List Cost}
    (each : ∀ row cost, related row cost → holds (join row cost))
    (pairs : List.Forall₂ related rows costs) : ∀ pair ∈ List.zipWith join rows costs, holds pair := by
  induction pairs with
  | nil => exact nofun
  | cons first _ ih => exact List.forall_mem_cons.mpr ⟨each _ _ first, ih⟩

theorem mem_of_chosen {pricedAs : PricedAs} {prices : List ModelPrice} {event : UsageEvent}
    {price : ModelPrice} (best : chosen pricedAs prices event = some price) : price ∈ prices :=
  (chosen_cases best).1

theorem atItsPrice_filled {pricedAs : PricedAs} {event : UsageEvent} {cost : Option ℚ}
    (atPrice : AtItsPrice runtime value tables.prices event cost) :
    AtItsPrice runtime value tables.prices (filled runtime pricedAs tables event)
      (match priceOf pricedAs tables event with
      | some (price, _) => some (exactCost value event price.rates)
      | none => cost) := by
  unfold filled
  cases found : priceOf pricedAs tables event with
  | none => exact atPrice
  | some row =>
    obtain ⟨price, account⟩ := row
    have member : price ∈ tables.prices := by
      unfold priceOf at found
      split at found
      next => cases found
      next =>
        obtain ⟨best, named, found⟩ := Option.bind_eq_some_iff.mp found
        obtain ⟨known, _, same⟩ := Option.bind_eq_some_iff.mp found
        cases same
        exact mem_of_chosen named
    exact .priced price member rfl rfl

theorem costed_filled (costed : Costed runtime value tables costs) (pricedAs : PricedAs) :
    Costed runtime value (fillTables runtime pricedAs tables).2 (fillCosts value pricedAs tables costs) where
  ids := costed.ids
  rows := forall₂_map_zipWith (fun _ _ => atItsPrice_filled) costed.rows

theorem costed_forgotten (costed : Costed runtime value tables costs) (start finish : Option Timestamp) :
    Costed runtime value (forgetTables start finish tables).2 (forgetCosts start finish tables costs) where
  ids := costed.ids
  rows := by
    refine forall₂_map_zipWith (fun event cost atPrice => ?_) costed.rows
    cases inRange start finish event with
    | true => exact .unpriced rfl rfl
    | false => exact atPrice

theorem costed_ignores : IgnoresFeed fun tables => Costed runtime value tables costs :=
  fun _ _ costed => ⟨costed.ids, costed.rows⟩

theorem holds_recordUsage_costed (costed : Costed runtime value tables costs) (condition : Prop)
    [Decidable condition] :
    Holds (fun start => start = tables) (onlyIf condition (record .usage))
      fun _ after => Costed runtime value after costs := by
  apply Holds.onlyIf
  · exact fun _ => (holds_record costed_ignores .usage).weaken (fun _ same => same ▸ costed)
      fun _ _ final => final
  · exact fun _ _ same => same ▸ costed

theorem holds_fill_costed (costed : Costed runtime value tables costs) (pricedAs : PricedAs) :
    Holds (fun start => start = tables) (fill runtime pricedAs)
      (OnCommit fun after => Costed runtime value after (fillCosts value pricedAs tables costs)) := by
  apply attempt_at
  intro events middle written
  have rewritten : (fillTables runtime pricedAs tables).2 = middle :=
    (Prod.mk.inj (Option.some.inj written)).2
  have final := rewritten ▸ costed_filled costed pricedAs
  exact (holds_recordUsage_costed final _).bind fun _ => holds_commit _

theorem holds_reprice_costed (costed : Costed runtime value tables costs) (pricedAs : PricedAs)
    (start finish : Option Timestamp) :
    Holds (fun begun => begun = tables) (reprice runtime pricedAs start finish)
      (OnCommit fun after => Costed runtime value after
        (fillCosts value pricedAs (forgetTables start finish tables).2
          (forgetCosts start finish tables costs))) := by
  apply attempt_at
  intro cleared cleanup forgot
  have without : (forgetTables start finish tables).2 = cleanup :=
    (Prod.mk.inj (Option.some.inj forgot)).2
  rw [without]
  apply attempt_at
  intro events middle written
  have rewritten : (fillTables runtime pricedAs cleanup).2 = middle :=
    (Prod.mk.inj (Option.some.inj written)).2
  have final := rewritten ▸ costed_filled (without ▸ costed_forgotten costed start finish) pricedAs
  exact (holds_recordUsage_costed final _).bind fun _ => holds_commit _

/-- A merge moves an event with its price and its cost. -/
theorem costed_combined (costed : Costed runtime value tables costs) (id into : AccountId)
    (merged : Account) : Costed runtime value (Store.Arrivals.combined id into merged tables) costs where
  ids := costed.ids
  rows := by
    have events : (Store.Arrivals.combined id into merged tables).events =
        tables.events.map (Store.Sparing.movedEvent id into) := Store.Sparing.moveEvents_eq into tables
    rw [events, List.forall₂_map_left_iff]
    apply costed.rows.imp
    intro event cost atPrice
    cases atPrice with
    | unpriced noRow noCost => exact .unpriced noRow noCost
    | priced price member row stored => exact .priced price member row stored

/-- A row that is added takes no event from the row that priced it. -/
theorem costed_inserts (row : ModelPrice) :
    Holds (fun tables => Costed runtime value tables costs) (attempt (insertRow row))
      fun _ tables => Costed runtime value tables costs := by
  apply holds_attempt
  intro tables _ after costed taken
  unfold insertRow at taken
  split at taken
  next => cases taken
  next unused =>
    cases taken
    refine ⟨costed.ids.append_singleton (by simpa using unused), costed.rows.imp ?_⟩
    intro event cost atPrice
    cases atPrice with
    | unpriced noRow noCost => exact .unpriced noRow noCost
    | priced price member row stored => exact .priced price (List.mem_append_left _ member) row stored

theorem costed_taken {source : SourceId} {receivedAt : Timestamp} {progress after : Progress}
    {record : Store.Events.Incoming} {stored : List UsageEvent} {base : Tables}
    (events : tables.events = base.events ++ stored)
    (costed : Costed runtime value tables (costs ++ stored.map fun _ => none))
    (taken : Store.Intake.Taken runtime source receivedAt tables progress record after next) :
    ∃ stored, next.events = base.events ++ stored ∧
      Costed runtime value next (costs ++ stored.map fun _ => none) := by
  cases taken with
  | rejected error payload id => exact ⟨stored, events, costed.ids, costed.rows⟩
  | duplicate event candidate owner isNewCredential accounts => exact ⟨stored, events, costed.ids, costed.rows⟩
  | accepted event candidate owner isNewCredential accounts id arrival row _ _ _ _ appended =>
    subst appended
    refine ⟨stored ++ [event.row runtime id source owner], ?_, costed.ids, ?_⟩
    · exact (congrArg (· ++ _) events).trans (List.append_assoc _ _ _)
    · rw [List.map_append, ← List.append_assoc]
      exact List.rel_append costed.rows (.cons (.unpriced rfl rfl) .nil)

theorem costed_ingest (costed : Costed runtime value tables costs) {source : SourceId}
    (records : List Store.Events.Incoming) :
    Holds (fun begun => begun = tables) (ingest runtime source records)
      (OnCommit fun after => Costed runtime value after
        (costs ++ (Store.Arrivals.added tables after).map fun _ => none)) := by
  rw [Store.Landing.ingest_eq]
  apply Holds.reading_then
  intro receivedAt
  apply Holds.reading_then
  intro now
  let extended (after : Tables) : Prop := ∃ stored, after.events = tables.events ++ stored ∧
    Costed runtime value after (costs ++ stored.map fun _ => none)
  have ignores : IgnoresFeed extended := by
    rintro after feed ⟨stored, events, extended⟩
    exact ⟨stored, events, costed_ignores _ _ extended⟩
  have kept : Holds extended (Store.Landing.ingesting runtime source records receivedAt now)
      fun ending after => ∀ progress, ending = .committed progress → extended after := by
    apply Store.Intake.holds_ingesting_taken fun _ _ => ignores
    rintro done record rest _ progress middle next after ⟨stored, events, extended⟩ taken
    exact costed_taken events extended taken
  apply kept.weaken
  · rintro begun rfl
    refine ⟨[], (List.append_nil _).symm, ?_⟩
    rw [List.map_nil, List.append_nil]
    exact costed
  · intro ending after final
    cases ending with
    | dropped _ => trivial
    | committed progress =>
      obtain ⟨stored, events, extended⟩ := final progress rfl
      have added : Store.Arrivals.added tables after = stored := by
        rw [Store.Arrivals.added, events, List.drop_left]
      change Costed runtime value after _
      rw [added]
      exact extended

/-- Every act keeps every event at its price. -/
theorem costed_step {ledger after : Ledger} {act : Act}
    (costed : Costed runtime value ledger.tables ledger.costs) (costing : isCosting act = true)
    (taken : ledgerStep runtime value ledger act = some after) :
    Costed runtime value after.tables after.costs := by
  obtain ⟨next, acted, rfl⟩ := Option.map_eq_some_iff.mp taken
  cases act with
  | write command world =>
    have performed := step_iff.mp acted
    cases command with
    | ingest source records =>
      obtain ⟨_, final⟩ := performed_holds (costed_ingest costed records) rfl performed
      exact final
    | fill pricedAs =>
      obtain ⟨_, final⟩ := performed_holds (holds_fill_costed costed pricedAs) rfl performed
      exact final
    | reprice pricedAs start finish =>
      obtain ⟨_, final⟩ :=
        performed_holds (holds_reprice_costed costed pricedAs start finish) rfl performed
      exact final
    | merge id into requires =>
      obtain ⟨_, merged, target, changes, _, _, entries, rfl, _⟩ :=
        performed_holds (Store.Arrivals.holds_merge_combined id into requires) rfl performed
      exact costed_ignores _ _ (costed_combined costed id into merged)
    | _ => cases costing
  | price price origin world =>
    obtain ⟨_, final⟩ := performed_holds (holds_insert costed_ignores costed_inserts price origin) costed
      (landed_iff.mp acted)
    exact final
  | map catalog origin report world =>
    obtain ⟨_, final⟩ := performed_holds
      (holds_recordMap costed_ignores costed_inserts catalog origin report) costed (landed_iff.mp acted)
    exact final

theorem costed_run {ledger after : Ledger} {acts : List Act}
    (costed : Costed runtime value ledger.tables ledger.costs) (costing : ∀ act ∈ acts, isCosting act = true)
    (reached : run (ledgerStep runtime value) ledger acts = some after) :
    Costed runtime value after.tables after.costs := by
  induction acts generalizing ledger with
  | nil =>
    cases reached
    exact costed
  | cons act rest ih =>
    obtain ⟨middle, taken, later⟩ := (run_cons _ _ _ _ _).mp reached
    have first := costed_step costed (costing act List.mem_cons_self) taken
    exact ih first (fun other member => costing other (List.mem_cons_of_mem _ member)) later

/-- An event with its costs, left joined to the price row it names. -/
def joinedRow (value : Store.Sql.Float64 → ℚ) (prices : List ModelPrice) (event : UsageEvent)
    (cost : Option ℚ) : Joined where
  event := event
  listCostUsd := cost
  billedCostUsd := event.billedCostUsd.map value
  price := (prices.find? fun price => event.priceId = some price.id).map fun price =>
    exactRates value price.rates

/-- The rows of `METRICS`' `FROM`. -/
def joined (value : Store.Sql.Float64 → ℚ) (ledger : Ledger) : List Joined :=
  List.zipWith (joinedRow value ledger.tables.prices) ledger.tables.events ledger.costs

theorem found_of_row (ids : Distinct ModelPrice.id tables.prices) {event : UsageEvent} {price : ModelPrice}
    (member : price ∈ tables.prices) (row : event.priceId = some price.id) :
    tables.prices.find? (fun price => event.priceId = some price.id) = some price := by
  have sameTest : (fun other : ModelPrice => decide (event.priceId = some other.id)) =
      fun other => decide (other.id = price.id) := by
    funext other
    simp only [row, Option.some.injEq, eq_comm]
  have found : lookup ModelPrice.id tables.prices price.id = some price :=
    (lookup_eq_some ids).mpr ⟨member, rfl⟩
  rw [sameTest]
  exact found

theorem AtItsPrice.frozen {event : UsageEvent} {cost : Option ℚ}
    (atPrice : AtItsPrice runtime value tables.prices event cost) (ids : Distinct ModelPrice.id tables.prices) :
    Frozen (joinedRow value tables.prices event cost) ∧
      (joinedRow value tables.prices event cost).price.isNone = event.priceId.isNone := by
  cases atPrice with
  | unpriced noRow noCost => simp [Frozen, joinedRow, noRow]
  | priced price member row stored =>
    have priced : (joinedRow value tables.prices event (some (exactCost value event price.rates))).price =
        some (exactRates value price.rates) :=
      congrArg (Option.map fun price : ModelPrice => exactRates value price.rates)
        (found_of_row ids member row)
    rw [Frozen, priced, row]
    exact ⟨rfl, rfl⟩

theorem frozen_joined {ledger : Ledger} (costed : Costed runtime value ledger.tables ledger.costs) :
    ∀ row ∈ joined value ledger, Frozen row ∧ row.price.isNone = row.event.priceId.isNone := by
  exact forall_mem_zipWith (fun event cost atPrice => AtItsPrice.frozen atPrice costed.ids) costed.rows

/-- What is promised of costs: each event is at the rates of the price row it names, the parts of
the list cost of any events add up to it, and their unpriced requests are those that name no row,
which add nothing to it. -/
structure CostsMatch (runtime : Store.Sql.Runtime) (value : Store.Sql.Float64 → ℚ) (ledger : Ledger) : Prop where
  ids : Distinct ModelPrice.id ledger.tables.prices
  rows : List.Forall₂ (AtItsPrice runtime value ledger.tables.prices) ledger.tables.events ledger.costs
  parts : ∀ rows, rows ⊆ joined value ledger →
    (metrics rows).uncachedInputCostUsd + (metrics rows).cacheReadCostUsd +
      (metrics rows).cacheWriteCostUsd + (metrics rows).outputCostUsd = (metrics rows).listCostUsd
  unpriced : ∀ rows, rows ⊆ joined value ledger →
    (metrics rows).unpricedRequests = rows.countP fun row => row.event.priceId.isNone
  nothing : ∀ row ∈ joined value ledger, addsNothing row = row.event.priceId.isNone

theorem costs_match {base : Tables} (start : base.events = []) (ids : Distinct ModelPrice.id base.prices)
    {acts : List Act} (costing : ∀ act ∈ acts, isCosting act = true) {ledger : Ledger}
    (reached : run (ledgerStep runtime value) ⟨base, []⟩ acts = some ledger) :
    CostsMatch runtime value ledger := by
  have initial : Costed runtime value base [] := ⟨ids, start ▸ .nil⟩
  have costed := costed_run initial costing reached
  have frozen := frozen_joined costed
  refine ⟨costed.ids, costed.rows, fun rows inside => ?_, fun rows inside => ?_, fun row member => ?_⟩
  · exact parts_sum fun row member => (frozen row (inside member)).1
  · rw [unpriced_eq fun row member => (frozen row (inside member)).1]
    refine congrArg Nat.cast (List.countP_congr fun row member => ?_)
    rw [(frozen row (inside member)).2]
  · obtain ⟨frozenRow, priced⟩ := frozen row member
    rw [frozenRow.unpriced.2, priced]

/-- A request that used a million input tokens or none, its pricing, and the correction of its price. -/
def pricedTwice (used : Int) : List Act :=
  let request := { Store.Events.NewUsageEvent.idle "key" 0 with model := "model", inputTokens := used }
  [.write (.ingest 1 [.record request]) (.calm 0 (· + 1)), .price (modelPrice .one) .manual (.calm 0 (· + 3)),
    .write (.fill []) (.calm 0 id), .price (modelPrice two) .manual (.calm 0 (· + 4)),
    .write (.reprice [] none none) (.calm 0 id)]

/-- The two rates of the example. -/
def oneOrTwo (rate : Store.Sql.Float64) : ℚ := if rate = two then 2 else 1

theorem priced_twice_match : ∃ ledger,
    run (ledgerStep .inert oneOrTwo) ⟨Store.Arrivals.unused, []⟩ (pricedTwice 1000000) = some ledger ∧
      ledger.costs = [some 2] ∧ CostsMatch .inert oneOrTwo ledger := by
  have ran : ((run (ledgerStep .inert oneOrTwo) ⟨Store.Arrivals.unused, []⟩ (pricedTwice 1000000)).any
      fun ledger => decide (ledger.costs = [some 2])) = true := by decide +kernel
  have unused : Distinct ModelPrice.id Store.Arrivals.unused.prices := List.Pairwise.nil
  obtain ⟨ledger, reached, costs⟩ := (Option.any_eq_true _ _).mp ran
  exact ⟨ledger, reached, of_decide_eq_true costs, costs_match rfl unused (by decide) reached⟩

/-- A priced request that used nothing adds zero to every sum, and is not unpriced. -/
theorem a_free_request_is_priced : ∃ ledger,
    run (ledgerStep .inert oneOrTwo) ⟨Store.Arrivals.unused, []⟩ (pricedTwice 0) = some ledger ∧
      (metrics (joined oneOrTwo ledger)).unpricedRequests ≠ (joined oneOrTwo ledger).countP addsZero := by
  have ran : ((run (ledgerStep .inert oneOrTwo) ⟨Store.Arrivals.unused, []⟩ (pricedTwice 0)).any
      fun ledger => decide ((metrics (joined oneOrTwo ledger)).unpricedRequests ≠
        (joined oneOrTwo ledger).countP addsZero)) = true := by decide +kernel
  obtain ⟨ledger, reached, differs⟩ := (Option.any_eq_true _ _).mp ran
  exact ⟨ledger, reached, of_decide_eq_true differs⟩

end MeteredUsage.Analytics.FrozenCosts

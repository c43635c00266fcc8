import MeteredUsage.Collector.LiteLlm
import MeteredUsage.Store.Prices
import MeteredUsage.Store.Provenance

/-! Pricing every event again, against pricing its record from scratch. A stored event no longer
tells a billed cost its gateway reported from one an earlier fill put there, so the two agree
exactly where no fill and no change of a source's kind stands between the record and the row. -/

namespace MeteredUsage.Store.Repricing
open MeteredUsage.Values MeteredUsage.Store.Schema MeteredUsage.Store.Accounts
open MeteredUsage.Store.Events MeteredUsage.Store.Ingest MeteredUsage.Store.Validity
open MeteredUsage.Store.Statements MeteredUsage.Store.Upkeep MeteredUsage.Store.Commands
open MeteredUsage.Store.Merged MeteredUsage.Store.Commits MeteredUsage.Store.Cost MeteredUsage.Store.Prices
open MeteredUsage.Store.Exhaustion MeteredUsage.Store.Provenance
open MeteredUsage.Library.Execution MeteredUsage.Library.Transaction

variable {runtime : Sql.Runtime} {pricedAs : PricedAs} {delivered : List Record}
  {tables next : Tables}

/-- A write of the service, or prices added: by a person, or with a map. -/
inductive Act where
  | write (command : Command) (world : World)
  | price (price : NewPrice) (origin : Origin) (world : World)
  | map (catalog : Catalog) (origin : Origin) (report : SyncReport) (world : World)

def actStep (runtime : Sql.Runtime) (tables : Tables) : Act → Option Tables
  | .write command world => step runtime tables (command, world)
  | .price price origin world => landed (insert price origin) (world.session tables)
  | .map catalog origin report world => landed (catalog.record origin report) (world.session tables)

/-- The records an act delivers. -/
def Act.delivers : Act → List Record
  | .write command _ => deliveredBy command
  | .price .. | .map .. => []

def deliveryOf (acts : List Act) : List Record := acts.flatMap Act.delivers

/-- What adding prices leaves: the rows of every other table. -/
def Beside (base tables : Tables) : Prop :=
  ∃ prices feed, tables = { base with prices := prices, feed := feed }

theorem beside_ignores {base : Tables} : IgnoresFeed (Beside base) := by
  rintro _ feed ⟨prices, _, rfl⟩
  exact ⟨prices, feed, rfl⟩

theorem beside_inserts {base : Tables} (row : ModelPrice) :
    Holds (Beside base) (attempt (insertRow row)) fun _ => Beside base := by
  apply holds_attempt
  rintro _ _ after ⟨prices, feed, rfl⟩ taken
  unfold insertRow at taken
  split at taken
  next => cases taken
  next =>
    cases taken
    exact ⟨prices ++ [row], feed, rfl⟩

section Added

variable {kept : Tables → Prop} (ignores : IgnoresFeed kept)
  (inserts : ∀ row, Holds kept (attempt (insertRow row)) fun _ => kept)

include ignores inserts

/-- What every inserted row keeps, an insert keeps. -/
theorem holds_insert (price : NewPrice) (origin : Origin) :
    Holds kept (insert price origin) (OnCommit kept) := by
  apply Holds.nextId_then
  intro id
  apply (inserts _).bind
  intro _
  apply (holds_record ignores _).bind
  exact fun _ => holds_commit _

omit ignores in
theorem holds_recordNext (origin : Origin) (now : Timestamp) (recording : Recording)
    (price : CatalogPrice) :
    Holds kept (recordNext origin now recording price) fun _ => kept := by
  unfold recordNext
  split
  next => exact Holds.pure fun _ initial => initial
  next =>
    apply Holds.nextId_then
    intro id
    apply (inserts _).bind
    exact fun _ => Holds.pure fun _ initial => initial

/-- What every inserted row keeps, the rows of a map keep. -/
theorem holds_recordMap (catalog : Catalog) (origin : Origin) (report : SyncReport) :
    Holds kept (catalog.record origin report) (OnCommit kept) := by
  apply Holds.reading_then
  intro now
  apply fetch_then
  intro rows
  have added : Holds (fun tables => kept tables ∧ rows = known origin tables)
      (catalog.prices.foldlM (recordNext origin now) ⟨latestOf rows, [], report⟩) fun _ => kept :=
    (Holds.foldlM_keeps fun price _ recording =>
      holds_recordNext inserts origin now recording price).weaken
        (fun _ known => known.1) fun _ _ initial => initial
  apply added.bind
  intro recording
  apply (Holds.forM fun model _ => holds_record ignores (.price model)).bind
  exact fun _ => holds_commit _

end Added

theorem beside_self (base : Tables) : Beside base base := ⟨base.prices, base.feed, rfl⟩

/-- Whatever was done, the stored state is valid and each event has its record. -/
theorem traced_act {act : Act} (valid : Valid False tables)
    (traced : Traced runtime delivered tables) (taken : actStep runtime tables act = some next) :
    Valid False next ∧ Traced runtime (delivered ++ act.delivers) next := by
  have beside (beside : Beside tables next) :
      Valid False next ∧ Traced runtime (delivered ++ []) next := by
    obtain ⟨prices, feed, rfl⟩ := beside
    rw [List.append_nil]
    exact ⟨{ valid with }, traced.known, traced.records⟩
  cases act with
  | write command world => exact ⟨valid_step valid nofun taken, traced_step valid traced taken⟩
  | price price origin world =>
    obtain ⟨_, after⟩ := performed_holds (holds_insert beside_ignores beside_inserts price origin)
      (beside_self _) (landed_iff.mp taken)
    exact beside after
  | map catalog origin report world =>
    obtain ⟨_, after⟩ := performed_holds
      (holds_recordMap beside_ignores beside_inserts catalog origin report) (beside_self _)
      (landed_iff.mp taken)
    exact beside after

theorem traced_run {acts : List Act} (valid : Valid False tables)
    (traced : Traced runtime delivered tables)
    (reached : run (actStep runtime) tables acts = some next) :
    Valid False next ∧ Traced runtime (delivered ++ deliveryOf acts) next := by
  induction acts generalizing tables delivered with
  | nil =>
    cases reached
    rw [show deliveryOf [] = [] from rfl, List.append_nil]
    exact ⟨valid, traced⟩
  | cons act rest ih =>
    obtain ⟨middle, taken, later⟩ := (run_cons _ _ _ _ _).mp reached
    obtain ⟨validMiddle, tracedMiddle⟩ := traced_act valid traced taken
    have final := ih validMiddle tracedMiddle later
    rw [List.append_assoc] at final
    exact final

/-- An event as a fill leaves it. -/
def filled (runtime : Sql.Runtime) (pricedAs : PricedAs) (tables : Tables) (event : UsageEvent) :
    UsageEvent :=
  match priceOf pricedAs tables event with
  | some (price, account) => priced runtime event price account
  | none => event

/-- The event a record leads to, where it is ingested into an empty table beside the stored
accounts and prices and filled once. -/
def fromScratch (runtime : Sql.Runtime) (pricedAs : PricedAs) (tables : Tables) (record : Record)
    (id : EventId) : Option UsageEvent := do
  let owner ← chargedTo tables.accounts record
  let ingested ← insertEvent (record.2.row runtime id record.1 owner) { tables with events := [] }
  (fillTables runtime pricedAs ingested.2).2.events.head?

/-- What was paid for an event, and at which price. -/
def costs (event : UsageEvent) : Option PriceId × Option Sql.Float64 × Option Sql.Float64 :=
  (event.priceId, event.listCostUsd, event.billedCostUsd)

theorem fromScratch_eq {record : Record} {event : UsageEvent} (valid : Valid False tables)
    (member : event ∈ tables.events) (first : recordOf runtime delivered event = some record)
    (stores : Stores runtime tables.accounts record event) (id : EventId) :
    fromScratch runtime pricedAs tables record id =
      some (filled runtime pricedAs tables (record.2.row runtime id record.1 event.accountId)) := by
  have sameSource : record.1 = event.sourceId := (Prod.mk.inj (recordKey_of_recordOf first)).1
  obtain ⟨account, stored, named, inSource, _⟩ := valid.eventAccounts event member
  obtain ⟨source, present, same⟩ := valid.accountSources account stored
  have sourced : tables.sources.any (·.id = record.1) = true :=
    List.any_eq_true.mpr ⟨source, present,
      decide_eq_true (same.trans (inSource.trans sameSource.symm))⟩
  have accounted : tables.accounts.any (·.id = event.accountId) = true :=
    List.any_eq_true.mpr ⟨account, stored, decide_eq_true named⟩
  have inserted : insertEvent (record.2.row runtime id record.1 event.accountId)
      { tables with events := [] } = some (true, { tables with
        events := [record.2.row runtime id record.1 event.accountId] }) := by
    unfold insertEvent
    rw [if_neg (by simp), if_neg (by simp)]
    exact if_pos ⟨sourced, accounted⟩
  unfold fromScratch
  rw [stores.owned, Option.bind_eq_bind, Option.bind_some, inserted]
  rfl

/-- Whether an event's source is one of LiteLLM's now. -/
def ofLiteLlm (tables : Tables) (event : UsageEvent) : Bool :=
  tables.sources.any fun source => source.id = event.sourceId && source.kind = .liteLlm

/-- What repricing every event leaves. -/
def Repriced (runtime : Sql.Runtime) (pricedAs : PricedAs) (base after : Tables) : Prop :=
  ∃ feed, after = { base with
    events := base.events.map fun event => filled runtime pricedAs base (forgotten base event)
    feed := feed }

theorem holds_repriceAll (base : Tables) :
    Holds (fun tables => tables = base) (reprice runtime pricedAs none none)
      (OnCommit (Repriced runtime pricedAs base)) := by
  have ignores : IgnoresFeed (Repriced runtime pricedAs base) := by
    rintro _ feed ⟨_, rfl⟩
    exact ⟨feed, rfl⟩
  apply attempt_at
  intro cleared middle forgot
  have forgotAll : middle = { base with events := base.events.map (forgotten base) } :=
    (Prod.mk.inj (Option.some.inj forgot)).2.symm
  apply attempt_at
  intro priced after fills
  have start : Repriced runtime pricedAs base after := by
    refine ⟨base.feed, ?_⟩
    rw [← (Prod.mk.inj (Option.some.inj fills)).2, forgotAll]
    simp only [List.map_map]
    rfl
  have recorded : Holds (fun tables => tables = after)
      (onlyIf (0 < cleared ∨ priced ≠ []) (record .usage))
      fun _ => Repriced runtime pricedAs base := by
    apply Holds.onlyIf
    · exact fun _ => (holds_record ignores .usage).weaken (fun _ same => same ▸ start)
        fun _ _ repriced => repriced
    · exact fun _ _ same => same ▸ start
  exact recorded.bind fun _ => holds_commit _

/-- Each event as the reprice left it costs what its record would, and a billed cost outlives the
clearing only where the record carried one. -/
def AsFromScratch (runtime : Sql.Runtime) (delivered : List Record) (tables : Tables) : Prop :=
  (∀ pricedAs world next, step runtime tables (.reprice pricedAs none none, world) = some next →
    ∀ event ∈ next.events, ∃ record, recordOf runtime delivered event = some record ∧
      ∀ id, (fromScratch runtime pricedAs tables record id).map costs = some (costs event)) ∧
  ∀ event ∈ tables.events, ∀ record, recordOf runtime delivered event = some record →
    (forgotten tables event).billedCostUsd.isSome = true → record.2.billedCostUsd.isSome = true

/-- No fill has put a billed cost on an event of a source that is LiteLLM's now, nor a reprice
dropped one, and no record of any other source carried one. -/
def Unblended (runtime : Sql.Runtime) (delivered : List Record) (tables : Tables) : Prop :=
  ∀ event ∈ tables.events, ∀ record ∈ recordOf runtime delivered event,
    if ofLiteLlm tables event then event.billedCostUsd = record.2.billedCostUsd
    else record.2.billedCostUsd = none

theorem unblended_iff :
    Unblended runtime delivered tables ↔
      ∀ event ∈ tables.events, ∀ record, recordOf runtime delivered event = some record →
        (forgotten tables event).billedCostUsd = record.2.billedCostUsd := by
  apply forall_congr'
  intro event
  apply forall_congr'
  intro member
  apply forall_congr'
  intro record
  apply imp_congr Iff.rfl
  change (if ofLiteLlm tables event then _ else _) ↔
    (if ofLiteLlm tables event then event.billedCostUsd else none) = _
  split
  · exact Iff.rfl
  · exact eq_comm

theorem reprice_commits (runtime : Sql.Runtime) (pricedAs : PricedAs) (tables : Tables) :
    ∃ next, step runtime tables (.reprice pricedAs none none, .calm 0 id) = some next := by
  let session := (World.calm 0 id).session tables
  have calm : Calm session := ⟨fun _ => rfl, fun next => (Nat.zero_add next).symm⟩
  have commits : Succeeds (fun _ _ => True) (reprice runtime pricedAs none none)
      fun ending _ _ => ∃ count, ending = .committed count := by
    have statement {Value : Type} (effect : Tables → Value × Tables) :
        Succeeds (fun _ _ => True) (attempt fun tables => some (effect tables)) fun _ _ _ => True :=
      succeeds_attempt fun _ tables _ => ⟨_, _, rfl, trivial⟩
    apply (statement _).bind
    intro cleared
    apply (statement _).bind
    intro filled
    apply (Succeeds.onlyIf (fun _ => succeeds_record .usage) fun _ _ _ _ => trivial).bind
    exact fun _ => Succeeds.commit fun _ _ _ => ⟨cleared, rfl⟩
  obtain ⟨_, finish, ran, -, count, rfl⟩ := commits.runs session calm trivial
  have committed := transact_committed.mpr ⟨finish, ran, rfl⟩
  exact ⟨finish.data, step_iff.mpr (performed_iff.mpr ⟨count, committed⟩)⟩

theorem uncosted_filled (event : UsageEvent) :
    uncosted (filled runtime pricedAs tables event) = uncosted event := by
  unfold filled
  split <;> rfl

theorem eq_of_uncosted {first second : UsageEvent} (same : uncosted first = uncosted second)
    (cost : costs first = costs second) : first = second := by
  cases first
  cases second
  simp_all [uncosted, costs]

/-- An event of another id is priced alike. -/
theorem costs_row (record : Record) (first second : EventId) (owner : AccountId) :
    costs (filled runtime pricedAs tables (record.2.row runtime first record.1 owner)) =
      costs (filled runtime pricedAs tables (record.2.row runtime second record.1 owner)) := by
  have same : priceOf pricedAs tables (record.2.row runtime first record.1 owner) =
      priceOf pricedAs tables (record.2.row runtime second record.1 owner) := rfl
  unfold filled
  rw [same]
  cases priceOf pricedAs tables (record.2.row runtime second record.1 owner) <;> rfl

/-- Without a price no event is filled. -/
theorem filled_unpriced (event : UsageEvent) :
    filled runtime pricedAs { tables with prices := [] } event = event := by
  have none_chosen : priceOf pricedAs { tables with prices := [] } event = none := by
    unfold priceOf
    split <;> rfl
  unfold filled
  rw [none_chosen]

theorem costs_fromScratch {event : UsageEvent} (valid : Valid False tables)
    (traced : Traced runtime delivered tables) (member : event ∈ tables.events) :
    ∃ record, recordOf runtime delivered event = some record ∧
      Stores runtime tables.accounts record event ∧
      ∀ pricedAs id, (fromScratch runtime pricedAs tables record id).map costs =
        some (costs (filled runtime pricedAs tables
          (record.2.row runtime event.id record.1 event.accountId))) := by
  obtain ⟨record, first, stores⟩ := traced.records event member
  refine ⟨record, first, stores, fun pricedAs id => ?_⟩
  rw [fromScratch_eq valid member first stores id]
  exact congrArg some (costs_row record id event.id event.accountId)

theorem recordOf_repriced {event : UsageEvent} :
    recordOf runtime delivered (filled runtime pricedAs tables (forgotten tables event)) =
      recordOf runtime delivered event := by
  have same : uncosted (filled runtime pricedAs tables (forgotten tables event)) = uncosted event :=
    uncosted_filled _
  have sources := congrArg UsageEvent.sourceId same
  have hashes := congrArg UsageEvent.recordHash same
  unfold recordOf
  rw [show (filled runtime pricedAs tables (forgotten tables event)).sourceId = event.sourceId from
    sources, show (filled runtime pricedAs tables (forgotten tables event)).recordHash =
      event.recordHash from hashes]

/-- Repricing every event agrees with pricing each record from scratch, whatever the prices and
the aliases, for exactly the stored events whose billed costs are still their records'. -/
theorem repriced_as_from_scratch_iff {acts : List Act}
    (reached : run (actStep runtime) Tables.empty acts = some tables) :
    (∀ prices, AsFromScratch runtime (deliveryOf acts) { tables with prices := prices }) ↔
      Unblended runtime (deliveryOf acts) tables := by
  obtain ⟨valid, traced⟩ := traced_run (valid_empty False) (traced_start rfl) reached
  rw [List.nil_append] at traced
  have validAt (prices : List ModelPrice) : Valid False { tables with prices := prices } :=
    { valid with }
  have tracedAt (prices : List ModelPrice) :
      Traced runtime (deliveryOf acts) { tables with prices := prices } :=
    ⟨traced.known, traced.records⟩
  rw [unblended_iff]
  constructor
  · -- Without a price the reprice shows what it kept.
    intro same event member record first
    obtain ⟨next, taken⟩ := reprice_commits runtime [] { tables with prices := [] }
    obtain ⟨_, feed, rfl⟩ := performed_holds (holds_repriceAll _) rfl (step_iff.mp taken)
    obtain ⟨other, found, _, fresh⟩ := costs_fromScratch (validAt []) (tracedAt []) member
    obtain rfl := Option.some.inj (first.symm.trans found)
    obtain ⟨again, known, priced⟩ :=
      (same []).1 [] _ _ taken _ (List.mem_map_of_mem member)
    rw [recordOf_repriced] at known
    obtain rfl := Option.some.inj (first.symm.trans known)
    have equal := Option.some.inj ((priced event.id).symm.trans (fresh [] event.id))
    rw [filled_unpriced] at equal
    exact congrArg (fun cost => cost.2.2) equal
  · intro kept prices
    refine ⟨fun pricedAs world next taken event member => ?_, fun event member record first => ?_⟩
    · obtain ⟨_, feed, rfl⟩ := performed_holds (holds_repriceAll _) rfl (step_iff.mp taken)
      obtain ⟨stored, isStored, rfl⟩ := List.mem_map.mp member
      obtain ⟨record, first, stores, fresh⟩ :=
        costs_fromScratch (validAt prices) (tracedAt prices) isStored
      have row : forgotten tables stored =
          record.2.row runtime stored.id record.1 stored.accountId :=
        eq_of_uncosted stores.row
          (congrArg (fun billed => (none, none, billed)) (kept stored isStored record first))
      refine ⟨record, recordOf_repriced.trans first, fun id => ?_⟩
      rw [fresh pricedAs id, ← row]
      rfl
    · intro survives
      rw [← kept event member record first]
      exact survives

/-- A runtime that reads every time as the epoch, and sums a million input tokens. -/
def million : Sql.Runtime :=
  { Sql.Runtime.inert with
    parseTimestamp := fun _ => some 0
    listCost := fun terms => match terms with
      | [(1000000, rate), (0, _), (0, _), (0, _)] => rate
      | _ => .zero }

/-- A million tokens through LiteLLM, with or without what was spent on them. -/
def spendLog (spent : Bool) : Incoming :=
  Collector.LiteLlm.parse ⟨million, fun _ => .one, fun _ => none, id, fun _ => ""⟩ (.object
    ([("request_id", .string "request"), ("startTime", .string "1970-01-01T00:00:00Z"),
      ("model", .string "model"), ("prompt_tokens", .number "1000000")] ++
        if spent then [("spend", .number "1")] else []))

def two : Sql.Float64 := ⟨0x4000000000000000⟩

/-- A price of the model for every kind of token. -/
def modelPrice (rate : Sql.Float64) : NewPrice :=
  ⟨none, "model", none, 0, 0, ⟨rate, rate, rate, rate⟩⟩

/-- The request is priced, and then the model's price is corrected. -/
def corrected (spent : Bool) : List Act :=
  [.write (.sync [⟨"gateway", "gateway", .liteLlm, "gateway"⟩]) (.calm 0 (· + 1)),
    .write (.ingest 1 [spendLog spent]) (.calm 0 (· + 2)),
    .price (modelPrice .one) .manual (.calm 0 (· + 4)),
    .write (.fill []) (.calm 0 id),
    .price (modelPrice two) .manual (.calm 0 (· + 5))]

instance (runtime : Sql.Runtime) (delivered : List Record) (tables : Tables) :
    Decidable (Unblended runtime delivered tables) :=
  inferInstanceAs (Decidable (∀ event ∈ tables.events, ∀ record ∈ recordOf runtime delivered event,
    if ofLiteLlm tables event then event.billedCostUsd = record.2.billedCostUsd
    else record.2.billedCostUsd = none))

/-- What a gateway said it spent is what a reprice bills. -/
theorem a_reported_cost_is_repriced : ∃ tables,
    run (actStep million) Tables.empty (corrected true) = some tables ∧ tables.events ≠ [] ∧
      AsFromScratch million (deliveryOf (corrected true)) tables := by
  have ran : ((run (actStep million) Tables.empty (corrected true)).any fun tables =>
      decide (tables.events ≠ [] ∧ Unblended million (deliveryOf (corrected true)) tables)) =
        true := by decide +kernel
  obtain ⟨tables, reached, facts⟩ := (Option.any_eq_true _ _).mp ran
  obtain ⟨stored, unblended⟩ := of_decide_eq_true facts
  exact ⟨tables, reached, stored,
    (repriced_as_from_scratch_iff reached).mpr unblended tables.prices⟩

/-- What a fill billed an event outlives the price it was billed at. -/
theorem a_filled_cost_is_not_repriced : ∃ tables,
    run (actStep million) Tables.empty (corrected false) = some tables ∧
      ¬AsFromScratch million (deliveryOf (corrected false)) tables := by
  have ran : ((run (actStep million) Tables.empty (corrected false)).any fun tables =>
      (step million tables (.reprice [] none none, .calm 0 id)).any fun next =>
        next.events.any fun event =>
          (recordOf million (deliveryOf (corrected false)) event).all fun record =>
            (fromScratch million [] tables record 0).map costs ≠ some (costs event)) = true := by
    decide +kernel
  obtain ⟨tables, reached, ran⟩ := (Option.any_eq_true _ _).mp ran
  obtain ⟨next, taken, ran⟩ := (Option.any_eq_true _ _).mp ran
  obtain ⟨event, member, differs⟩ := List.any_eq_true.mp ran
  refine ⟨tables, reached, fun same => ?_⟩
  obtain ⟨record, first, equal⟩ := same.1 [] _ next taken event member
  rw [first] at differs
  exact of_decide_eq_true differs (equal 0)

end MeteredUsage.Store.Repricing

import Mathlib.Data.List.Dedup
import Mathlib.Data.List.Sort
import Mathlib.Data.Prod.Lex
import MeteredUsage.Library.Thinning
import MeteredUsage.Analytics.Shift

/-! Single requests, thinned evenly per model, for plotting one point per request. -/

namespace MeteredUsage.Analytics.Sample
open MeteredUsage.Values MeteredUsage.Store.Schema MeteredUsage.Codec MeteredUsage.Analytics.Filter
open MeteredUsage.Analytics.Shift MeteredUsage.Library.Thinning

def defaultSampleLimit : Int := 4000
def maxSampleLimit : Int := 20000

/-- The limit `analytics_requests` asks for. -/
def sampleLimit (limit : Option Int) : Nat :=
  (max 1 (min maxSampleLimit (limit.getD defaultSampleLimit))).toNat

/-- `TIMED`. -/
def isTimed (event : UsageEvent) : Bool := !event.failed && event.latencyMs.isSome

structure RequestSample where
  occurredAt : Timestamp
  model : String
  inputTokens : Int
  outputTokens : Int
  latencyMs : Int
  ttftMs : Option Int
deriving DecidableEq

/-- The columns of a timed request, whose latency is never NULL. -/
def RequestSample.of (event : UsageEvent) : RequestSample :=
  ⟨event.occurredAt, event.model, event.inputTokens, event.outputTokens, event.latencyMs.getD 0,
    event.ttftMs⟩

structure RequestSamples where
  /-- Every successful, timed request the filter selects, sampled or not. -/
  requests : Nat
  /-- Oldest first. -/
  samples : List RequestSample
deriving DecidableEq

/-- The requests the statements read. -/
def population (tables : Tables) (filter : AnalyticsFilter) : List UsageEvent :=
  tables.events.filter fun event => filter.selects event && isTimed event

/-- `DISTINCT usage_event.model`. -/
def modelsOf (rows : List UsageEvent) : List String := (rows.map UsageEvent.model).dedup

/-- What `ORDER BY usage_event.occurred_at, usage_event.event_id` compares. -/
def place (event : UsageEvent) : String ×ₗ Nat := toLex (stored event.occurredAt, event.id)

/-- The requests of one model, in the order of the statement's window. -/
def partition (rows : List UsageEvent) (model : String) : List UsageEvent :=
  (rows.filter (·.model = model)).insertionSort fun first second => place first ≤ place second

/-- A row of the inner statement. -/
structure Numbered where
  event : UsageEvent
  position : Nat
  modelRequests : Nat

/-- `ROW_NUMBER() OVER (PARTITION BY model …) - 1` and `COUNT(*) OVER (PARTITION BY model)`. -/
def numbered (rows : List UsageEvent) : List Numbered :=
  (modelsOf rows).flatMap fun model => (partition rows model).zipIdx.map fun entry =>
    ⟨entry.1, entry.2, (partition rows model).length⟩

/-- Each model's part of a limit, rounded up. -/
def quota (limit models : Nat) : Nat := (limit + models - 1) / models

/-- The outer statement. -/
def sampled (quota : Nat) (rows : List UsageEvent) : List RequestSample :=
  (((numbered rows).filter fun row => row.position % ((row.modelRequests + quota - 1) / quota) = 0).map
    fun row => RequestSample.of row.event).insertionSort fun first second =>
      stored first.occurredAt ≤ stored second.occurredAt

/-- `RequestSamples::load`. -/
def load (tables : Tables) (filter : AnalyticsFilter) (limit : Nat) : Except AnalyticsError RequestSamples := do
  filter.check tables
  let rows := population tables filter
  let models := (modelsOf rows).length
  if models = 0 then
    return ⟨0, []⟩
  return ⟨rows.length, sampled (quota limit models) rows⟩

variable {rows : List UsageEvent} {tables : Tables} {filter : AnalyticsFilter} {limit : Nat}

/-- The samples one model leaves, in its own order. -/
def thinned (quota : Nat) (rows : List UsageEvent) (model : String) : List UsageEvent :=
  everyNth (stepOf quota (partition rows model).length) (partition rows model)

/-- The samples are every model's own. -/
theorem sampled_perm (quota : Nat) (rows : List UsageEvent) :
    (sampled quota rows).Perm
      ((modelsOf rows).flatMap fun model => (thinned quota rows model).map RequestSample.of) := by
  have each (model : String) :
      (((partition rows model).zipIdx.map fun entry => Numbered.mk entry.1 entry.2
        (partition rows model).length).filter fun row =>
          row.position % ((row.modelRequests + quota - 1) / quota) = 0).map
        (fun row => RequestSample.of row.event) = (thinned quota rows model).map RequestSample.of := by
    unfold thinned everyNth
    rw [List.filter_map, List.map_map, List.map_map]
    rfl
  unfold sampled numbered
  rw [List.filter_flatMap, List.map_flatMap]
  simp only [each]
  exact List.perm_insertionSort _ _

theorem mem_partition {model : String} {event : UsageEvent} :
    event ∈ partition rows model ↔ event ∈ rows ∧ event.model = model := by
  unfold partition
  rw [List.mem_insertionSort, List.mem_filter, decide_eq_true_eq]

theorem model_of_mem_thinned {quota : Nat} {model : String} {event : UsageEvent}
    (taken : event ∈ thinned quota rows model) : event.model = model :=
  (mem_partition.mp (everyNth_subset _ _ taken)).2

theorem sampled_model (quota : Nat) {model : String} (known : model ∈ modelsOf rows) :
    ((sampled quota rows).filter fun sample => sample.model = model).Perm
      ((thinned quota rows model).map RequestSample.of) := by
  have own (models : List String) (once : models.Nodup) (known : model ∈ models) :
      (models.flatMap fun model => (thinned quota rows model).map RequestSample.of).filter
        (fun sample => sample.model = model) = (thinned quota rows model).map RequestSample.of := by
    have alone (other : String) : ((thinned quota rows other).map RequestSample.of).filter
        (fun sample => sample.model = model) =
          if other = model then (thinned quota rows model).map RequestSample.of else [] := by
      split
      next same =>
        rw [same, List.filter_eq_self]
        intro sample taken
        obtain ⟨event, kept, rfl⟩ := List.mem_map.mp taken
        exact decide_eq_true (model_of_mem_thinned kept)
      next apart =>
        rw [List.filter_eq_nil_iff]
        intro sample taken
        obtain ⟨event, kept, rfl⟩ := List.mem_map.mp taken
        rw [decide_eq_true_eq]
        exact fun same => apart ((model_of_mem_thinned kept).symm.trans same)
    induction models with
    | nil => cases known
    | cons first rest ih =>
      rw [List.flatMap_cons, List.filter_append, alone]
      have ⟨fresh, once⟩ := List.nodup_cons.mp once
      split
      next same =>
        have none_left : (rest.flatMap fun model => (thinned quota rows model).map RequestSample.of).filter
            (fun sample => sample.model = model) = [] := by
          rw [List.filter_flatMap, List.flatMap_eq_nil_iff]
          intro other later
          rw [alone, if_neg]
          exact fun again => fresh (same.trans again.symm ▸ later)
        rw [none_left, List.append_nil]
      next apart =>
        rw [List.nil_append]
        exact ih once ((List.mem_cons.mp known).resolve_left fun same => apart same.symm)
  have samples := (sampled_perm quota rows).filter fun sample => decide (sample.model = model)
  rwa [own (modelsOf rows) (List.nodup_dedup _) known] at samples

/-- Instants follow each other, but for two of years before the year 0, whose texts sort backwards. -/
def Follows (first second : UsageEvent) : Prop :=
  first.occurredAt ≤ second.occurredAt ∨
    (yearOfInstant first.occurredAt < 0 ∧ yearOfInstant second.occurredAt < 0)

/-- A model's requests are numbered in time order. -/
theorem partition_follows (held : ∀ event ∈ rows, Representable event.occurredAt) (model : String) :
    (partition rows model).Pairwise Follows := by
  have total : Std.Total fun first second : UsageEvent => place first ≤ place second :=
    ⟨fun _ _ => le_total _ _⟩
  have trans : IsTrans UsageEvent fun first second => place first ≤ place second :=
    ⟨fun _ _ _ => le_trans⟩
  have sorted := List.pairwise_insertionSort
    (fun first second : UsageEvent => place first ≤ place second) (rows.filter (·.model = model))
  apply List.Pairwise.imp_of_mem _ sorted
  intro first second left right before
  have leftHeld := held first (List.mem_of_mem_filter ((List.mem_insertionSort _).mp left))
  have rightHeld := held second (List.mem_of_mem_filter ((List.mem_insertionSort _).mp right))
  have texts : stored first.occurredAt ≤ stored second.occurredAt := by
    rcases (Prod.Lex.toLex_le_toLex).mp before with less | ⟨same, _⟩
    · exact less.le
    · exact same.le
  rcases printable_or_sign leftHeld with printable | leftSign
  · exact .inl ((stored_le_iff_of_printable leftHeld rightHeld (.inl printable)).mp texts)
  · rcases printable_or_sign rightHeld with printable | rightSign
    · exact .inl ((stored_le_iff_of_printable leftHeld rightHeld (.inr printable)).mp texts)
    · exact .inr ⟨leftSign, rightSign⟩

/-- How many requests of a model there are. -/
def requestsOf (rows : List UsageEvent) (model : String) : Nat := (rows.filter (·.model = model)).length

/-- How many of so many requests a share leaves: every n-th, where n is their number over the share,
rounded up. -/
def leaves (quota requests : Nat) : Nat := requests ⌈/⌉ stepOf quota requests

/-- The places of their shares the models leave empty. -/
def unused (quota : Nat) (rows : List UsageEvent) : Nat :=
  ((modelsOf rows).map fun model => quota - leaves quota (requestsOf rows model)).sum

/-- What an answer says of the requests and their limit. -/
structure Fair (limit : Nat) (rows : List UsageEvent) (answer : RequestSamples) : Prop where
  bounded : answer.samples.length ≤ limit
  /-- No model is left out that the limit has a place for. -/
  covers : (modelsOf rows).length ≤ limit →
    ∀ model ∈ modelsOf rows, ∃ sample ∈ answer.samples, sample.model = model
  own : ∀ sample ∈ answer.samples, sample.model ∈ modelsOf rows
  /-- A model's samples are every n-th of its requests in time order, and every one where its share
  holds them. -/
  even : ∀ model ∈ modelsOf rows, ∃ ordered step,
    ordered.Perm (rows.filter (·.model = model)) ∧ ordered.Pairwise Follows ∧ 0 < step ∧
      (answer.samples.filter fun sample => sample.model = model).Perm
        ((everyNth step ordered).map RequestSample.of) ∧
      (ordered.length ≤ quota limit (modelsOf rows).length → step = 1)
  counted : answer.requests = rows.length

theorem length_partition (rows : List UsageEvent) (model : String) :
    (partition rows model).length = requestsOf rows model := List.length_insertionSort _ _

theorem mem_modelsOf {model : String} : model ∈ modelsOf rows ↔ ∃ event ∈ rows, event.model = model := by
  unfold modelsOf
  rw [List.mem_dedup, List.mem_map]

theorem requestsOf_pos {model : String} (known : model ∈ modelsOf rows) : 0 < requestsOf rows model := by
  obtain ⟨event, stored, named⟩ := mem_modelsOf.mp known
  exact List.length_pos_of_mem (List.mem_filter.mpr ⟨stored, decide_eq_true named⟩)

theorem quota_pos {models : Nat} (filled : 0 < models) (atLeast : 0 < limit) : 0 < quota limit models :=
  Nat.div_pos (by omega) filled

/-- Every model fills its share or leaves places of it empty. -/
theorem length_sampled {quota : Nat} (positive : 0 < quota) (rows : List UsageEvent) :
    (sampled quota rows).length + unused quota rows = (modelsOf rows).length * quota := by
  have each (model : String) (known : model ∈ modelsOf rows) :
      ((thinned quota rows model).map RequestSample.of).length = leaves quota (requestsOf rows model) := by
    unfold thinned leaves
    rw [List.length_map, length_everyNth _ _ _, length_partition]
    rw [length_partition]
    exact stepOf_pos positive (requestsOf_pos known)
  have whole (models : List String) (known : ∀ model ∈ models, model ∈ modelsOf rows) :
      (models.flatMap fun model => (thinned quota rows model).map RequestSample.of).length +
        (models.map fun model => quota - leaves quota (requestsOf rows model)).sum =
      models.length * quota := by
    induction models with
    | nil => simp
    | cons model rest ih =>
      have fits : leaves quota (requestsOf rows model) ≤ quota := ceilDiv_stepOf_le positive
      have later := ih fun other member => known other (List.mem_cons_of_mem _ member)
      rw [List.flatMap_cons, List.length_append, each model (known model List.mem_cons_self),
        List.map_cons, List.sum_cons, List.length_cons, Nat.add_mul]
      omega
  rw [(sampled_perm quota rows).length_eq]
  exact whole (modelsOf rows) fun _ member => member

theorem mem_sampled_model {quota : Nat} {model : String} :
    (∃ sample ∈ sampled quota rows, sample.model = model) ↔ model ∈ modelsOf rows := by
  constructor
  · intro ⟨sample, taken, named⟩
    obtain ⟨other, known, taken⟩ := List.mem_flatMap.mp ((sampled_perm quota rows).mem_iff.mp taken)
    obtain ⟨event, kept, rfl⟩ := List.mem_map.mp taken
    have same : other = model := (model_of_mem_thinned kept).symm.trans named
    exact same ▸ known
  · intro known
    have filled : partition rows model ≠ [] := by
      intro empty
      have positive := requestsOf_pos known
      rw [← length_partition, empty] at positive
      cases positive
    obtain ⟨event, rest, parts⟩ := List.exists_cons_of_ne_nil filled
    have taken : event ∈ thinned quota rows model := by
      unfold thinned
      rw [parts]
      exact mem_everyNth_cons _ _ _
    refine ⟨RequestSample.of event, (sampled_perm quota rows).mem_iff.mpr ?_, model_of_mem_thinned taken⟩
    exact List.mem_flatMap.mpr ⟨model, known, List.mem_map_of_mem taken⟩

theorem load_ok {answer : RequestSamples} (answered : load tables filter limit = .ok answer) :
    answer = if (modelsOf (population tables filter)).length = 0 then ⟨0, []⟩ else
      ⟨(population tables filter).length,
        sampled (quota limit (modelsOf (population tables filter)).length) (population tables filter)⟩ := by
  unfold load at answered
  cases checked : filter.check tables with
  | error refused =>
    rw [checked] at answered
    cases answered
  | ok _ =>
    rw [checked] at answered
    split
    next empty =>
      rw [show (Except.ok () >>= _ : Except AnalyticsError RequestSamples) = _ from rfl] at answered
      simp only [empty, if_true] at answered
      exact (Except.ok.inj answered).symm
    next filled =>
      simp only [bind, Except.bind, filled, if_false] at answered
      exact (Except.ok.inj answered).symm

theorem sampleLimit_pos (limit : Option Int) : 0 < sampleLimit limit := by
  unfold sampleLimit
  omega

/-- An answer has every model, each thinned evenly, and is within its limit exactly if the models
leave as many places of their shares empty as rounding the share up added. -/
theorem samples_fair_iff (tables : Tables) (filter : AnalyticsFilter) (limit : Option Int)
    (answer : RequestSamples) (held : ∀ event ∈ tables.events, Representable event.occurredAt)
    (answered : load tables filter (sampleLimit limit) = .ok answer) :
    Fair (sampleLimit limit) (population tables filter) answer ↔
      (modelsOf (population tables filter)).length *
          quota (sampleLimit limit) (modelsOf (population tables filter)).length ≤
        sampleLimit limit + unused (quota (sampleLimit limit) (modelsOf (population tables filter)).length)
          (population tables filter) := by
  have positive := sampleLimit_pos limit
  have rowsHeld : ∀ event ∈ population tables filter, Representable event.occurredAt := by
    intro event member
    exact held event (List.mem_of_mem_filter member)
  have loaded := load_ok answered
  generalize sampleLimit limit = limit at *
  generalize population tables filter = rows at *
  by_cases none_left : (modelsOf rows).length = 0
  · rw [if_pos none_left] at loaded
    have empty : modelsOf rows = [] := List.eq_nil_of_length_eq_zero none_left
    have noRows : rows = [] := by
      rw [List.eq_nil_iff_forall_not_mem]
      intro event stored
      have known := mem_modelsOf.mpr ⟨event, stored, rfl⟩
      rw [empty] at known
      cases known
    subst loaded
    apply iff_of_true
    · refine ⟨Nat.zero_le _, ?_, ?_, ?_, ?_⟩
      · intro _ model known
        rw [empty] at known
        cases known
      · intro sample taken
        cases taken
      · intro model known
        rw [empty] at known
        cases known
      · rw [noRows]
        rfl
    · rw [none_left, Nat.zero_mul]
      exact Nat.zero_le _
  · rw [if_neg none_left] at loaded
    subst loaded
    have share : 0 < quota limit (modelsOf rows).length := quota_pos (by omega) positive
    have whole := length_sampled share rows
    constructor
    · intro fair
      have bounded := fair.bounded
      change (sampled _ rows).length ≤ limit at bounded
      omega
    · intro fits
      refine ⟨?_, ?_, ?_, ?_, rfl⟩
      · change (sampled _ rows).length ≤ limit
        omega
      · intro _ model known
        exact mem_sampled_model.mpr known
      · intro sample taken
        exact mem_sampled_model.mp ⟨sample, taken, rfl⟩
      · intro model known
        have filled : 0 < (partition rows model).length := by
          rw [length_partition]
          exact requestsOf_pos known
        exact ⟨partition rows model, _, List.perm_insertionSort _ _, partition_follows rowsHeld model,
          stepOf_pos share filled, sampled_model _ known, stepOf_eq_one filled⟩

/-- A successful request of a model, answered after two seconds. -/
def timedRequest (id : EventId) (model : String) : UsageEvent :=
  { requestAt id with
    id := id
    model := model
    latencyMs := some 2000 }

def everything : AnalyticsFilter := ⟨none, 1000, summerTime, [], [], [], [], [], by decide⟩

/-- Three requests of one model and one of another. -/
def busyAndRare : Tables := { Tables.empty with
  events := [timedRequest 1 "opus", timedRequest 2 "opus", timedRequest 3 "opus", timedRequest 4 "haiku"] }

/-- With four places the busy model keeps its first and third request. -/
theorem busy_model_is_thinned : ∃ answer, load busyAndRare everything (sampleLimit (some 4)) = .ok answer ∧
    answer.samples.map (fun sample => (sample.occurredAt, sample.model)) =
      [(1, "opus"), (3, "opus"), (4, "haiku")] ∧
    Fair (sampleLimit (some 4)) (population busyAndRare everything) answer := by
  have ran : (load busyAndRare everything (sampleLimit (some 4))).toOption.any (fun answer =>
      answer.samples.map (fun sample => (sample.occurredAt, sample.model)) =
        [(1, "opus"), (3, "opus"), (4, "haiku")]) = true := by decide
  cases answered : load busyAndRare everything (sampleLimit (some 4)) with
  | error refused =>
    rw [answered] at ran
    cases ran
  | ok answer =>
    rw [answered] at ran
    refine ⟨answer, rfl, of_decide_eq_true ran, ?_⟩
    have held : ∀ event ∈ busyAndRare.events, Representable event.occurredAt := by
      intro event member
      simp only [busyAndRare, List.mem_cons, List.not_mem_nil, or_false] at member
      rcases member with rfl | rfl | rfl | rfl
      all_goals
        unfold Representable
        decide
    exact (samples_fair_iff busyAndRare everything (some 4) answer held answered).mpr (by decide)

/-- One place for two models: each is given one. -/
theorem limit_is_passed : sampleLimit (some 1) = 1 ∧ ∃ answer,
    load busyAndRare everything (sampleLimit (some 1)) = .ok answer ∧ answer.samples.length = 2 := by
  refine ⟨by decide, ?_⟩
  have ran : (load busyAndRare everything (sampleLimit (some 1))).toOption.any (fun answer =>
      answer.samples.length = 2) = true := by decide
  cases answered : load busyAndRare everything (sampleLimit (some 1)) with
  | error refused =>
    rw [answered] at ran
    cases ran
  | ok answer =>
    rw [answered] at ran
    exact ⟨answer, rfl, of_decide_eq_true ran⟩

end MeteredUsage.Analytics.Sample

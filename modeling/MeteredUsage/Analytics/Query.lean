import Mathlib.Data.List.Dedup
import MeteredUsage.Analytics.RunningSums
import MeteredUsage.Analytics.Series
import MeteredUsage.Analytics.Shift
import MeteredUsage.Library.Outcome
import MeteredUsage.Library.Tally

/-! The one aggregate statement every analytics answer runs: each group of its columns is one row,
with the measures of the group's events, and the rows come in an order nobody promises. What the rows
are added up to is exact where the sums stay inside 64 bits. -/

namespace MeteredUsage.Analytics.Query
open MeteredUsage.Values MeteredUsage.Analytics.Filter
open MeteredUsage.Analytics.Metrics MeteredUsage.Library.Outcome MeteredUsage.Library.OrderedMap
open MeteredUsage.Library.Tally
open MeteredUsage.Analytics.Series (Aggregate aggregateOf)
open MeteredUsage.Analytics.RunningSums (Bounded Held integers queried)
open MeteredUsage.Collector.LiteLlm (wrap64)
open MeteredUsage.Store.Thresholds (wrap_eq_self_iff)

variable {Column : Type} [DecidableEq Column]

/-- The aggregate of a group as the statement reads it, its events in the order they are visited. -/
def readGroup (members : List Joined) : Except AnalyticsError Aggregate :=
  match queried members with
  | none => .error .database
  | some metrics => (aggregateOf members).map fun aggregate => { aggregate with metrics }

/-- `aggregate`: each group of the columns, with the aggregate of its events. -/
def aggregate (columns : Joined → Column) (selected : List Joined) :
    Except AnalyticsError (List (Column × Aggregate)) :=
  (selected.map columns).dedup.mapM fun group =>
    (readGroup (selected.filter (columns · = group))).map (group, ·)

/-- `UsageMetrics::add_assign`, whose integers wrap. -/
def plus (left other : UsageMetrics) : UsageMetrics :=
  { left + other with
    requests := wrap64 (left.requests + other.requests)
    failures := wrap64 (left.failures + other.failures)
    inputTokens := wrap64 (left.inputTokens + other.inputTokens)
    uncachedInputTokens := wrap64 (left.uncachedInputTokens + other.uncachedInputTokens)
    cacheReadTokens := wrap64 (left.cacheReadTokens + other.cacheReadTokens)
    cacheWriteTokens := wrap64 (left.cacheWriteTokens + other.cacheWriteTokens)
    outputTokens := wrap64 (left.outputTokens + other.outputTokens)
    reasoningTokens := wrap64 (left.reasoningTokens + other.reasoningTokens)
    unclassifiedTokens := wrap64 (left.unclassifiedTokens + other.unclassifiedTokens)
    totalTokens := wrap64 (left.totalTokens + other.totalTokens)
    unpricedRequests := wrap64 (left.unpricedRequests + other.unpricedRequests)
    unbilledRequests := wrap64 (left.unbilledRequests + other.unbilledRequests) }

section Additions
variable {left other : UsageMetrics} {before measures others : List UsageMetrics}

/-- Measures whose integers fit 64 bits. -/
def Whole (measures : UsageMetrics) : Prop := ∀ measure ∈ integers measures, Fits measure

theorem plus_eq (whole : Whole (left + other)) : plus left other = left + other := by
  have kept {value : Int} (fits : Fits value) : wrap64 value = value := (wrap_eq_self_iff value).mpr fits
  simp only [Whole, integers, List.forall_mem_cons] at whole
  obtain ⟨requests, failures, input, uncached, hits, fills, output, reasoning, unclassified, total, unpriced,
    unbilled, -⟩ := whole
  apply UsageMetrics.ext
  case requests => exact kept requests
  case failures => exact kept failures
  case inputTokens => exact kept input
  case uncachedInputTokens => exact kept uncached
  case cacheReadTokens => exact kept hits
  case cacheWriteTokens => exact kept fills
  case outputTokens => exact kept output
  case reasoningTokens => exact kept reasoning
  case unclassifiedTokens => exact kept unclassified
  case totalTokens => exact kept total
  case unpricedRequests => exact kept unpriced
  case unbilledRequests => exact kept unbilled
  all_goals rfl

/-- Whatever part of some measures is added up, the sum fits 64 bits. -/
def Additive (measures : List UsageMetrics) : Prop :=
  ∀ part : List UsageMetrics, part.Sublist measures → Whole part.sum

theorem Additive.sublist (additive : Additive measures) (part : others.Sublist measures) : Additive others :=
  fun smaller inside => additive smaller (inside.trans part)

/-- Additive measures are added one after another to their sum. -/
theorem Additive.foldl_plus (additive : Additive (before ++ measures)) :
    measures.foldl plus before.sum = (before ++ measures).sum := by
  induction measures generalizing before with
  | nil => simp
  | cons first rest ih =>
    have sum : (before ++ [first]).sum = before.sum + first := by
      rw [List.sum_append, List.sum_singleton]
    rw [List.append_cons] at additive ⊢
    have whole := additive _ (List.sublist_append_left _ rest)
    rw [sum] at whole
    rw [List.foldl_cons, plus_eq whole, ← sum, ih additive]

theorem Additive.total (additive : Additive measures) : measures.foldl plus 0 = measures.sum :=
  @Additive.foldl_plus [] measures additive

end Additions

/-- What the events of each name add up to, in the order of the names. -/
def split (name : Joined → String) (events : List Joined) : List (String × UsageMetrics) :=
  ((events.map name).dedup.insertionSort (· ≤ ·)).map fun key => (key, metrics (events.filter (name · = key)))

/-- Rows that share the selected events out among them: each group once, with all its events. -/
structure Shared (columns : Joined → Column) (selected : List Joined) (rows : List (Column × Aggregate)) :
    Prop where
  once : (rows.map Prod.fst).Nodup
  known : ∀ group, group ∈ rows.map Prod.fst ↔ group ∈ selected.map columns
  whole : ∀ row ∈ rows, aggregateOf (selected.filter (columns · = row.1)) = .ok row.2

theorem aggregateOf_metrics {members : List Joined} {found : Aggregate} (made : aggregateOf members = .ok found) :
    found.metrics = metrics members := by
  unfold aggregateOf at made
  split at made
  next => cases made
  next =>
    cases made
    rfl

/-- A group of at least one event has an aggregate, which the statement reads where its sums stay inside
64 bits. -/
theorem readGroup_ok {members : List Joined} (bounded : Bounded members) (held : ∀ row ∈ members, Held row.event)
    (filled : members ≠ []) :
    ∃ found, readGroup members = .ok found ∧ aggregateOf members = .ok found := by
  obtain ⟨row, rest, rfl⟩ := List.exists_cons_of_ne_nil filled
  obtain ⟨span, loaded⟩ := Shift.load_isSome (List.mem_map_of_mem (f := Joined.event) List.mem_cons_self)
  unfold readGroup aggregateOf
  rw [loaded, bounded.queried held filled]
  exact ⟨_, rfl, rfl⟩

theorem filter_ne_nil {columns : Joined → Column} {selected : List Joined} {group : Column}
    (member : group ∈ selected.map columns) : selected.filter (columns · = group) ≠ [] := by
  obtain ⟨row, stored, named⟩ := List.mem_map.mp member
  exact List.ne_nil_of_mem (List.mem_filter.mpr ⟨stored, decide_eq_true named⟩)

variable {columns : Joined → Column} {selected : List Joined} {rows : List (Column × Aggregate)}

/-- Over events that are bounded the statement answers, and its rows share the events out. -/
theorem aggregate_ok (columns : Joined → Column) (bounded : Bounded selected)
    (held : ∀ row ∈ selected, Held row.event) :
    ∃ rows, aggregate columns selected = .ok rows ∧ Shared columns selected rows := by
  have each : ∀ group ∈ (selected.map columns).dedup, ∃ found,
      readGroup (selected.filter (columns · = group)) = .ok found ∧
        aggregateOf (selected.filter (columns · = group)) = .ok found := fun group member =>
    readGroup_ok (bounded.filter _) (fun row kept => held row (List.mem_of_mem_filter kept))
      (filter_ne_nil (List.mem_dedup.mp member))
  let found (group : Column) : Aggregate :=
    ((aggregateOf (selected.filter (columns · = group))).toOption).getD ⟨0, 0, 0⟩
  have made : ∀ group ∈ (selected.map columns).dedup,
      readGroup (selected.filter (columns · = group)) = .ok (found group) ∧
        aggregateOf (selected.filter (columns · = group)) = .ok (found group) := by
    intro group member
    obtain ⟨value, read, ran⟩ := each group member
    simp only [found, ran, read]
    exact ⟨rfl, rfl⟩
  have keys : ((selected.map columns).dedup.map fun group => (group, found group)).map Prod.fst =
      (selected.map columns).dedup := by
    rw [List.map_map]
    exact List.map_id' _
  refine ⟨(selected.map columns).dedup.map fun group => (group, found group), ?_, ?_, ?_, ?_⟩
  · apply mapM_ok
    intro group member
    rw [(made group member).1]
    rfl
  · rw [keys]
    exact List.nodup_dedup _
  · intro group
    rw [keys, List.mem_dedup]
  · intro row member
    obtain ⟨group, listed, rfl⟩ := List.mem_map.mp member
    exact (made group listed).2

/-- Rows share the events out in whatever order they come. -/
theorem Shared.perm {others : List (Column × Aggregate)} (shared : Shared columns selected rows)
    (perm : others.Perm rows) : Shared columns selected others where
  once := (perm.map Prod.fst).nodup_iff.mpr shared.once
  known group := (perm.map Prod.fst).mem_iff.trans (shared.known group)
  whole row member := shared.whole row (perm.mem_iff.mp member)

/-- Groups under names of their own share the events out still. -/
theorem Shared.rename {Name : Type} [DecidableEq Name] (shared : Shared columns selected rows)
    {name : Column → Name} {called : Joined → Name} (reads : ∀ row ∈ selected, name (columns row) = called row)
    (apart : ∀ row ∈ selected, ∀ other ∈ selected, called row = called other → columns row = columns other) :
    Shared called selected (rows.map fun row => (name row.1, row.2)) where
  once := by
    have keys : (rows.map fun row => (name row.1, row.2)).map Prod.fst = (rows.map Prod.fst).map name := by
      rw [List.map_map, List.map_map]
      rfl
    rw [keys]
    apply shared.once.map_on
    intro first left second right same
    obtain ⟨row, held, rfl⟩ := List.mem_map.mp ((shared.known _).mp left)
    obtain ⟨other, stored, rfl⟩ := List.mem_map.mp ((shared.known _).mp right)
    rw [reads row held, reads other stored] at same
    exact apart row held other stored same
  known group := by
    simp only [List.map_map, List.mem_map, Function.comp]
    constructor
    · rintro ⟨row, listed, rfl⟩
      obtain ⟨event, held, named⟩ := List.mem_map.mp ((shared.known _).mp (List.mem_map_of_mem listed))
      exact ⟨event, held, by rw [← reads event held, named]⟩
    · rintro ⟨event, held, rfl⟩
      obtain ⟨row, listed, named⟩ := List.mem_map.mp ((shared.known _).mpr (List.mem_map_of_mem held))
      exact ⟨row, listed, by rw [named, reads event held]⟩
  whole := by
    intro named member
    obtain ⟨row, listed, rfl⟩ := List.mem_map.mp member
    obtain ⟨event, held, same⟩ := List.mem_map.mp ((shared.known _).mp (List.mem_map_of_mem listed))
    have members : selected.filter (fun other => decide (called other = name row.1)) =
        selected.filter (columns · = row.1) := by
      apply List.filter_congr
      intro other stored
      rw [decide_eq_decide, ← same, reads event held]
      refine ⟨fun equal => apart other stored event held equal, fun equal => ?_⟩
      rw [← reads other stored, ← reads event held, equal]
    rw [members]
    exact shared.whole row listed

theorem Shared.metrics_eq (shared : Shared columns selected rows) {row : Column × Aggregate} (member : row ∈ rows) :
    row.2.metrics = metrics (selected.filter (columns · = row.1)) :=
  aggregateOf_metrics (shared.whole row member)

/-- The rows of some groups add up as the events of those groups. -/
theorem Shared.sum_filter (shared : Shared columns selected rows) (named : Column → Bool) :
    ((rows.filter (named ·.1)).map (·.2.metrics)).sum = metrics (selected.filter (named <| columns ·)) := by
  have keys : (rows.filter (named ·.1)).map (·.2.metrics) =
      ((rows.map Prod.fst).filter named).map fun group => metrics (selected.filter (columns · = group)) := by
    rw [List.filter_map, List.map_map]
    apply List.map_congr_left
    intro row member
    exact shared.metrics_eq (List.mem_of_mem_filter member)
  have known : ∀ row ∈ selected.filter (named <| columns ·), columns row ∈ (rows.map Prod.fst).filter named := by
    intro row member
    obtain ⟨stored, kept⟩ := List.mem_filter.mp member
    exact List.mem_filter.mpr ⟨(shared.known _).mpr (List.mem_map_of_mem stored), kept⟩
  rw [keys, metrics_eq_sum, ← Library.Groups.sum_filter (shared.once.filter _) columns _ known]
  congr 1
  apply List.map_congr_left
  intro group member
  have kept : named group = true := (List.mem_filter.mp member).2
  rw [← metrics_eq_sum, List.filter_filter]
  congr 1
  -- A group is wholly in or wholly out, so none of its events is left out.
  apply List.filter_congr
  intro row _
  by_cases same : columns row = group
  · simp [same, kept]
  · simp [same]

theorem Shared.sum (shared : Shared columns selected rows) : (rows.map (·.2.metrics)).sum = metrics selected := by
  have all := shared.sum_filter fun _ => true
  rwa [List.filter_true, List.filter_true] at all

/-- A part of the rows shares out the events of its groups. -/
theorem Shared.part {others : List (Column × Aggregate)} (shared : Shared columns selected rows)
    (inside : others.Sublist rows) :
    Shared columns (selected.filter (decide <| columns · ∈ others.map Prod.fst)) others where
  once := (inside.map Prod.fst).nodup shared.once
  known group := by
    constructor
    · intro member
      obtain ⟨row, held, rfl⟩ := List.mem_map.mp member
      obtain ⟨event, stored, named⟩ := List.mem_map.mp ((shared.known _).mp (List.mem_map_of_mem (inside.subset held)))
      exact List.mem_map.mpr ⟨event, List.mem_filter.mpr ⟨stored, decide_eq_true (named ▸ member)⟩, named⟩
    · intro member
      obtain ⟨event, kept, rfl⟩ := List.mem_map.mp member
      exact of_decide_eq_true (List.mem_filter.mp kept).2
  whole row member := by
    have kept : (selected.filter (decide <| columns · ∈ others.map Prod.fst)).filter (columns · = row.1) =
        selected.filter (columns · = row.1) := by
      rw [List.filter_filter]
      apply List.filter_congr
      intro event _
      by_cases same : columns event = row.1
      · simp only [same, decide_true, Bool.true_and, decide_eq_true_eq]
        exact List.mem_map_of_mem member
      · simp [same]
    rw [kept]
    exact shared.whole row (inside.subset member)

/-- The rows of bounded events can be added up in any order and in any part. -/
theorem Shared.additive (shared : Shared columns selected rows) (bounded : Bounded selected) :
    Additive (rows.map (·.2.metrics)) := by
  intro part inside
  obtain ⟨others, within, rfl⟩ := List.sublist_map_iff.mp inside
  rw [(shared.part within).sum]
  exact (bounded.filter _).fits

section Split
variable {name : Joined → String} {events : List Joined}

theorem keys_split (name : Joined → String) (events : List Joined) :
    (split name events).map Prod.fst = (events.map name).dedup.insertionSort (· ≤ ·) := by
  unfold split
  rw [List.map_map]
  exact List.map_id' _

theorem ordered_split (name : Joined → String) (events : List Joined) : Ordered (split name events) := by
  have sorted := List.pairwise_insertionSort (· ≤ ·) (events.map name).dedup
  have once : ((events.map name).dedup.insertionSort (· ≤ ·)).Nodup :=
    (List.perm_insertionSort (· ≤ ·) _).nodup_iff.mpr (List.nodup_dedup _)
  rw [ordered_iff_keys, keys_split]
  exact (sorted.and once).imp fun both => lt_of_le_of_ne both.1 both.2

theorem lookup_split (name : Joined → String) (events : List Joined) (key : String) :
    (split name events).lookup key =
      if key ∈ events.map name then some (metrics (events.filter (name · = key))) else none := by
  ext value
  rw [(ordered_split name events).lookup_eq_some_iff]
  unfold split
  simp only [List.mem_map, List.mem_insertionSort, List.mem_dedup, Prod.mk.injEq]
  constructor
  · rintro ⟨other, held, rfl, rfl⟩
    rw [if_pos held]
  · intro found
    split at found
    next held => exact ⟨key, held, rfl, Option.some.inj found⟩
    next => cases found

/-- The parts add up to the whole. -/
theorem sum_split (name : Joined → String) (events : List Joined) :
    ((split name events).map Prod.snd).sum = metrics events := by
  have once : ((events.map name).dedup.insertionSort (· ≤ ·)).Nodup :=
    (List.perm_insertionSort (· ≤ ·) _).nodup_iff.mpr (List.nodup_dedup _)
  have known : ∀ row ∈ events, name row ∈ (events.map name).dedup.insertionSort (· ≤ ·) := fun row member =>
    (List.mem_insertionSort _).mpr (List.mem_dedup.mpr (List.mem_map_of_mem member))
  unfold split
  rw [List.map_map, metrics_eq_sum events, ← Library.Groups.sum_filter once name _ known]
  congr 1
  apply List.map_congr_left
  intro key _
  exact metrics_eq_sum _

/-- The rows of some groups, summed by what they are named, are the parts of those groups' events. -/
theorem Shared.sums_eq_split (shared : Shared columns selected rows) (named : Column → Bool)
    (called : Column → String) :
    sums (called ·.1) (·.2.metrics) (rows.filter (named ·.1)) =
      split (called <| columns ·) (selected.filter (named <| columns ·)) := by
  apply (ordered_sums _).eq_of_lookup (ordered_split _ _)
  intro key
  have member : key ∈ (rows.filter (named ·.1)).map (called ·.1) ↔
      key ∈ (selected.filter (named <| columns ·)).map (called <| columns ·) := by
    have groups (chosen : Column → Prop) :
        (∃ row ∈ rows, chosen row.1) ↔ ∃ row ∈ selected, chosen (columns row) := by
      have same := fun group => shared.known group
      constructor
      · rintro ⟨row, held, holds⟩
        obtain ⟨event, stored, named⟩ := List.mem_map.mp ((same row.1).mp (List.mem_map_of_mem held))
        exact ⟨event, stored, by rwa [named]⟩
      · rintro ⟨event, stored, holds⟩
        obtain ⟨row, held, named⟩ := List.mem_map.mp ((same _).mpr (List.mem_map_of_mem stored))
        exact ⟨row, held, by rwa [named]⟩
    have both := groups fun group => named group = true ∧ called group = key
    simpa only [List.mem_map, List.mem_filter, and_assoc] using both
  have part := shared.sum_filter fun group => decide (called group = key) && named group
  rw [lookup_sums, lookup_split, List.filter_filter, part, List.filter_filter]
  simp only [member]

end Split

end MeteredUsage.Analytics.Query

import MeteredUsage.Analytics.Query
import MeteredUsage.Analytics.Rollups
import MeteredUsage.Library.Ranking

/-! Usage split by one dimension, largest group first: whatever order its rows come in, the table lists
the groups that rank first with all that their events add up to, as far as 64 bits hold it. -/

namespace MeteredUsage.Analytics.Breakdowns
open MeteredUsage.Store.Sql (Order)
open MeteredUsage.Values MeteredUsage.Store.Schema MeteredUsage.Codec MeteredUsage.Analytics.Filter
open MeteredUsage.Analytics.Metrics MeteredUsage.Analytics.Query MeteredUsage.Library.Outcome
open MeteredUsage.Library.Keyed MeteredUsage.Library.Tally MeteredUsage.Library.Ranking
open MeteredUsage.Analytics.Series MeteredUsage.Store.Response
open MeteredUsage.Analytics.RunningSums (Bounded Held)
open MeteredUsage.Analytics.Rollups (spelled key_expression indexOf_getElem?)

structure BreakdownRow where
  key : String
  label : Option String
  metrics : UsageMetrics
deriving DecidableEq

structure Breakdown where
  rows : List BreakdownRow
  /-- Every group, including those cut by the limit. -/
  total : UsageMetrics
deriving DecidableEq

/-- The name and label of a stored key. Each group takes its own label out of the map, so taking it out
is looking it up. -/
def named (dimension : Dimension) (labels : List (String × String)) (stored : String) :
    Except AnalyticsError (String × Option String) :=
  (dimension.key stored).map fun key => (key, (lookup Prod.fst labels.reverse stored).map Prod.snd)

/-- `Breakdown::load`. -/
def load (tables : Tables) (order : Order (String × Aggregate)) (stored : List Joined)
    (filter : AnalyticsFilter) (groupBy : Dimension) (rankBy : RankBy) (limit : Nat) :
    Except AnalyticsError Breakdown := do
  filter.check tables
  let listed ← aggregate (groupBy.expression ·.event) (stored.filter (filter.selects ·.event))
  let groups := (order.arrange listed).map fun group => (group.1, group.2.metrics)
  let total := (groups.map Prod.snd).foldl plus 0
  let top := (groups.insertionSort rankBy.before).take limit
  let labels ← groupBy.labels tables (top.map Prod.fst)
  let rows ← top.mapM fun group =>
    (named groupBy labels group.1).map fun name => (⟨name.1, name.2, group.2⟩ : BreakdownRow)
  return ⟨rows, total⟩

/-- The groups of some events by rank, each with all that its events add up to. -/
def ranking (groupBy : Dimension) (rankBy : RankBy) (selected : List Joined) : List (String × UsageMetrics) :=
  ranked Prod.fst (fun group => rankBy.measure group.2) (split (groupBy.expression ·.event) selected)

section Ranked
variable {groupBy : Dimension} {rankBy : RankBy} {selected : List Joined}

theorem insertionSort_eq (groups : List (String × UsageMetrics)) : groups.insertionSort rankBy.before =
    ranked Prod.fst (fun group => rankBy.measure group.2) groups := rfl

theorem keys_once (name : Joined → String) (selected : List Joined) :
    ((split name selected).map Prod.fst).Nodup := by
  rw [keys_split]
  exact (List.perm_insertionSort (· ≤ ·) _).nodup_iff.mpr (List.nodup_dedup _)

/-- Rows of different names that add up as their groups' events do are the parts, in some order. -/
theorem perm_split {groups : List (String × UsageMetrics)} (name : Joined → String)
    (once : (groups.map Prod.fst).Nodup) (known : ∀ key, key ∈ groups.map Prod.fst ↔ key ∈ selected.map name)
    (whole : ∀ group ∈ groups, group.2 = metrics (selected.filter (name · = group.1))) :
    groups.Perm (split name selected) := by
  have apart : groups.Nodup := once.of_map
  have parts : (split name selected).Nodup := (keys_once name selected).of_map
  apply (List.perm_ext_iff_of_nodup apart parts).mpr
  rintro ⟨key, value⟩
  have listed : (key, value) ∈ split name selected ↔
      key ∈ selected.map name ∧ value = metrics (selected.filter (name · = key)) := by
    rw [← (ordered_split name selected).lookup_eq_some_iff, lookup_split]
    split
    next member => simp [member, eq_comm]
    next absent => simp [absent]
  rw [listed]
  constructor
  · intro member
    exact ⟨(known key).mp (List.mem_map_of_mem (f := Prod.fst) member), whole _ member⟩
  · rintro ⟨member, rfl⟩
    obtain ⟨⟨other, sum⟩, held, rfl⟩ := List.mem_map.mp ((known key).mpr member)
    have same := whole _ held
    dsimp only at same ⊢
    rwa [same] at held

theorem ranked_rows {rows : List (String × Aggregate)} (shared : Shared (groupBy.expression ·.event) selected rows) :
    (rows.map fun group => (group.1, group.2.metrics)).insertionSort rankBy.before =
      ranking groupBy rankBy selected := by
  have keys : (rows.map fun group => (group.1, group.2.metrics)).map Prod.fst = rows.map Prod.fst := List.map_map
  rw [insertionSort_eq]
  apply ranked_eq_of_perm
  · rw [keys]
    exact shared.once
  · apply perm_split
    · rw [keys]
      exact shared.once
    · rw [keys]
      exact shared.known
    · intro group member
      obtain ⟨row, held, rfl⟩ := List.mem_map.mp member
      exact shared.metrics_eq held

/-- The groups of a chart rank as those of the table. -/
theorem ranked_series {dates : Dates} {query : SeriesQuery} {shift : Shift} {rows : List SeriesRow}
    (grouped : query.groupBy = some groupBy) (read : seriesRows dates query shift selected = .ok rows) :
    query.ranked rows = ranking groupBy query.rankBy selected := by
  have name : query.group = (groupBy.expression ·.event) := by
    funext row
    unfold SeriesQuery.group
    rw [grouped]
    rfl
  have keys : (totals rows).map Prod.fst = (rows.map SeriesRow.groupKey).dedup := by
    rw [totals_eq read, List.map_map]
    exact List.map_id' _
  unfold SeriesQuery.ranked
  rw [insertionSort_eq]
  apply ranked_eq_of_perm
  · rw [keys]
    exact List.nodup_dedup _
  · apply perm_split
    · rw [keys]
      exact List.nodup_dedup _
    · intro key
      rw [keys, List.mem_dedup, mem_groupKeys read, groups, List.mem_dedup, name]
    · intro group member
      rw [totals_eq read] at member
      obtain ⟨key, _, rfl⟩ := List.mem_map.mp member
      unfold totalOf
      rw [name]

end Ranked

section Labels
variable {tables : Tables} {groupBy : Dimension}

/-- What a reader calls the group of an event: an account whose source is there by its display name, else
its label, and a source by its name. -/
def labelOf (tables : Tables) (event : UsageEvent) : Dimension → Option String
  | .account => do
    let account ← lookup Account.id tables.accounts event.accountId
    let _ ← lookup Source.id tables.sources account.sourceId
    account.displayName <|> account.label
  | .source => (lookup Source.id tables.sources event.sourceId).map Source.name
  | .model | .provider | .harness | .session => none

theorem toString_inj {first second : Nat} (same : toString first = toString second) : first = second := by
  have digits (number : Nat) : (toString number).toList = Nat.toDigits 10 number := Nat.toList_repr
  have texts := congrArg String.toList same
  rw [digits, digits] at texts
  have values := congrArg (Nat.ofDigitChars 10 · 0) texts
  rwa [Nat.ofDigitChars_ten_toDigits, Nat.ofDigitChars_ten_toDigits] at values

theorem storedId_toString (field : String) {id : Nat} (fits : id < 2 ^ 63) :
    storedId field (toString id) = .ok (id : Int) := by
  unfold storedId
  rw [asI64_toString, if_pos fits]

/-- Ids that texts print are read off them. -/
theorem storedIds_ok (field : String) {texts : List String}
    (printed : ∀ text ∈ texts, ∃ id : Nat, id < 2 ^ 63 ∧ toString id = text) :
    ∃ ids, texts.mapM (storedId field) = .ok ids ∧
      ∀ id : Nat, toString id ∈ texts → ids.contains (id : Int) = true := by
  refine ⟨texts.map fun text => (asI64 text.toList ['+']).getD 0, ?_, ?_⟩
  · apply mapM_ok
    intro text member
    obtain ⟨id, fits, rfl⟩ := printed text member
    rw [storedId_toString field fits, asI64_toString, if_pos fits]
    rfl
  · intro id member
    obtain ⟨other, fits, same⟩ := printed _ member
    obtain rfl := toString_inj same
    rw [List.contains_iff_mem]
    refine List.mem_map.mpr ⟨_, member, ?_⟩
    rw [asI64_toString, if_pos fits]
    rfl

/-- Looking a key up in a map collected from entries, where the entries of the key are one at most. -/
theorem lookup_reverse {entries : List (String × String)} {key : String} {answer : Option String}
    (spec : ∀ value, (key, value) ∈ entries ↔ answer = some value) :
    (lookup Prod.fst entries.reverse key).map Prod.snd = answer := by
  cases found : lookup Prod.fst entries.reverse key with
  | none =>
    cases answer with
    | none => rfl
    | some value =>
      have member := List.mem_reverse.mpr ((spec value).mpr rfl)
      exact absurd rfl (lookup_eq_none.mp found _ member)
  | some entry =>
    obtain ⟨member, rfl⟩ := lookup_mem found
    exact ((spec entry.2).mp (List.mem_reverse.mp member)).symm

theorem labels_ok (accounts : Distinct Account.id tables.accounts) (sources : Distinct Source.id tables.sources)
    (groupBy : Dimension) {texts : List String} (known : ∀ text ∈ texts, ∃ event : UsageEvent,
      event.accountId < 2 ^ 63 ∧ event.sourceId < 2 ^ 63 ∧ groupBy.expression event = text) :
    ∃ labels, groupBy.labels tables texts = .ok labels ∧ ∀ event, groupBy.expression event ∈ texts →
      (lookup Prod.fst labels.reverse (groupBy.expression event)).map Prod.snd = labelOf tables event groupBy := by
  cases groupBy with
  | account =>
    obtain ⟨ids, read, asked⟩ := storedIds_ok "account_id" fun text member => by
      obtain ⟨event, fits, -, named⟩ := known text member
      exact ⟨event.accountId, fits, named⟩
    refine ⟨_, congrArg (· >>= _) read, ?_⟩
    intro event member
    apply lookup_reverse
    intro value
    unfold labelOf
    simp only [Option.bind_eq_bind, Option.bind_eq_some_iff, List.mem_filterMap, List.mem_filter,
      Option.map_eq_some_iff, Prod.mk.injEq, Bool.and_eq_true, Option.isSome_iff_exists, lookup_eq_some accounts]
    constructor
    · rintro ⟨account, ⟨held, -, source, there⟩, name, called, same, rfl⟩
      exact ⟨account, ⟨held, toString_inj same⟩, source, there, called⟩
    · rintro ⟨account, ⟨held, same⟩, source, there, called⟩
      have listed := same ▸ asked _ member
      exact ⟨account, ⟨held, listed, source, there⟩, value, called, congrArg toString same, rfl⟩
  | source =>
    obtain ⟨ids, read, asked⟩ := storedIds_ok "source_id" fun text member => by
      obtain ⟨event, -, fits, named⟩ := known text member
      exact ⟨event.sourceId, fits, named⟩
    refine ⟨_, congrArg (· >>= _) read, ?_⟩
    intro event member
    apply lookup_reverse
    intro value
    unfold labelOf
    simp only [List.mem_map, List.mem_filter, Option.map_eq_some_iff, Prod.mk.injEq, lookup_eq_some sources]
    constructor
    · rintro ⟨source, ⟨held, -⟩, same, rfl⟩
      exact ⟨source, ⟨held, toString_inj same⟩, rfl⟩
    · rintro ⟨source, ⟨held, same⟩, rfl⟩
      exact ⟨source, ⟨held, same ▸ asked _ member⟩, congrArg toString same, rfl⟩
  | model | provider | harness | session => exact ⟨[], rfl, fun _ _ => rfl⟩

end Labels

section Table
variable {tables : Tables} {groupBy : Dimension} {rankBy : RankBy} {selected : List Joined} {limit : Nat}

/-- A table of some events: the groups that rank first, each named as the API and a reader name it and with
all that its events add up to, and the total of every group. -/
structure Tabled (tables : Tables) (groupBy : Dimension) (rankBy : RankBy) (limit : Nat) (selected : List Joined)
    (table : Breakdown) : Prop where
  total : table.total = metrics selected
  rows : List.Forall₂ (fun group row => row.metrics = group.2 ∧ ∀ event ∈ selected.map Joined.event,
    groupBy.expression event = group.1 → row.key = spelled event groupBy ∧ row.label = labelOf tables event groupBy)
      ((ranking groupBy rankBy selected).take limit) table.rows

/-- The groups of some events, ranked: each group once, with its events, behind those of a larger measure
and those of the same measure and a lesser key. -/
structure Ranked (groupBy : Dimension) (rankBy : RankBy) (selected : List Joined)
    (groups : List (String × UsageMetrics)) : Prop where
  known : ∀ key, key ∈ groups.map Prod.fst ↔ key ∈ selected.map (groupBy.expression ·.event)
  whole : ∀ group ∈ groups, group.2 = metrics (selected.filter (groupBy.expression ·.event = group.1))
  sorted : groups.Pairwise fun first second => rankBy.measure second.2 < rankBy.measure first.2 ∨
    rankBy.measure first.2 = rankBy.measure second.2 ∧ first.1 < second.1

theorem ranking_ranked (groupBy : Dimension) (rankBy : RankBy) (selected : List Joined) :
    Ranked groupBy rankBy selected (ranking groupBy rankBy selected) := by
  have perm : (ranking groupBy rankBy selected).Perm (split (groupBy.expression ·.event) selected) :=
    perm_ranked _
  refine ⟨fun key => ?_, fun group member => ?_, ranked_sorted (keys_once _ selected)⟩
  · rw [(perm.map Prod.fst).mem_iff, keys_split, List.mem_insertionSort, List.mem_dedup]
  · obtain ⟨key, -, rfl⟩ := List.mem_map.mp (perm.mem_iff.mp member)
    rfl

end Table

/-- An account with a display name and one without, of one source. -/
def twoAccounts : Tables := { Tables.empty with
  sources := [⟨1, "watch", "watch", .cliProxy, "", true, 0⟩]
  accounts := [⟨1, 1, "claude", "", .oauth, some "first", some "team", none, 0, 0⟩,
    ⟨2, 1, "claude", "", .oauth, some "second", none, none, 0, 0⟩] }

/-- A request of the first account and two of the second. -/
def threeRequests : List Joined :=
  [1, 2, 2].map fun account => ⟨{ Shift.requestAt 0 with accountId := account }, none, none, none⟩

end MeteredUsage.Analytics.Breakdowns

import MeteredUsage.Analytics.HealthBuckets
import MeteredUsage.Analytics.Series
import MeteredUsage.Library.Outcome

/-! The parts of a series: its buckets start apart, its rows share the selected events out among them,
and its ranking has every group once. -/

namespace MeteredUsage.Analytics.Series
open MeteredUsage.Values MeteredUsage.Analytics.Filter
open MeteredUsage.Analytics.Metrics MeteredUsage.Library.Groups MeteredUsage.Library.Outcome

section Pairs
variable {Item Row Key Value : Type} {key : Item → Key} {total : Item → Value} {name : Row → Key}
  {value : Row → Value} {items : List Item} {rows : List Row}

theorem map_of_pairs (pairs : List.Forall₂ (fun item row => key item = name row ∧ value row = total item)
    items rows) : rows.map name = items.map key := by
  induction pairs with
  | nil => rfl
  | cons first _ ih => rw [List.map_cons, List.map_cons, ih, first.1]

theorem filter_of_pairs (named : Key → Bool)
    (pairs : List.Forall₂ (fun item row => key item = name row ∧ value row = total item) items rows) :
    (rows.filter fun row => named (name row)).map value =
      (items.filter fun item => named (key item)).map total := by
  induction pairs with
  | nil => rfl
  | cons first _ ih =>
    rw [List.filter_cons, List.filter_cons, first.1]
    split
    next => rw [List.map_cons, List.map_cons, ih, first.2]
    next => exact ih

end Pairs

section Buckets
variable {dates : Dates} {bucket : Bucket} {finish : Timestamp} {zone : TimeZone}

theorem Bucket.length_pos (bucket : Bucket) : 0 < bucket.length := by
  cases bucket <;> decide

/-- The bucket a local instant falls in. -/
def placeOf (bucket : Bucket) (zone : TimeZone) (start : BucketStart) : Int :=
  bucket.floor (toDatetime zone start.start)

theorem firstInstant_inside {civil : Int} {instant : Timestamp}
    (found : bucket.firstInstant dates civil zone = .ok (some instant)) :
    bucket.floor (toDatetime zone instant) = civil := by
  unfold Bucket.firstInstant at found
  dsimp only at found
  split at found
  next => cases found
  next mapped _ =>
    split at found
    next inside =>
      cases found
      exact of_decide_eq_true inside
    next =>
      have kept := Except.ok.inj found
      exact of_decide_eq_true (Option.filter_eq_some_iff.mp kept).2

/-- The buckets found so far, each before those to come. -/
theorem startsFrom_sorted {left : Nat} {civil : Int} {done starts : List BucketStart}
    (sorted : done.Pairwise fun first second => placeOf bucket zone first < placeOf bucket zone second)
    (before : ∀ start ∈ done, placeOf bucket zone start < civil)
    (found : bucket.startsFrom dates finish zone left civil done = .ok starts) :
    starts.Pairwise fun first second => placeOf bucket zone first < placeOf bucket zone second := by
  induction left generalizing civil done with
  | zero => cases found
  | succ left ih =>
    have step := bucket.length_pos
    unfold Bucket.startsFrom at found
    split at found
    next => cases found
    next =>
      exact ih sorted (fun start member => (before start member).trans (Int.lt_add_of_pos_right _ step))
        found
    next instant first =>
      have here := firstInstant_inside first
      split at found
      next =>
        cases found
        exact sorted
      next =>
        split at found
        next => cases found
        next =>
          refine ih ?_ ?_ found
          · refine List.pairwise_append.mpr ⟨sorted, List.pairwise_singleton _ _, ?_⟩
            intro earlier member last new
            rw [List.mem_singleton.mp new]
            exact (before earlier member).trans_eq here.symm
          · intro start member
            rcases List.mem_append.mp member with earlier | new
            · exact (before start earlier).trans (Int.lt_add_of_pos_right _ step)
            · rw [List.mem_singleton.mp new]
              exact (le_of_eq here).trans_lt (Int.lt_add_of_pos_right _ step)

/-- No two buckets start at one instant. -/
theorem starts_nodup {start : Timestamp} {starts : List BucketStart}
    (found : bucket.starts dates start finish zone = .ok starts) :
    (starts.map BucketStart.start).Nodup := by
  have sorted := startsFrom_sorted List.Pairwise.nil nofun found
  apply List.pairwise_map.mpr
  apply sorted.imp
  intro first second before same
  unfold placeOf at before
  rw [same] at before
  exact lt_irrefl _ before

end Buckets

section Rows
variable {dates : Dates} {query : SeriesQuery} {shift : Shift} {selected : List Joined}
  {rows : List SeriesRow}

/-- The events of a group of the whole window, and what they add up to. -/
def totalOf (query : SeriesQuery) (selected : List Joined) (key : String) : UsageMetrics :=
  metrics (selected.filter (query.group · = key))

/-- The groups of the window. -/
def groups (query : SeriesQuery) (selected : List Joined) : List String :=
  (selected.map query.group).dedup

theorem rows_of_groups (read : seriesRows dates query shift selected = .ok rows) :
    List.Forall₂ (fun group row => group.2 = row.groupKey ∧
      row.aggregate.metrics = metrics (selected.filter (query.columns dates shift · = group)))
      (selected.map (query.columns dates shift)).dedup rows := by
  apply (forall₂_of_mapM read).imp
  intro group row made
  unfold aggregateOf at made
  split at made
  next => cases made
  next =>
    cases made
    exact ⟨rfl, rfl⟩

theorem sum_of_rows (named : String → Bool) (read : seriesRows dates query shift selected = .ok rows) :
    ((rows.filter (named ·.groupKey)).map (·.aggregate.metrics)).sum =
      metrics (selected.filter (named <| query.group ·)) := by
  have once := List.nodup_dedup (selected.map (query.columns dates shift))
  have known : ∀ row ∈ selected.filter (named <| query.group ·), query.columns dates shift row ∈
      ((selected.map (query.columns dates shift)).dedup.filter (named ·.2)) := by
    intro row member
    obtain ⟨stored, kept⟩ := List.mem_filter.mp member
    exact List.mem_filter.mpr ⟨List.mem_dedup.mpr (List.mem_map_of_mem stored), kept⟩
  rw [metrics_eq_sum, ← sum_filter (once.filter _) (query.columns dates shift) _ known,
    filter_of_pairs named (rows_of_groups read)]
  congr 1
  apply List.map_congr_left
  intro group member
  have kept : named group.2 = true := (List.mem_filter.mp member).2
  rw [← metrics_eq_sum, List.filter_filter]
  congr 1
  -- A group of the statement is of one key, so none of its events is left out.
  apply List.filter_congr
  intro row _
  by_cases same : query.columns dates shift row = group
  · have key : query.group row = group.2 := congrArg Prod.snd same
    simp [same, key, kept]
  · simp [same]

theorem mem_groupKeys (read : seriesRows dates query shift selected = .ok rows) {key : String} :
    key ∈ rows.map SeriesRow.groupKey ↔ key ∈ groups query selected := by
  unfold groups
  rw [map_of_pairs (rows_of_groups read), List.mem_dedup]
  simp only [List.mem_map, List.mem_dedup, exists_exists_and_eq_and, SeriesQuery.columns]

/-- The rows hold all the selected events. -/
theorem sum_rows (read : seriesRows dates query shift selected = .ok rows) :
    (rows.map (·.aggregate.metrics)).sum = metrics selected := by
  have all := sum_of_rows (fun _ => true) read
  rwa [List.filter_true, List.filter_true] at all

/-- Whether a group ranks ahead of another: its measure is larger, or the same and its key less. -/
def ahead (query : SeriesQuery) (selected : List Joined) (first second : String) : Bool :=
  let measure (key : String) := query.rankBy.measure (totalOf query selected key)
  decide (measure second < measure first ∨ measure first = measure second ∧ first < second)

theorem ahead_irrefl (key : String) : ahead query selected key key = false := by
  simp [ahead]

theorem ahead_asymm (first second : String) (leads : ahead query selected first second = true) :
    ahead query selected second first = false := by
  unfold ahead at leads ⊢
  rw [decide_eq_true_iff] at leads
  rw [decide_eq_false_iff_not]
  rintro (more | ⟨same, less⟩)
  · rcases leads with larger | ⟨equal, _⟩
    · exact lt_asymm more larger
    · exact absurd equal (ne_of_lt more)
  · rcases leads with larger | ⟨_, below⟩
    · exact absurd same (ne_of_lt larger)
    · exact lt_asymm less below

theorem totals_eq (read : seriesRows dates query shift selected = .ok rows) :
    totals rows = (rows.map SeriesRow.groupKey).dedup.map fun key => (key, totalOf query selected key) := by
  unfold totals totalOf
  apply List.map_congr_left
  intro key _
  have sums := sum_of_rows (fun other => decide (other = key)) read
  rw [sums]

theorem perm_groups (read : seriesRows dates query shift selected = .ok rows) :
    ((query.ranked rows).map Prod.fst).Perm (groups query selected) := by
  have sorted := (List.perm_insertionSort query.rankBy.before (totals rows)).map Prod.fst
  have keys : (totals rows).map Prod.fst = (rows.map SeriesRow.groupKey).dedup := by
    rw [totals_eq read, List.map_map]
    exact List.map_id' _
  rw [keys] at sorted
  apply sorted.trans
  apply (List.perm_ext_iff_of_nodup (List.nodup_dedup _) (List.nodup_dedup _)).mpr
  intro key
  rw [List.mem_dedup]
  exact mem_groupKeys read

/-- The groups are ranked, each once. -/
theorem ranked_ahead (read : seriesRows dates query shift selected = .ok rows) :
    ((query.ranked rows).map Prod.fst).Pairwise fun first second =>
      ahead query selected first second = true := by
  have total : Std.Total query.rankBy.before := by
    constructor
    intro left right
    unfold RankBy.before
    rcases lt_trichotomy (query.rankBy.measure left.2) (query.rankBy.measure right.2) with less | same | more
    · exact .inr (.inl less)
    · rcases le_total left.1 right.1 with before | after
      · exact .inl (.inr ⟨same, before⟩)
      · exact .inr (.inr ⟨same.symm, after⟩)
    · exact .inl (.inl more)
  have trans : IsTrans (String × UsageMetrics) query.rankBy.before := by
    constructor
    rintro first second third (more | ⟨same, before⟩) (larger | ⟨equal, earlier⟩)
    · exact .inl (larger.trans more)
    · exact .inl (equal ▸ more)
    · exact .inl (same ▸ larger)
    · exact .inr ⟨same.trans equal, before.trans earlier⟩
  have sorted := List.pairwise_insertionSort query.rankBy.before (totals rows)
  have once : ((query.ranked rows).map Prod.fst).Nodup :=
    (perm_groups read).nodup_iff.mpr (List.nodup_dedup _)
  have values : ∀ entry ∈ query.ranked rows, entry.2 = totalOf query selected entry.1 := by
    intro entry member
    have stored := (List.perm_insertionSort query.rankBy.before (totals rows)).mem_iff.mp member
    rw [totals_eq read] at stored
    obtain ⟨key, _, rfl⟩ := List.mem_map.mp stored
    rfl
  apply List.pairwise_map.mpr
  apply (sorted.and (List.pairwise_map.mp once)).imp_of_mem
  rintro first second early late ⟨before, apart⟩
  unfold ahead
  dsimp only
  rw [decide_eq_true_iff, ← values first early, ← values second late]
  rcases before with more | ⟨same, least⟩
  · exact .inl more
  · exact .inr ⟨same, lt_of_le_of_ne least apart⟩

theorem length_ranked (read : seriesRows dates query shift selected = .ok rows) :
    (query.ranked rows).length = (groups query selected).length := by
  have lengths := (perm_groups read).length_eq
  rwa [List.length_map] at lengths

/-- A group is among the top where fewer groups rank ahead of it. -/
theorem mem_top_iff (read : seriesRows dates query shift selected = .ok rows) {key : String}
    (known : key ∈ groups query selected) :
    key ∈ ((query.ranked rows).take query.top).map Prod.fst ↔
      (groups query selected).countP (ahead query selected · key) < query.top := by
  have member := (perm_groups read).mem_iff.mpr known
  rw [List.map_take, mem_take_iff ahead_irrefl ahead_asymm (ranked_ahead read) member,
    (perm_groups read).countP_eq]

end Rows

end MeteredUsage.Analytics.Series

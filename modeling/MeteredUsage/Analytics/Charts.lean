import MeteredUsage.Analytics.Breakdowns

/-! A chart and a table of one question agree, where the sums of its events stay inside 64 bits: the
chart's rows of a group add up over time to the table's row of it, under one name, and its merged rest is
what the table's limit cuts off. -/

namespace MeteredUsage.Analytics.Charts
open MeteredUsage.Store.Sql (Order)
open MeteredUsage.Values MeteredUsage.Store.Schema MeteredUsage.Analytics.Filter
open MeteredUsage.Analytics.Metrics MeteredUsage.Analytics.Query MeteredUsage.Analytics.Series
open MeteredUsage.Analytics.Breakdowns MeteredUsage.Library.Outcome MeteredUsage.Library.Tally
open MeteredUsage.Analytics.RunningSums (Bounded Held)
open MeteredUsage.Analytics.Rollups (indexOf_getElem?)

section Columns
variable {starts : List BucketStart} {keys : List String} {width height : Nat} {rows : List SeriesRow}
  {cells final : List UsageMetrics}

/-- What a column of a grid adds up to. -/
def column (cells : List UsageMetrics) (width height place : Nat) : UsageMetrics :=
  ((List.range height).map fun row => cells.getD (row * width + place) 0).sum

theorem getD_modify (cells : List UsageMetrics) {index : Nat} (inside : index < cells.length) (more : UsageMetrics)
    (other : Nat) : (cells.modify index (· + more)).getD other 0 =
      cells.getD other 0 + if other = index then more else 0 := by
  rw [List.getD_eq_getElem?_getD, List.getD_eq_getElem?_getD, List.getElem?_modify]
  by_cases here : other = index
  · subst here
    rw [List.getElem?_eq_getElem inside]
    simp
  · simp [here, Ne.symm here]

/-- A cell adds to its own column. -/
theorem column_modify (whole : cells.length = height * width) {row place other : Nat} (under : row < height)
    (inside : place < width) (beside : other < width) (more : UsageMetrics) :
    column (cells.modify (row * width + place) (· + more)) width height other =
      column cells width height other + if place = other then more else 0 := by
  have held : row * width + place < cells.length := by
    rw [whole]
    calc row * width + place < row * width + width := by omega
      _ = (row + 1) * width := by rw [Nat.add_mul, Nat.one_mul]
      _ ≤ height * width := Nat.mul_le_mul_right width under
  have cell (line : Nat) : line * width + other = row * width + place ↔ row = line ∧ place = other := by
    constructor
    · intro same
      have lines : line = row := by
        have first := Nat.mul_add_div (show 0 < width by omega) line other
        have second := Nat.mul_add_div (show 0 < width by omega) row place
        rw [Nat.mul_comm, same, Nat.mul_comm, second, Nat.div_eq_of_lt inside, Nat.div_eq_of_lt beside] at first
        omega
      subst lines
      omega
    · rintro ⟨rfl, rfl⟩
      rfl
  unfold column
  simp only [getD_modify cells held, cell]
  rw [List.sum_map_add]
  congr 1
  by_cases same : place = other
  · simp only [same, and_true, if_true]
    exact Library.Groups.sum_ite_of_mem List.nodup_range (List.mem_range.mpr under) more
  · simp [same]

/-- Each column holds what the rows of its key add up to. -/
theorem columns_sum (fits : ∀ row ∈ rows, (indexOf keys row.groupKey).getD keys.length < width)
    (whole : cells.length = starts.length * width) {place : Nat} (inside : place < width)
    (ran : rows.foldlM (Series.place starts keys width) cells = .ok final) :
    column final width starts.length place = column cells width starts.length place +
      ((rows.filter fun row =>
        (indexOf keys row.groupKey).getD keys.length = place).map (·.aggregate.metrics)).sum := by
  induction rows generalizing cells with
  | nil =>
    cases ran
    simp
  | cons row rest ih =>
    rw [List.foldlM_cons] at ran
    obtain ⟨next, placed, later⟩ := bind_ok.mp ran
    unfold Series.place at placed
    split at placed
    next => cases placed
    next bucket found =>
      cases placed
      have under : bucket < starts.length := by
        have bounded := indexOf_lt found
        rwa [List.length_map] at bounded
      have within := fits row List.mem_cons_self
      rw [ih (fun other member => fits other (List.mem_cons_of_mem _ member)) (by rwa [List.length_modify]) later,
        column_modify whole under within inside, List.filter_cons]
      by_cases same : (indexOf keys row.groupKey).getD keys.length = place
      · simp [same, add_assoc]
      · simp [same]

theorem column_zero (count width height place : Nat) : column (List.replicate count 0) width height place = 0 := by
  have zero (index : Nat) : (List.replicate count (0 : UsageMetrics)).getD index 0 = 0 := by
    rw [List.getD_eq_getElem?_getD, List.getElem?_replicate]
    split <;> rfl
  unfold column
  simp only [zero]
  simp

theorem grid_column {names : List (String × Option String)} (once : (names.map Prod.fst).Nodup)
    {name : String × Option String} {place : Nat} (named : names[place]? = some name) :
    ((grid starts names cells).filter (·.key = name.1)).map (fun row => (row.label, row.metrics)) =
      (List.range starts.length).map fun row => (name.2, cells.getD (row * names.length + place) 0) := by
  have listed : (name, place) ∈ names.zipIdx := List.mem_zipIdx_iff_getElem?.mpr named
  have indices : starts.zipIdx.map Prod.snd = List.range starts.length := by
    rw [List.zipIdx_map_snd, List.range_eq_range']
  have keys : (names.zipIdx.map (·.1.1)).Nodup := by
    have firsts : names.zipIdx.map (·.1.1) = names.map Prod.fst := by
      have all := congrArg (List.map Prod.fst) (List.zipIdx_map_fst 0 names)
      rwa [List.map_map] at all
    rw [firsts]
    exact once
  have alone := filter_eq_singleton keys listed
  rw [← indices, List.map_map]
  unfold grid
  rw [List.filter_flatMap, List.map_flatMap, List.map_eq_flatMap]
  congr 1
  funext bucket
  rw [List.filter_map, List.map_map]
  have inner : names.zipIdx.filter ((fun row : SeriesBucket => decide (row.key = name.1)) ∘ fun key =>
      { start := bucket.1.start, key := key.1.1, label := key.1.2,
        metrics := cells.getD (bucket.2 * names.length + key.2) 0 }) = [(name, place)] := alone
  rw [inner]
  rfl

end Columns

section Names
variable {dates : Dates} {tables : Tables} {stored : List Joined} {filter : AnalyticsFilter} {query : SeriesQuery}
  {dimension : Dimension} {shift : Shift} {selected : List Joined} {rows : List SeriesRow}
  {order : Order (String × Aggregate)} {table : Breakdown}

/-- What a table is made of. -/
theorem load_rows {rankBy : RankBy} {limit : Nat} (held : ∀ row ∈ stored, Held row.event)
    (bounded : Bounded (stored.filter (filter.selects ·.event)))
    (tabled : Breakdowns.load tables order stored filter dimension rankBy limit = .ok table) :
    let top := (ranking dimension rankBy (stored.filter (filter.selects ·.event))).take limit
    ∃ labels, dimension.labels tables (top.map Prod.fst) = .ok labels ∧
      List.Forall₂ (fun group row => named dimension labels group.1 = .ok (row.key, row.label) ∧
        row.metrics = group.2) top table.rows ∧
      table.total = metrics (stored.filter (filter.selects ·.event)) := by
  obtain ⟨listed, ran, shared⟩ := aggregate_ok (dimension.expression ·.event) bounded
    fun row member => held row (List.mem_of_mem_filter member)
  have arranged := shared.perm (order.perm listed)
  obtain ⟨_, _, tabled⟩ := bind_ok.mp tabled
  obtain ⟨found, again, tabled⟩ := bind_ok.mp tabled
  obtain rfl := Except.ok.inj (again.symm.trans ran)
  obtain ⟨labels, labelled, tabled⟩ := bind_ok.mp tabled
  obtain ⟨made, each, tabled⟩ := bind_ok.mp tabled
  cases tabled
  rw [ranked_rows arranged] at labelled each
  refine ⟨labels, labelled, ?_, ?_⟩
  · apply (forall₂_of_mapM each).imp
    intro group row spelled
    cases called : named dimension labels group.1 with
    | error error =>
      rw [called] at spelled
      cases spelled
    | ok name =>
      rw [called] at spelled
      cases spelled
      exact ⟨rfl, rfl⟩
  · dsimp only
    rw [List.map_map]
    exact (arranged.additive bounded).total.trans arranged.sum

theorem eq_of_forall₂ {Item Value : Type} {answer : Item → Except AnalyticsError Value} {items : List Item}
    {first second : List Value} (left : List.Forall₂ (fun item value => answer item = .ok value) items first)
    (right : List.Forall₂ (fun item value => answer item = .ok value) items second) : first = second := by
  induction left generalizing second with
  | nil =>
    cases right
    rfl
  | cons answered _ ih =>
    cases right with
    | cons other rest =>
      rw [ih rest, Except.ok.inj (answered.symm.trans other)]

theorem names_eq (held : ∀ row ∈ stored, Held row.event)
    (bounded : Bounded (stored.filter (filter.selects ·.event))) (grouped : query.groupBy = some dimension)
    (read : seriesRows dates query shift (stored.filter (filter.selects ·.event)) = .ok rows)
    (tabled : Breakdowns.load tables order stored filter dimension query.rankBy query.top = .ok table)
    {names : List (String × Option String)} (spelled : query.names tables (query.keys rows) = .ok names) :
    query.keys rows = ((ranking dimension query.rankBy (stored.filter (filter.selects ·.event))).take
        query.top).map Prod.fst ∧
      names = table.rows.map fun row => (row.key, row.label) := by
  have keys := keys_grouped grouped rows
  rw [ranked_series grouped read] at keys
  refine ⟨keys, ?_⟩
  obtain ⟨labels, labelled, pairs, -⟩ := load_rows held bounded tabled
  unfold SeriesQuery.names at spelled
  rw [grouped] at spelled
  obtain ⟨found, again, spelled⟩ := bind_ok.mp spelled
  rw [keys] at again spelled
  obtain rfl := Except.ok.inj (again.symm.trans labelled)
  have each : ∀ key : String, (do
      let name ← dimension.key key
      return (name, (Library.Keyed.lookup Prod.fst found.reverse key).map Prod.snd)) = named dimension found key := by
    intro key
    unfold named
    cases dimension.key key <;> rfl
  simp only [each] at spelled
  apply eq_of_forall₂ (forall₂_of_mapM spelled)
  rw [List.forall₂_map_left_iff, List.forall₂_map_right_iff]
  exact pairs.imp fun _ _ both => both.1

/-- Where the merged rest collides with no group, no name is there twice. -/
theorem withOther_once (grouped : query.groupBy = some dimension)
    (read : seriesRows dates query shift selected = .ok rows) {names : List (String × Option String)}
    (spelled : query.names tables (query.keys rows) = .ok names) (free : ¬Collides query selected) :
    ((withOther query rows names).map Prod.fst).Nodup := by
  have grouping : query.groupBy ≠ none := by simp [grouped]
  have events : ∀ key ∈ query.keys rows, ∃ event, dimension.expression event = key := by
    intro key member
    obtain ⟨row, _, rfl⟩ := List.mem_map.mp (List.mem_dedup.mp ((keyed read).known key member grouping))
    unfold SeriesQuery.group
    rw [grouped]
    exact ⟨row.event, rfl⟩
  obtain ⟨once, other⟩ := names_once (names_spell grouped spelled) (keyed read).once events
  rw [collides_grouped grouped read] at free
  unfold withOther
  rw [List.map_append]
  split
  next merged =>
    refine List.nodup_append.mpr ⟨once, List.nodup_singleton _, ?_⟩
    rintro key member last new rfl
    obtain rfl : key = otherKey := List.mem_singleton.mp new
    exact free ⟨other.mp member, merged⟩
  next => rwa [List.map_nil, List.append_nil]

/-- A row is of a key where the key's place is the row's. -/
theorem place_eq_iff {keys : List String} (once : keys.Nodup) {place : Nat} {key : String}
    (listed : keys[place]? = some key) (other : String) :
    (indexOf keys other).getD keys.length = place ↔ other = key := by
  have inside : place < keys.length := (List.getElem?_eq_some_iff.mp listed).1
  constructor
  · intro same
    cases found : indexOf keys other with
    | none =>
      rw [found] at same
      exact absurd same (Nat.ne_of_gt inside)
    | some index =>
      rw [found, Option.getD_some] at same
      have entry := indexOf_getElem? found
      rw [same, listed] at entry
      exact (Option.some.inj entry).symm
  · rintro rfl
    obtain ⟨index, found⟩ := indexOf_of_mem (List.mem_of_getElem? listed)
    rw [found, Option.getD_some]
    have entry := indexOf_getElem? found
    exact ((List.getElem?_inj inside once).mp (listed.trans entry.symm)).symm

theorem getElem?_of_forall₂ {Item Value : Type} {related : Item → Value → Prop} {items : List Item}
    {values : List Value} (pairs : List.Forall₂ related items values) {place : Nat} {value : Value}
    (listed : values[place]? = some value) : ∃ item, items[place]? = some item ∧ related item value := by
  induction pairs generalizing place with
  | nil => cases listed
  | cons first _ ih =>
    cases place with
    | zero =>
      cases listed
      exact ⟨_, rfl, first⟩
    | succ place => exact ih listed

/-- Every row has a column. -/
theorem fits_width (read : seriesRows dates query shift selected = .ok rows) : ∀ row ∈ rows,
    (indexOf (query.keys rows) row.groupKey).getD (query.keys rows).length <
      (query.keys rows).length + (query.merged rows).toNat := by
  intro row member
  rcases (keyed read).fits row member with known | merged
  · obtain ⟨index, found⟩ := indexOf_of_mem known
    rw [found, Option.getD_some]
    exact (indexOf_lt found).trans_le (Nat.le_add_right _ _)
  · rw [merged]
    cases found : indexOf (query.keys rows) row.groupKey with
    | none => exact Nat.lt_succ_self _
    | some index => exact (indexOf_lt found).trans (Nat.lt_succ_self _)

/-- The column of a key is what the events of its group add up to. -/
theorem column_eq {starts : List BucketStart} {cells : List UsageMetrics} {names : List (String × Option String)}
    (read : seriesRows dates query shift selected = .ok rows)
    (made : Made dates tables stored filter query rows starts cells names) {place : Nat} {key : String}
    (listed : (query.keys rows)[place]? = some key) :
    column cells (withOther query rows names).length starts.length place =
      metrics (selected.filter (query.group · = key)) := by
  have inside : place < (query.keys rows).length := (List.getElem?_eq_some_iff.mp listed).1
  have sums := columns_sum (fits_width read) List.length_replicate (inside.trans_le (Nat.le_add_right _ _)) made.placed
  have ofKey := sum_of_rows (fun other => decide (other = key)) read
  rw [length_withOther made.named, sums, column_zero, zero_add, ← ofKey]
  simp only [place_eq_iff (keyed read).once listed]

section Both
variable {starts : List BucketStart} {cells : List UsageMetrics} {names : List (String × Option String)}

/-- The names a chart gives are those of the table's rows, and the merged rest where there is one. -/
theorem fst_withOther (named : names = table.rows.map fun row => (row.key, row.label)) :
    (withOther query rows names).map Prod.fst =
      table.rows.map BreakdownRow.key ++ (if query.merged rows = true then [otherKey] else []) := by
  unfold withOther
  rw [List.map_append, named, List.map_map]
  congr 1
  split <;> rfl

/-- A row of the table has a column of the chart, under its name and label, that adds up to it. -/
theorem row_cells (held : ∀ row ∈ stored, Held row.event)
    (bounded : Bounded (stored.filter (filter.selects ·.event))) (grouped : query.groupBy = some dimension)
    (read : seriesRows dates query shift (stored.filter (filter.selects ·.event)) = .ok rows)
    (tabled : Breakdowns.load tables order stored filter dimension query.rankBy query.top = .ok table)
    (made : Made dates tables stored filter query rows starts cells names)
    (once : ((withOther query rows names).map Prod.fst).Nodup) {row : BreakdownRow} (member : row ∈ table.rows) :
    ∃ place, (grid starts (withOther query rows names) cells |>.filter (·.key = row.key)).map
          (fun bucket => (bucket.label, bucket.metrics)) =
        (List.range starts.length).map (fun line =>
          (row.label, cells.getD (line * (withOther query rows names).length + place) 0)) ∧
      column cells (withOther query rows names).length starts.length place = row.metrics := by
  obtain ⟨labels, -, pairs, -⟩ := load_rows held bounded tabled
  obtain ⟨keys, named⟩ := names_eq held bounded grouped read tabled made.named
  obtain ⟨place, inside, here⟩ := List.mem_iff_getElem.mp member
  have listed : table.rows[place]? = some row := List.getElem?_eq_some_iff.mpr ⟨inside, here⟩
  have name : (withOther query rows names)[place]? = some (row.key, row.label) := by
    have shorter : place < names.length := by
      rw [named, List.length_map]
      exact inside
    unfold withOther
    rw [List.getElem?_append_left shorter, named, List.getElem?_map, listed]
    rfl
  obtain ⟨ranked, held, -, sum⟩ := getElem?_of_forall₂ pairs listed
  have key : (query.keys rows)[place]? = some ranked.1 := by
    rw [keys, List.getElem?_map, held]
    rfl
  have group : query.group = (dimension.expression ·.event) := by
    funext row
    unfold SeriesQuery.group
    rw [grouped]
    rfl
  have ranks := ranking_ranked dimension query.rankBy (stored.filter (filter.selects ·.event))
  refine ⟨place, grid_column once name, ?_⟩
  rw [column_eq read made key, sum, group]
  exact (ranks.whole ranked (List.mem_of_mem_take (List.mem_of_getElem? held))).symm

end Both

end Names

/-- Buckets of some keys add up key by key, and with the others to all of them. -/
theorem sum_apart {chart : List SeriesBucket} {keyed : List BreakdownRow}
    (once : (keyed.map BreakdownRow.key).Nodup)
    (sums : ∀ row ∈ keyed, ((chart.filter (·.key = row.key)).map SeriesBucket.metrics).sum = row.metrics) :
    ((chart.filter (·.key ∉ keyed.map BreakdownRow.key)).map SeriesBucket.metrics).sum +
      (keyed.map BreakdownRow.metrics).sum = (chart.map SeriesBucket.metrics).sum := by
  let known (bucket : SeriesBucket) : Bool := bucket.key ∈ keyed.map BreakdownRow.key
  have parts : (keyed.map BreakdownRow.metrics).sum = ((chart.filter known).map SeriesBucket.metrics).sum := by
    rw [← Library.Groups.sum_filter once SeriesBucket.key SeriesBucket.metrics fun bucket member =>
      of_decide_eq_true (List.mem_filter.mp member).2, List.map_map]
    congr 1
    apply List.map_congr_left
    intro row member
    dsimp only [Function.comp_apply]
    rw [List.filter_filter, ← sums row member]
    congr 2
    apply List.filter_congr
    intro bucket _
    by_cases same : bucket.key = row.key
    · simp [same, List.mem_map_of_mem (f := BreakdownRow.key) member]
    · simp [same]
  have rest : chart.filter (·.key ∉ keyed.map BreakdownRow.key) = chart.filter fun bucket => !known bucket := by
    apply List.filter_congr
    intro bucket _
    rw [← decide_not]
  have halves := ((List.filter_append_perm known chart).map SeriesBucket.metrics).sum_eq
  rw [List.map_append, List.sum_append] at halves
  rw [← halves, parts, add_comm, ← rest]

/-- Two requests of a model, and one each of two others. -/
def threeModels : List Joined :=
  ["opus", "opus", "gpt", "muse"].map fun model => ⟨{ Shift.requestAt 0 with model := model }, none, none, none⟩

end MeteredUsage.Analytics.Charts

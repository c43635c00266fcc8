import Mathlib.Data.List.ProdSigma
import MeteredUsage.Analytics.SeriesRows
import MeteredUsage.IdTexts
import MeteredUsage.Library.Outcome

/-! A series is a complete grid of its buckets and keys, and holds every selected event once, unless
the key of the merged rest is a key already. -/

namespace MeteredUsage.Analytics.Series
open MeteredUsage.Values MeteredUsage.Store.Schema MeteredUsage.Analytics.Filter
open MeteredUsage.Analytics.Metrics MeteredUsage.Library.Groups MeteredUsage.Store.Response
open MeteredUsage.IdTexts (encode_injective length_digits)
open MeteredUsage.Library.Outcome (forall₂_of_mapM)

section Cells
variable {starts : List BucketStart} {keys : List String} {width : Nat} {rows : List SeriesRow}
  {cells final : List UsageMetrics}

theorem indexOf_lt {names : List String} {name : String} {index : Nat}
    (found : indexOf names name = some index) : index < names.length := by
  obtain ⟨entry, first, rfl⟩ := Option.map_eq_some_iff.mp found
  have member := List.mem_reverse.mp (List.mem_of_find?_eq_some first)
  have place := List.snd_lt_add_of_mem_zipIdx member
  omega

theorem indexOf_of_mem {names : List String} {name : String} (member : name ∈ names) :
    ∃ index, indexOf names name = some index := by
  obtain ⟨index, inside, rfl⟩ := List.mem_iff_getElem.mp member
  have stored : (names[index], index) ∈ names.zipIdx.reverse := by
    rw [List.mem_reverse, List.mem_zipIdx_iff_getElem?]
    exact List.getElem?_eq_getElem inside
  have found : (names.zipIdx.reverse.find? fun entry => entry.1 = names[index]).isSome = true :=
    List.find?_isSome.mpr ⟨_, stored, decide_eq_true rfl⟩
  unfold indexOf
  rw [← Option.isSome_iff_exists, Option.isSome_map]
  exact found

/-- Each row is added to one cell of the grid. -/
theorem cells_sum (fits : ∀ row ∈ rows, (indexOf keys row.groupKey).getD keys.length < width)
    (whole : cells.length = starts.length * width)
    (ran : rows.foldlM (place starts keys width) cells = .ok final) :
    final.length = starts.length * width ∧
      final.sum = cells.sum + (rows.map (·.aggregate.metrics)).sum := by
  induction rows generalizing cells with
  | nil =>
    cases ran
    exact ⟨whole, by simp⟩
  | cons row rest ih =>
    rw [List.foldlM_cons] at ran
    unfold place at ran
    cases found : indexOf (starts.map BucketStart.key) row.bucketKey with
    | none =>
      rw [found] at ran
      cases ran
    | some bucket =>
      rw [found] at ran
      have height : bucket < starts.length := by simpa using indexOf_lt found
      have inside : bucket * width + (indexOf keys row.groupKey).getD keys.length < cells.length := by
        have across := fits row List.mem_cons_self
        have rows : (bucket + 1) * width ≤ starts.length * width := Nat.mul_le_mul_right width height
        rw [Nat.succ_mul] at rows
        omega
      have later := ih (fun other member => fits other (List.mem_cons_of_mem _ member))
        ((List.length_modify _ _ _).trans whole) ran
      refine ⟨later.1, ?_⟩
      rw [later.2, sum_modify inside, List.map_cons, List.sum_cons, add_assoc]

theorem grid_metrics (names : List (String × Option String))
    (whole : cells.length = starts.length * names.length) :
    (grid starts names cells).map SeriesBucket.metrics = cells := by
  have indices {Item : Type} (items : List Item) : items.zipIdx.map Prod.snd = List.range items.length := by
    rw [List.zipIdx_map_snd, List.range_eq_range']
  have rows : (grid starts names cells).map SeriesBucket.metrics =
      (starts.zipIdx.map Prod.snd).flatMap fun row => (names.zipIdx.map Prod.snd).map fun place =>
        cells.getD (row * names.length + place) 0 := by
    unfold grid
    rw [List.map_flatMap, List.flatMap_map]
    simp only [List.map_map]
    rfl
  rw [rows, indices, indices, range_rows names.length (cells.getD · 0), ← whole]
  apply List.ext_getElem
  · simp
  · intro index _ inside
    rw [List.getElem_map, List.getElem_range, List.getD_eq_getElem _ _ inside]

theorem grid_places (starts : List BucketStart) (names : List (String × Option String))
    (cells : List UsageMetrics) : (grid starts names cells).map (fun row => (row.start, row.key)) =
      (starts.map BucketStart.start).product (names.map Prod.fst) := by
  have firsts {Item : Type} (items : List Item) : items.zipIdx.map Prod.fst = items :=
    List.zipIdx_map_fst 0 items
  have rows : (grid starts names cells).map (fun row => (row.start, row.key)) =
      (starts.zipIdx.map Prod.fst).flatMap fun bucket => (names.zipIdx.map Prod.fst).map fun name =>
        (bucket.start, name.1) := by
    unfold grid
    rw [List.map_flatMap, List.flatMap_map]
    simp only [List.map_map]
    rfl
  rw [rows, firsts, firsts, List.product, List.flatMap_map]
  simp only [List.map_map]
  rfl

end Cells

section Names

theorem exists_of_mem_right {Item Value : Type} {related : Item → Value → Prop} {items : List Item}
    {values : List Value} (pairs : List.Forall₂ related items values) {value : Value}
    (member : value ∈ values) : ∃ item ∈ items, related item value := by
  induction pairs with
  | nil => cases member
  | cons first _ ih =>
    rcases List.mem_cons.mp member with rfl | later
    · exact ⟨_, List.mem_cons_self, first⟩
    · obtain ⟨item, stored, holds⟩ := ih later
      exact ⟨item, List.mem_cons_of_mem _ stored, holds⟩

theorem encode_ne_other (id : Nat) : encode id ≠ otherKey := by
  intro same
  have lengths := congrArg (fun text => text.toList.length) same
  simp only [encode, String.toList_ofList, List.length_reverse, length_digits] at lengths
  exact absurd lengths (by decide)

/-- A printed number reads back as itself where it fits. -/
theorem asI64_toString (number : Nat) : asI64 (toString number).toList ['+'] =
    if number < 2 ^ 63 then some (number : Int) else none := by
  have printed : (toString number).toList = Nat.toDigits 10 number := Nat.toList_repr
  have digit : ∀ letter ∈ Nat.toDigits 10 number, letter.isDigit = true := fun letter member =>
    Nat.isDigit_of_mem_toDigits (by decide) (by decide) member
  have whole : asDigits (Nat.toDigits 10 number) = some number := by
    unfold asDigits
    rw [if_pos ⟨Nat.toDigits_ne_nil, List.all_eq_true.mpr digit⟩]
    have value := @Nat.ofDigitChars_ten_toDigits number
    rw [Nat.ofDigitChars_eq_foldl] at value
    simp only [Nat.mul_comm 10] at value
    rw [value]
  have read : asI64 (Nat.toDigits 10 number) ['+'] = (some (number : Int)).filter fun value =>
      decide (-2 ^ 63 ≤ value) && decide (value < 2 ^ 63) := by
    cases letters : Nat.toDigits 10 number with
    | nil => exact absurd letters Nat.toDigits_ne_nil
    | cons first rest =>
      have isDigit := digit first (letters ▸ List.mem_cons_self)
      have plus : first ∉ ['+'] := by
        rw [List.mem_singleton]
        rintro rfl
        exact absurd isDigit (by decide)
      have minus : first ≠ '-' := by
        rintro rfl
        exact absurd isDigit (by decide)
      rw [letters] at whole
      unfold asI64
      split
      next rest same =>
        obtain ⟨head, _⟩ := List.cons.inj same
        exact absurd head minus
      next head tail _ same =>
        obtain ⟨rfl, rfl⟩ := List.cons.inj same
        rw [if_neg plus, whole]
        rfl
      next same => cases same
  rw [printed, read]
  by_cases fits : number < 2 ^ 63
  · rw [if_pos fits]
    exact Option.filter_eq_some_iff.mpr ⟨rfl, by simp; omega⟩
  · rw [if_neg fits]
    exact Option.filter_eq_none_iff.mpr fun value same => by
      cases same
      simp
      omega

theorem toString_ne_other (number : Nat) : toString number ≠ otherKey := by
  intro same
  have printed : (toString number).toList = Nat.toDigits 10 number := Nat.toList_repr
  have letter : 'o' ∈ Nat.toDigits 10 number := by
    rw [← printed, same]
    decide
  exact absurd (Nat.isDigit_of_mem_toDigits (by decide) (by decide) letter) (by decide)

theorem storedId_spells {field : String} {id : Nat} {name : String}
    (spelled : (storedId field (toString id)).map encodeRaw = .ok name) :
    id < 2 ^ 63 ∧ name = encode id := by
  unfold storedId at spelled
  rw [asI64_toString] at spelled
  split at spelled
  next value read =>
    by_cases fits : id < 2 ^ 63
    · rw [if_pos fits] at read
      cases read
      have raw : ((id : Int) % 2 ^ 64).toNat = id := by omega
      refine ⟨fits, ?_⟩
      have same := Except.ok.inj spelled
      rw [← same, encodeRaw, raw]
    · rw [if_neg fits] at read
      cases read
  next => cases spelled

variable {dimension : Dimension} {name : String}

theorem key_injective {first second : UsageEvent}
    (left : dimension.key (dimension.expression first) = .ok name)
    (right : dimension.key (dimension.expression second) = .ok name) :
    dimension.expression first = dimension.expression second := by
  have ids (first second : Nat) {field : String}
      (left : (storedId field (toString first)).map encodeRaw = .ok name)
      (right : (storedId field (toString second)).map encodeRaw = .ok name) :
      toString first = toString second := by
    obtain ⟨fits, spelled⟩ := storedId_spells left
    obtain ⟨room, written⟩ := storedId_spells right
    have bound : 2 ^ 63 < 2 ^ 64 := by decide
    rw [encode_injective (fits.trans bound) (room.trans bound) (spelled.symm.trans written)]
  cases dimension with
  | account => exact ids first.accountId second.accountId left right
  | source => exact ids first.sourceId second.sourceId left right
  | model | provider | harness | session =>
    exact (Except.ok.inj left).trans (Except.ok.inj right).symm

/-- The API spells a key `other` only where it is that text. -/
theorem key_eq_other {event : UsageEvent}
    (spelled : dimension.key (dimension.expression event) = .ok name) :
    name = otherKey ↔ dimension.expression event = otherKey := by
  have ids (id : Nat) {field : String}
      (spelled : (storedId field (toString id)).map encodeRaw = .ok name) :
      name = otherKey ↔ toString id = otherKey := by
    obtain ⟨_, rfl⟩ := storedId_spells spelled
    exact iff_of_false (encode_ne_other id) (toString_ne_other id)
  cases dimension with
  | account => exact ids event.accountId spelled
  | source => exact ids event.sourceId spelled
  | model | provider | harness | session => rw [← Except.ok.inj spelled]

variable {tables : Tables} {query : SeriesQuery} {keys : List String}
  {names : List (String × Option String)}

theorem names_spell (grouped : query.groupBy = some dimension)
    (named : query.names tables keys = .ok names) :
    List.Forall₂ (fun key name => dimension.key key = .ok name.1) keys names := by
  unfold SeriesQuery.names at named
  rw [grouped] at named
  cases labelled : dimension.labels tables keys with
  | error error =>
    simp only [labelled] at named
    cases named
  | ok labels =>
    simp only [labelled] at named
    apply (forall₂_of_mapM named).imp
    intro key name spelled
    cases written : dimension.key key with
    | error error =>
      rw [written] at spelled
      cases spelled
    | ok text =>
      rw [written] at spelled
      cases spelled
      rfl

/-- Keys of events are spelled apart, and `other` stays what it is. -/
theorem names_once (pairs : List.Forall₂ (fun key name => dimension.key key = .ok name.1) keys names)
    (once : keys.Nodup) (known : ∀ key ∈ keys, ∃ event, dimension.expression event = key) :
    (names.map Prod.fst).Nodup ∧ (otherKey ∈ names.map Prod.fst ↔ otherKey ∈ keys) := by
  induction pairs with
  | nil => simp
  | @cons key name rest others first later ih =>
    obtain ⟨fresh, apart⟩ := List.nodup_cons.mp once
    obtain ⟨nodup, other⟩ := ih apart fun text member => known text (List.mem_cons_of_mem _ member)
    obtain ⟨event, rfl⟩ := known key List.mem_cons_self
    constructor
    · rw [List.map_cons, List.nodup_cons]
      refine ⟨?_, nodup⟩
      intro again
      obtain ⟨same, stored, equal⟩ := List.mem_map.mp again
      obtain ⟨text, member, spelled⟩ := exists_of_mem_right later stored
      obtain ⟨source, rfl⟩ := known text (List.mem_cons_of_mem _ member)
      rw [equal] at spelled
      exact fresh (key_injective first spelled ▸ member)
    · rw [List.map_cons, List.mem_cons, List.mem_cons, other]
      exact or_congr_left (eq_comm.trans ((key_eq_other first).trans eq_comm))

end Names

/-- The buckets of the window a question asks about. -/
def windowBuckets (dates : Dates) (stored : List Joined) (filter : AnalyticsFilter) (query : SeriesQuery) :
    Except AnalyticsError (List BucketStart) := do
  let shift := filter.shift (Recorded.load (stored.map Joined.event))
  let rows ← seriesRows dates query shift (stored.filter (filter.selects ·.event))
  match windowStart filter rows with
  | none => return []
  | some start => query.bucket.starts dates start filter.finish filter.timeZone

/-- A complete grid: each returned key is there exactly once for every bucket of the window, of at
most one key more than the top, and the rows hold all the selected events. -/
structure Complete (dates : Dates) (stored : List Joined) (filter : AnalyticsFilter) (query : SeriesQuery)
    (answer : List SeriesBucket) : Prop where
  unique : (answer.map fun row => (row.start, row.key)).Nodup
  full : ∃ starts, windowBuckets dates stored filter query = .ok starts ∧
    ∀ key ∈ answer.map SeriesBucket.key, ∀ start,
      (start, key) ∈ answer.map (fun row => (row.start, row.key)) ↔ start ∈ starts.map BucketStart.start
  few : (answer.map SeriesBucket.key).dedup.length ≤ query.top + 1
  total : (answer.map SeriesBucket.metrics).sum = metrics (stored.filter (filter.selects ·.event))

/-- The key of the merged rest is taken: groups are merged, and one of the top is called `other`; or
there is nothing to merge, of an ungrouped series asked for no key at all. -/
def Collides (query : SeriesQuery) (selected : List Joined) : Prop :=
  match query.groupBy with
  | none => query.top = 0 ∧ selected ≠ []
  | some _ => otherKey ∈ groups query selected ∧ query.top < (groups query selected).length ∧
      (groups query selected).countP (ahead query selected · otherKey) < query.top

instance (query : SeriesQuery) (selected : List Joined) : Decidable (Collides query selected) := by
  unfold Collides
  split <;> infer_instance

section Load
variable {dates : Dates} {tables : Tables} {stored : List Joined} {filter : AnalyticsFilter}
  {query : SeriesQuery} {selected : List Joined} {rows : List SeriesRow} {shift : Shift}
  {answer : List SeriesBucket}

/-- The keys of an answer, and how many of the groups they are. -/
structure Keyed (query : SeriesQuery) (selected : List Joined) (rows : List SeriesRow) : Prop where
  once : (query.keys rows).Nodup
  fits : ∀ row ∈ rows, row.groupKey ∈ query.keys rows ∨ query.merged rows = true
  known : ∀ key ∈ query.keys rows, query.groupBy ≠ none → key ∈ groups query selected

theorem keys_grouped {dimension : Dimension} (grouped : query.groupBy = some dimension)
    (rows : List SeriesRow) :
    query.keys rows = ((query.ranked rows).take query.top).map Prod.fst := by
  unfold SeriesQuery.keys
  simp [grouped]

theorem merged_iff (read : seriesRows dates query shift selected = .ok rows) :
    query.merged rows = true ↔ query.top < (groups query selected).length := by
  unfold SeriesQuery.merged
  rw [decide_eq_true_iff, length_ranked read]

theorem groups_ungrouped (ungrouped : query.groupBy = none) (selected : List Joined) :
    groups query selected = if selected = [] then [] else [allKey] := by
  have same : query.group = fun _ => allKey := by
    funext row
    unfold SeriesQuery.group
    rw [ungrouped]
    rfl
  unfold groups
  rw [same]
  cases selected with
  | nil => rfl
  | cons row rest =>
    rw [if_neg (List.cons_ne_nil _ _), List.map_const', List.length_cons]
    exact List.replicate_dedup (Nat.succ_ne_zero _)

theorem keys_ungrouped (read : seriesRows dates query shift selected = .ok rows)
    (ungrouped : query.groupBy = none) : query.keys rows = [allKey] := by
  have named : ∀ key ∈ (query.ranked rows).map Prod.fst, key = allKey := by
    intro key member
    have group := (perm_groups read).mem_iff.mp member
    rw [groups_ungrouped ungrouped] at group
    split at group
    next => cases group
    next => exact List.mem_singleton.mp group
  have once : ((query.ranked rows).map Prod.fst).Nodup :=
    (perm_groups read).nodup_iff.mpr (List.nodup_dedup _)
  unfold SeriesQuery.keys
  rw [ungrouped, List.map_take]
  cases kept : ((query.ranked rows).map Prod.fst).take query.top with
  | nil => rfl
  | cons first rest =>
    have sublist := List.take_sublist query.top ((query.ranked rows).map Prod.fst)
    rw [kept] at sublist
    have single : rest = [] := by
      cases rest with
      | nil => rfl
      | cons second rest =>
        have apart := (List.nodup_cons.mp (once.sublist sublist)).1
        have left := named first (sublist.subset List.mem_cons_self)
        have right := named second (sublist.subset (List.mem_cons_of_mem _ List.mem_cons_self))
        rw [left, right] at apart
        exact absurd List.mem_cons_self apart
    rw [single, named first (sublist.subset List.mem_cons_self)]
    rfl

theorem keyed (read : seriesRows dates query shift selected = .ok rows) : Keyed query selected rows := by
  have once : ((query.ranked rows).map Prod.fst).Nodup :=
    (perm_groups read).nodup_iff.mpr (List.nodup_dedup _)
  have group : ∀ row ∈ rows, row.groupKey ∈ groups query selected := fun row member =>
    (mem_groupKeys read).mp (List.mem_map_of_mem member)
  cases grouped : query.groupBy with
  | none =>
    have keys := keys_ungrouped read grouped
    refine ⟨keys ▸ List.nodup_singleton _, ?_, fun _ _ dimension => absurd grouped dimension⟩
    intro row member
    have known := group row member
    rw [groups_ungrouped grouped] at known
    split at known
    next => cases known
    next => exact .inl (keys ▸ known)
  | some dimension =>
    have keys := keys_grouped grouped rows
    rw [List.map_take] at keys
    refine ⟨keys ▸ once.sublist (List.take_sublist _ _), ?_, ?_⟩
    · intro row member
      by_cases merged : query.merged rows = true
      · exact .inr merged
      · have whole : ((query.ranked rows).map Prod.fst).length ≤ query.top := by
          rw [List.length_map, length_ranked read]
          exact not_lt.mp (mt (merged_iff read).mpr merged)
        rw [keys, List.take_of_length_le whole]
        exact .inl ((perm_groups read).mem_iff.mpr (group row member))
    · intro key member _
      rw [keys] at member
      exact (perm_groups read).mem_iff.mp (List.mem_of_mem_take member)

/-- What an answer is made of. -/
structure Made (dates : Dates) (tables : Tables) (stored : List Joined) (filter : AnalyticsFilter)
    (query : SeriesQuery) (rows : List SeriesRow) (starts : List BucketStart)
    (cells : List UsageMetrics) (names : List (String × Option String)) : Prop where
  window : windowBuckets dates stored filter query = .ok starts
  apart : (starts.map BucketStart.start).Nodup
  placed : rows.foldlM (place starts (query.keys rows) ((query.keys rows).length +
    (query.merged rows).toNat)) (List.replicate (starts.length * ((query.keys rows).length +
    (query.merged rows).toNat)) 0) = .ok cells
  named : query.names tables (query.keys rows) = .ok names

/-- The names of the keys, and the name of the merged rest. -/
def withOther (query : SeriesQuery) (rows : List SeriesRow) (names : List (String × Option String)) :
    List (String × Option String) :=
  names ++ if query.merged rows then [(otherKey, none)] else []

theorem load_ok (answered : load dates tables stored filter query = .ok answer) :
    ∃ rows, seriesRows dates query (filter.shift (Recorded.load (stored.map Joined.event)))
        (stored.filter (filter.selects ·.event)) = .ok rows ∧
      (rows = [] ∧ answer = [] ∧ windowBuckets dates stored filter query = .ok [] ∨
        ∃ starts cells names, Made dates tables stored filter query rows starts cells names ∧
          answer = grid starts (withOther query rows names) cells) := by
  obtain ⟨_, _, answered⟩ := Library.Outcome.bind_ok.mp answered
  obtain ⟨rows, read, answered⟩ := Library.Outcome.bind_ok.mp answered
  refine ⟨rows, read, ?_⟩
  have window : windowBuckets dates stored filter query = match windowStart filter rows with
      | none => .ok []
      | some start => query.bucket.starts dates start filter.finish filter.timeZone := by
    unfold windowBuckets
    simp only [read]
    rfl
  cases begins : windowStart filter rows with
  | none =>
    rw [begins] at answered window
    have nothing : rows = [] := by
      have least : filter.start = none ∧ (rows.map (·.aggregate.firstAt)).min? = none := by
        simpa [windowStart] using begins
      simpa using List.min?_eq_none_iff.mp least.2
    exact .inl ⟨nothing, (Except.ok.inj answered).symm, window⟩
  | some start =>
    rw [begins] at answered window
    obtain ⟨starts, found, answered⟩ := Library.Outcome.bind_ok.mp answered
    obtain ⟨cells, placed, answered⟩ := Library.Outcome.bind_ok.mp answered
    obtain ⟨names, named, answered⟩ := Library.Outcome.bind_ok.mp answered
    exact .inr ⟨starts, cells, names, ⟨window.trans found, starts_nodup found, placed, named⟩,
      (Except.ok.inj answered).symm⟩

variable {starts : List BucketStart} {cells : List UsageMetrics} {names : List (String × Option String)}

theorem length_names (named : query.names tables (query.keys rows) = .ok names) :
    names.length = (query.keys rows).length := by
  cases grouped : query.groupBy with
  | none =>
    unfold SeriesQuery.names at named
    rw [grouped] at named
    cases named
    rw [List.length_map]
  | some dimension => exact (names_spell grouped named).length_eq.symm

theorem length_withOther (named : query.names tables (query.keys rows) = .ok names) :
    (withOther query rows names).length = (query.keys rows).length + (query.merged rows).toNat := by
  unfold withOther
  rw [List.length_append, length_names named]
  cases query.merged rows <;> rfl

theorem Made.cells_total (made : Made dates tables stored filter query rows starts cells names)
    (read : seriesRows dates query shift selected = .ok rows) :
    cells.length = starts.length * (withOther query rows names).length ∧ cells.sum = metrics selected := by
  have fits : ∀ row ∈ rows, (indexOf (query.keys rows) row.groupKey).getD (query.keys rows).length <
      (query.keys rows).length + (query.merged rows).toNat := by
    intro row member
    rcases (keyed read).fits row member with known | merged
    · obtain ⟨index, found⟩ := indexOf_of_mem known
      rw [found, Option.getD_some]
      exact (indexOf_lt found).trans_le (Nat.le_add_right _ _)
    · rw [merged]
      cases found : indexOf (query.keys rows) row.groupKey with
      | none => exact Nat.lt_succ_self _
      | some index => exact (indexOf_lt found).trans (Nat.lt_succ_self _)
  obtain ⟨whole, total⟩ := cells_sum fits List.length_replicate made.placed
  rw [length_withOther made.named]
  refine ⟨whole, ?_⟩
  rw [total, sum_rows read, List.sum_replicate, nsmul_zero, zero_add]

/-- A row found its bucket, so there is one. -/
theorem Made.starts_ne_nil (made : Made dates tables stored filter query rows starts cells names)
    (some_row : rows ≠ []) : starts ≠ [] := by
  rintro rfl
  obtain ⟨row, rest, rfl⟩ := List.exists_cons_of_ne_nil some_row
  have placed := made.placed
  rw [List.foldlM_cons] at placed
  obtain ⟨_, first, _⟩ := Library.Outcome.bind_ok.mp placed
  cases first

theorem mem_keys_grid {names : List (String × Option String)} (some_start : starts ≠ []) {key : String} :
    key ∈ (grid starts names cells).map SeriesBucket.key ↔ key ∈ names.map Prod.fst := by
  have places := congrArg (List.map Prod.snd) (grid_places starts names cells)
  rw [List.map_map] at places
  have keys : (grid starts names cells).map SeriesBucket.key =
      ((starts.map BucketStart.start).product (names.map Prod.fst)).map Prod.snd := places
  obtain ⟨start, rest, rfl⟩ := List.exists_cons_of_ne_nil some_start
  rw [keys, List.mem_map]
  constructor
  · rintro ⟨place, member, rfl⟩
    exact (List.mem_product.mp member).2
  · intro member
    exact ⟨(start.start, key), List.mem_product.mpr ⟨List.mem_cons_self, member⟩, rfl⟩

theorem nodup_of_product {Start Key : Type} {starts : List Start} {keys : List Key}
    (some_start : starts ≠ []) (once : (starts.product keys).Nodup) : keys.Nodup := by
  obtain ⟨start, rest, rfl⟩ := List.exists_cons_of_ne_nil some_start
  have parts : (keys.map (Prod.mk start) ++ rest.product keys).Nodup := once
  exact (List.nodup_append.mp parts).1.of_map

theorem complete_grid (made : Made dates tables stored filter query rows starts cells names)
    (read : seriesRows dates query shift (stored.filter (filter.selects ·.event)) = .ok rows)
    (once : ((withOther query rows names).map Prod.fst).Nodup)
    (few : (withOther query rows names).length ≤ query.top + 1) :
    Complete dates stored filter query (grid starts (withOther query rows names) cells) := by
  obtain ⟨whole, total⟩ := made.cells_total read
  have places := grid_places starts (withOther query rows names) cells
  have keys : ∀ key ∈ (grid starts (withOther query rows names) cells).map SeriesBucket.key,
      key ∈ (withOther query rows names).map Prod.fst := by
    intro key member
    obtain ⟨row, stored, rfl⟩ := List.mem_map.mp member
    have place : (row.start, row.key) ∈ (grid starts (withOther query rows names) cells).map
        fun row => (row.start, row.key) := List.mem_map_of_mem stored
    rw [places] at place
    exact (List.mem_product.mp place).2
  constructor
  case unique =>
    rw [places]
    exact made.apart.product once
  case full =>
    refine ⟨starts, made.window, fun key member start => ?_⟩
    rw [places]
    exact List.mem_product.trans (and_iff_left (keys key member))
  case few =>
    have listed : ((grid starts (withOther query rows names) cells).map SeriesBucket.key).dedup ⊆
        (withOther query rows names).map Prod.fst := fun key member => keys key (List.mem_dedup.mp member)
    have less := ((List.nodup_dedup _).subperm listed).length_le
    rw [List.length_map] at less
    exact less.trans few
  case total => rw [grid_metrics _ whole, total]

theorem selected_eq_nil (read : seriesRows dates query shift selected = .ok []) : selected = [] := by
  have groups := List.forall₂_nil_right_iff.mp (rows_of_groups read)
  exact List.map_eq_nil_iff.mp ((List.dedup_eq_nil _).mp groups)

theorem complete_empty (window : windowBuckets dates stored filter query = .ok [])
    (empty : stored.filter (filter.selects ·.event) = []) : Complete dates stored filter query [] where
  unique := List.nodup_nil
  full := ⟨[], window, fun _ member => absurd member List.not_mem_nil⟩
  few := Nat.zero_le _
  total := by
    rw [empty]
    rfl

/-- The merged rest of a grouped series collides with a group of the top that is called `other`. -/
theorem collides_grouped {dimension : Dimension} (grouped : query.groupBy = some dimension)
    (read : seriesRows dates query shift selected = .ok rows) :
    Collides query selected ↔ otherKey ∈ query.keys rows ∧ query.merged rows = true := by
  have grouping : query.groupBy ≠ none := by simp [grouped]
  unfold Collides
  rw [merged_iff read]
  simp only [grouped]
  constructor
  · rintro ⟨known, more, few⟩
    rw [keys_grouped grouped]
    exact ⟨(mem_top_iff read known).mpr few, more⟩
  · rintro ⟨kept, more⟩
    have known := (keyed read).known otherKey kept grouping
    rw [keys_grouped grouped] at kept
    exact ⟨known, more, (mem_top_iff read known).mp kept⟩

theorem collides_ungrouped (ungrouped : query.groupBy = none)
    (read : seriesRows dates query shift selected = .ok rows) :
    Collides query selected ↔ query.merged rows = true := by
  unfold Collides
  rw [merged_iff read, groups_ungrouped ungrouped]
  simp only [ungrouped]
  by_cases empty : selected = []
  · simp [empty]
  · simp [empty]

theorem grouped_iff {dimension : Dimension} (grouped : query.groupBy = some dimension)
    (made : Made dates tables stored filter query rows starts cells names)
    (read : seriesRows dates query shift (stored.filter (filter.selects ·.event)) = .ok rows) :
    Complete dates stored filter query (grid starts (withOther query rows names) cells) ↔
      ¬Collides query (stored.filter (filter.selects ·.event)) := by
  have grouping : query.groupBy ≠ none := by simp [grouped]
  have events : ∀ key ∈ query.keys rows, ∃ event, dimension.expression event = key := by
    intro key member
    have group := List.mem_dedup.mp ((keyed read).known key member grouping)
    obtain ⟨row, _, rfl⟩ := List.mem_map.mp group
    unfold SeriesQuery.group
    rw [grouped]
    exact ⟨row.event, rfl⟩
  obtain ⟨once, other⟩ := names_once (names_spell grouped made.named) (keyed read).once events
  have spelled : (withOther query rows names).map Prod.fst =
      names.map Prod.fst ++ if query.merged rows = true then [otherKey] else [] := by
    unfold withOther
    rw [List.map_append]
    split <;> rfl
  rw [collides_grouped grouped read]
  constructor
  · rintro complete ⟨kept, merged⟩
    -- The name is there twice, of every bucket.
    have some_row : rows ≠ [] := by
      rintro rfl
      have none_selected := selected_eq_nil read
      have group := (keyed read).known otherKey kept grouping
      rw [none_selected] at group
      cases group
    have places := complete.unique
    rw [grid_places] at places
    have twice := nodup_of_product (by simpa using made.starts_ne_nil some_row) places
    rw [spelled, if_pos merged] at twice
    exact (List.nodup_append.mp twice).2.2 otherKey (other.mpr kept) otherKey
      (List.mem_singleton_self _) rfl
  · intro clear
    apply complete_grid made read
    · rw [spelled]
      split
      next merged =>
        refine List.nodup_append.mpr ⟨once, List.nodup_singleton _, ?_⟩
        rintro key member last new rfl
        rw [List.mem_singleton] at new
        exact clear ⟨other.mp (new ▸ member), merged⟩
      next => rwa [List.append_nil]
    · rw [length_withOther made.named, keys_grouped grouped, List.length_map]
      have kept := List.length_take_le query.top (query.ranked rows)
      have one : (query.merged rows).toNat ≤ 1 := Bool.toNat_le _
      omega

theorem ungrouped_iff (ungrouped : query.groupBy = none)
    (made : Made dates tables stored filter query rows starts cells names)
    (read : seriesRows dates query shift (stored.filter (filter.selects ·.event)) = .ok rows) :
    Complete dates stored filter query (grid starts (withOther query rows names) cells) ↔
      ¬Collides query (stored.filter (filter.selects ·.event)) := by
  have single : names = [(allKey, none)] := by
    have named := made.named
    unfold SeriesQuery.names at named
    rw [ungrouped, keys_ungrouped read ungrouped] at named
    exact (Except.ok.inj named).symm
  rw [collides_ungrouped ungrouped read]
  constructor
  · intro complete merged
    obtain ⟨top, selected⟩ : query.top = 0 ∧ stored.filter (filter.selects ·.event) ≠ [] := by
      have collides := (collides_ungrouped ungrouped read).mpr merged
      unfold Collides at collides
      simpa only [ungrouped] using collides
    have some_row : rows ≠ [] := by
      rintro rfl
      exact selected (selected_eq_nil read)
    have both : (withOther query rows names).map Prod.fst = [allKey, otherKey] := by
      unfold withOther
      rw [single, if_pos merged]
      rfl
    have few := complete.few
    have listed : [allKey, otherKey] ⊆
        ((grid starts (withOther query rows names) cells).map SeriesBucket.key).dedup := by
      intro key member
      rw [List.mem_dedup, mem_keys_grid (made.starts_ne_nil some_row), both]
      exact member
    have apart : [allKey, otherKey].Nodup := by decide
    have more : 2 ≤ _ := (apart.subperm listed).length_le
    omega
  · intro alone
    have names : withOther query rows names = [(allKey, none)] := by
      unfold withOther
      rw [single, if_neg alone]
      rfl
    apply complete_grid made read
    · rw [names]
      exact List.nodup_singleton _
    · rw [names]
      exact Nat.succ_le_succ (Nat.zero_le _)

/-- An answer is a complete grid of all the selected events unless the key of the merged rest is a key
already. -/
theorem load_complete_iff (answered : load dates tables stored filter query = .ok answer) :
    Complete dates stored filter query answer ↔
      ¬Collides query (stored.filter (filter.selects ·.event)) := by
  obtain ⟨rows, read, nothing | ⟨starts, cells, names, made, rfl⟩⟩ := load_ok answered
  · obtain ⟨rfl, rfl, window⟩ := nothing
    have empty := selected_eq_nil read
    refine iff_of_true (complete_empty window empty) ?_
    unfold Collides
    rw [empty]
    split
    next => exact fun collides => collides.2 rfl
    next => exact fun collides => absurd collides.1 List.not_mem_nil
  · cases grouped : query.groupBy with
    | none => exact ungrouped_iff grouped made read
    | some dimension => exact grouped_iff grouped made read

end Load

/-- The dates of a viewer in UTC, who shifts no text by a second. -/
def utcDates : Dates where
  toTimestamp := fun _ civil => some civil
  strftime := fun _ text _ => some (String.ofList (text.toList.take 13))
  date := fun text _ => some (String.ofList (text.toList.take 10))

/-- Two requests of a model called `other`, and one of another. -/
def twoModels : List Joined :=
  ["other", "gpt", "other"].map fun model =>
    ⟨{ Shift.requestAt 0 with model := model }, none, none, none⟩

/-- The first day there is. -/
def firstDay : AnalyticsFilter :=
  ⟨none, hours 24, .utc, [], [], [], [], [], by decide⟩

/-- Requests by model and day, of which so many models keep their key. -/
def byModel (top : Nat) : SeriesQuery := ⟨.day, some .model, top, .requests⟩

theorem two_models_are_a_grid : ∃ answer, load utcDates Tables.empty twoModels firstDay (byModel 2) =
    .ok answer ∧ Complete utcDates twoModels firstDay (byModel 2) answer := by
  have ran : (load utcDates Tables.empty twoModels firstDay (byModel 2)).toOption.isSome = true := by
    decide
  cases answered : load utcDates Tables.empty twoModels firstDay (byModel 2) with
  | error error =>
    rw [answered] at ran
    cases ran
  | ok answer => exact ⟨answer, rfl, (load_complete_iff answered).mpr (by decide)⟩

/-- With one key to keep, the model called `other` and the merged rest are two rows of one key. -/
theorem two_rows_of_one_key : ∃ answer, load utcDates Tables.empty twoModels firstDay (byModel 1) =
    .ok answer ∧ ¬Complete utcDates twoModels firstDay (byModel 1) answer := by
  have ran : (load utcDates Tables.empty twoModels firstDay (byModel 1)).toOption.map
      (fun answer => answer.map fun row => (row.start, row.key)) = some [(0, "other"), (0, "other")] := by
    decide
  cases answered : load utcDates Tables.empty twoModels firstDay (byModel 1) with
  | error error =>
    rw [answered] at ran
    cases ran
  | ok answer =>
    rw [answered] at ran
    have places : answer.map (fun row => (row.start, row.key)) = [(0, "other"), (0, "other")] :=
      Option.some.inj ran
    refine ⟨answer, rfl, fun complete => ?_⟩
    have unique := complete.unique
    rw [places] at unique
    exact absurd unique (by decide)

end MeteredUsage.Analytics.Series

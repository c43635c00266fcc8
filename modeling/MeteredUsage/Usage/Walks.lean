import MeteredUsage.Usage.Pages

/-! Clients that read the stored events page by page while more are ingested: one that goes back until
there is no page before, and one that goes on with what is newer. Each sees every event it asks for
once. -/

namespace MeteredUsage.Usage.Walks
open MeteredUsage.Values MeteredUsage.Store MeteredUsage.Store.Schema MeteredUsage.IdTexts
open MeteredUsage.Usage.Pages MeteredUsage.Library.Keyed MeteredUsage.Library.OrderedLog
open MeteredUsage.Store.Commands (World)
open MeteredUsage.Store.Arrivals (settle unused valid_unused)
open MeteredUsage.Store.Minted (Sound Grown Ingests Mints grown_of_ingests grown_of_run)

section Clients

variable (runtime : Sql.Runtime) (reads : Nat → Tables) (query : Filter) (limit : Option Int)

/-- The pages of a client that follows `next_before` until it is absent. -/
def walk : Nat → Nat → Option String → List EventPage
  | 0, _, _ => []
  | fuel + 1, turn, before =>
    match listUsageEvents runtime (.ok (reads turn)) query limit before none with
    | .found page => page :: page.nextBefore.elim [] fun next => walk fuel (turn + 1) (some next)
    | _ => []

/-- The pages of a client that asks for what comes after the last event it has. -/
def follow : Nat → Nat → String → List EventPage
  | 0, _, _ => []
  | count + 1, turn, after =>
    match listUsageEvents runtime (.ok (reads turn)) query limit none (some after) with
    | .found page => page :: follow count (turn + 1)
        ((page.events.getLast?.map UsageEventOutput.eventId).getD after)
    | _ => []

end Clients

/-- What pages show, in the order they were read. -/
def shown (pages : List EventPage) : List UsageEventOutput := pages.flatMap EventPage.events

/-- What a page shows of events. -/
def Shows (page : EventPage) (events : List UsageEvent) : Prop :=
  ∃ rows : List Loaded, page.events = rows.map .of ∧ rows.map Loaded.event = events

theorem length_of_shows {page : EventPage} {events : List UsageEvent} (shows : Shows page events) :
    page.events.length = events.length := by
  obtain ⟨rows, outputs, same⟩ := shows
  rw [outputs, ← same, List.length_map, List.length_map]

theorem shows_pages {pages : List EventPage} {events : List (List UsageEvent)}
    (each : List.Forall₂ Shows pages events) :
    ∃ rows : List Loaded, shown pages = rows.map .of ∧ rows.map Loaded.event = events.flatten := by
  induction each with
  | nil => exact ⟨[], rfl, rfl⟩
  | cons first _ ih =>
    obtain ⟨rows, outputs, same⟩ := first
    obtain ⟨more, others, rest⟩ := ih
    refine ⟨rows ++ more, ?_, ?_⟩
    · rw [List.map_append, ← outputs, ← others]
      rfl
    · rw [List.map_append, same, rest]
      rfl

/-- What a walk shows that read its first page of these tables: the matching events that were stored by
then, newest first, on one page more than are full. -/
structure Walked (filter : UsageFilter) (width : Nat) (first : Tables) (rows : List Loaded)
    (pages : List EventPage) : Prop where
  shows : shown pages = rows.map .of
  newestFirst : (rows.map Loaded.event).Pairwise fun event next => next.id < event.id
  texts : ((shown pages).map UsageEventOutput.eventId).Pairwise fun text next => next < text
  once : ∀ event, event ∈ rows.map Loaded.event ↔ event ∈ first.events ∧ filter.selects event = true
  count : pages.length = (matching first filter).length / width + 1
  ends : ∃ last, pages.getLast? = some last ∧ last.nextBefore = none

/-- The stored events that are asked for after an id. -/
def newer (tables : Tables) (filter : UsageFilter) (id : Id) : List UsageEvent :=
  (matching tables filter).filter fun event => decide (id.value.toInt < (event.id : Int))

/-- What `after` pages show that were read from the first tables up to the last: newer matching events
in ascending order, without one left out below another; all that were stored at first, where the pages
can hold so many; and all that are stored by now, where the last page is not full. -/
structure Followed (filter : UsageFilter) (width : Nat) (id : Id) (first last : Tables) (rows : List Loaded)
    (pages : List EventPage) : Prop where
  shows : shown pages = rows.map .of
  oldestFirst : (rows.map Loaded.event).Pairwise fun event next => event.id < next.id
  texts : ((shown pages).map UsageEventOutput.eventId).Pairwise fun text next => text < next
  newer : rows.map Loaded.event ⊆ newer last filter id
  gapless : ∀ event ∈ Walks.newer last filter id, ∀ row ∈ rows, event.id ≤ row.event.id →
    event ∈ rows.map Loaded.event
  covers : (Walks.newer first filter id).length ≤ pages.length * width →
    Walks.newer first filter id ⊆ rows.map Loaded.event
  caughtUp : ∀ page, pages.getLast? = some page → page.events.length < width →
    Walks.newer last filter id ⊆ rows.map Loaded.event

section Runs

variable {runtime : Sql.Runtime} {reads : Nat → Tables}
  {query : Filter} {filter : UsageFilter} {limit : Option Int}

/-- Where a walk goes on, as a key of the newest-first order. -/
abbrev Place := OrderDual Nat

def place (event : UsageEvent) : Place := OrderDual.toDual event.id

/-- The events a walk's page is to have. -/
def earlier (reads : Nat → Tables) (filter : UsageFilter) (width turn : Nat) (cursor : Option Place) :
    List UsageEvent :=
  (cursor.elim (newest (reads turn) filter) fun last =>
    (newest (reads turn) filter).filter fun event => last < place event).take width

/-- The events an `after` page is to have. -/
def later (reads : Nat → Tables) (filter : UsageFilter) (width turn cursor : Nat) : List UsageEvent :=
  (Library.Paging.after UsageEvent.id (oldest (reads turn) filter) cursor).take width

variable (sound : ∀ turn, Sound (reads turn))
  (accepted : UsageFilter.tryFrom runtime query = .ok filter)

theorem nextBefore_newest (cursor : Option Cursor) {rows : List Loaded} {events : List UsageEvent}
    {width : Int} (back : ∀ id, cursor ≠ some (.after id)) (same : rows.map Loaded.event = events)
    (positive : 0 < width) :
    nextBefore cursor width rows =
      if events.length = width.toNat then events.getLast?.map fun event => encode event.id else none := by
  have answer : nextBefore cursor width rows =
      if (rows.length : Int) = width then rows.getLast?.map fun row => encode row.event.id else none := by
    cases cursor with
    | none => rfl
    | some cursor =>
      cases cursor with
      | before id => rfl
      | after id => exact absurd rfl (back id)
  have full : (rows.length : Int) = width ↔ events.length = width.toNat := by
    rw [← same, List.length_map]
    omega
  rw [answer, ← same, List.getLast?_map, Option.map_map]
  exact if_congr (same ▸ full) rfl rfl

/-- What a page is told of the one before it. -/
structure Leads (width : Nat) (page : EventPage) (events : List UsageEvent) : Prop where
  shows : Shows page events
  next : page.nextBefore =
    if events.length = width then events.getLast?.map fun event => encode event.id else none

include sound accepted in
theorem walk_answer (turn : Nat) {cursor : Option Place}
    (fits : ∀ last ∈ cursor, OrderDual.ofDual last < 2 ^ 63) : ∃ page,
      listUsageEvents runtime (.ok (reads turn)) query limit
        (cursor.map fun last => encode (OrderDual.ofDual last)) none = .found page ∧
      Leads (pageLimit limit).toNat page (earlier reads filter (pageLimit limit).toNat turn cursor) := by
  have positive := pageLimit_positive limit
  cases cursor with
  | none =>
    have rows := @page_first _ filter _ (sound turn) positive
    exact ⟨_, listUsageEvents_first accepted limit, ⟨_, rfl, rows⟩,
      nextBefore_newest none (by simp) rows positive⟩
  | some last =>
    have rows := @page_before _ filter _ (sound turn) positive _ (fits last rfl)
    exact ⟨_, listUsageEvents_before accepted limit (fits last rfl), ⟨_, rfl, rows⟩,
      nextBefore_newest (some (.before ⟨.ofNat last⟩)) (by simp) rows positive⟩

theorem stored_of_earlier {width turn : Nat} {cursor : Option Place} {event : UsageEvent}
    (member : event ∈ earlier reads filter width turn cursor) : event ∈ (reads turn).events := by
  have inside : event ∈ newest (reads turn) filter := by
    have taken := List.mem_of_mem_take member
    cases cursor with
    | none => exact taken
    | some last => exact List.mem_of_mem_filter taken
  exact (mem_matching.mp (Library.Paging.mem_sorted.mp inside)).1

include sound accepted in
theorem walk_shows (fuel turn : Nat) (cursor : Option Place)
    (fits : ∀ last ∈ cursor, OrderDual.ofDual last < 2 ^ 63) :
    List.Forall₂ (Leads (pageLimit limit).toNat)
      (walk runtime reads query limit fuel turn
        (cursor.map fun last => encode (OrderDual.ofDual last)))
      (Library.Paging.walk place (pageLimit limit).toNat
        (earlier reads filter (pageLimit limit).toNat) fuel turn cursor) := by
  induction fuel generalizing turn cursor with
  | zero => exact .nil
  | succ fuel ih =>
    obtain ⟨page, answer, leads⟩ := walk_answer sound accepted turn fits
    rw [walk, answer, Library.Paging.walk]
    refine .cons leads ?_
    rw [leads.next]
    split
    next full =>
      cases final : (earlier reads filter (pageLimit limit).toNat turn cursor).getLast? with
      | none => exact .nil
      | some last =>
        have stored := stored_of_earlier (List.mem_of_getLast? final)
        exact ih (turn + 1) (some (place last)) fun _ same =>
          Option.some.inj same ▸ (sound turn).fits last stored
    next short => exact .nil

/-- The key of a page's last event is the text of its last row. -/
theorem lastId_of_shows {page : EventPage} {events : List UsageEvent} (shows : Shows page events) :
    page.events.getLast?.map UsageEventOutput.eventId =
      events.getLast?.map fun event => encode event.id := by
  obtain ⟨rows, outputs, same⟩ := shows
  rw [outputs, ← same, List.getLast?_map, List.getLast?_map, Option.map_map, Option.map_map]
  rfl

theorem stored_of_later {width turn cursor : Nat} {event : UsageEvent}
    (member : event ∈ later reads filter width turn cursor) : event ∈ (reads turn).events := by
  have inside : event ∈ oldest (reads turn) filter := List.mem_of_mem_filter (List.mem_of_mem_take member)
  exact (mem_matching.mp (Library.Paging.mem_sorted.mp inside)).1

include sound accepted in
theorem follow_shows (count turn : Nat) {cursor : Nat} (fits : cursor < 2 ^ 63) :
    List.Forall₂ Shows (follow runtime reads query limit count turn (encode cursor))
      (Library.Paging.follow UsageEvent.id (later reads filter (pageLimit limit).toNat) count turn
        cursor) := by
  induction count generalizing turn cursor with
  | zero => exact .nil
  | succ count ih =>
    have rows := @page_after _ filter _ (sound turn) (pageLimit_positive limit) _ fits
    have shows : Shows (eventPage (reads turn) filter (pageLimit limit) (some (.after ⟨.ofNat cursor⟩)))
        (later reads filter (pageLimit limit).toNat turn cursor) := ⟨_, rfl, rows⟩
    have next := lastId_of_shows shows
    rw [follow, listUsageEvents_after accepted limit fits, Library.Paging.follow]
    refine .cons shows ?_
    rw [next]
    cases final : (later reads filter (pageLimit limit).toNat turn cursor).getLast? with
    | none => exact ih (turn + 1) fits
    | some last =>
      exact ih (turn + 1) ((sound turn).fits last (stored_of_later (List.mem_of_getLast? final)))

theorem texts_shown {pages : List EventPage} {rows : List Loaded} (shows : shown pages = rows.map .of) :
    (shown pages).map UsageEventOutput.eventId =
      (rows.map Loaded.event).map fun event => encode event.id := by
  rw [shows, List.map_map, List.map_map]
  rfl

theorem last_of_forall₂ {First Second : Type} {related : First → Second → Prop} {left : List First}
    {right : List Second} (each : List.Forall₂ related left right) {last : Second}
    (final : right.getLast? = some last) : ∃ first, left.getLast? = some first ∧ related first last := by
  induction each with
  | nil => cases final
  | cons first rest ih =>
    cases rest with
    | nil =>
      cases final
      exact ⟨_, rfl, first⟩
    | cons _ _ =>
      rw [List.getLast?_cons_cons] at final ⊢
      exact ih final

theorem newer_perm {tables : Tables} {value : Nat} (fits : value < 2 ^ 63) :
    (newer tables filter ⟨.ofNat value⟩).Perm
      (Library.Paging.after UsageEvent.id (oldest tables filter) value) := by
  simp only [newer, Int64.toInt_ofNat_of_lt fits, Nat.cast_lt]
  exact Library.Paging.sorted_perm.symm.filter _

end Runs

section Results

variable {runtime : Sql.Runtime} {reads : Nat → Tables}
  {query : Filter} {filter : UsageFilter} (sound : Sound (reads 0))
  (runs : ∀ turn, Relation.ReflTransGen (Ingests runtime) (reads turn) (reads (turn + 1)))
include sound runs

/-- Ingests between two reads leave what the first of them found, and newer events. -/
theorem reads_grown (turn : Nat) : Grown (reads 0) (reads turn) := by
  induction turn with
  | zero => exact .refl sound
  | succ turn ih => exact ih.trans (grown_of_run ih.sound (runs turn))

theorem reads_sound (turn : Nat) : Sound (reads turn) := (reads_grown sound runs turn).sound

theorem served (filter : UsageFilter) (width : Nat) : Library.Paging.Served UsageEvent.id width
    (fun turn => oldest (reads turn) filter) (later reads filter width) where
  ordered turn := ordered_oldest (reads_sound sound runs turn)
  grows turn := oldest_grown (grown_of_run (reads_sound sound runs turn) (runs turn))
  reads _ _ := rfl

variable (accepted : UsageFilter.tryFrom runtime query = .ok filter) (limit : Option Int)
include accepted

theorem walk_walked (fuel : Nat)
    (enough : (matching (reads 0) filter).length / (pageLimit limit).toNat < fuel) :
    ∃ rows, Walked filter (pageLimit limit).toNat (reads 0) rows
      (walk runtime reads query limit fuel 0 none) := by
  have ordered : Ordered place (newest (reads 0) filter) := ordered_newest sound
  have positive := pageLimit_positive limit
  have below : ∀ turn, ∀ event ∈ newest (reads 0) filter,
      earlier reads filter (pageLimit limit).toNat turn (some (place event)) =
        ((newest (reads 0) filter).filter fun later => place event < place later).take
          (pageLimit limit).toNat := by
    intro turn event member
    have stored := (mem_matching.mp (Library.Paging.mem_sorted.mp member)).1
    exact congrArg (List.take _) (newest_below (reads_grown sound runs turn) stored)
  have length : (newest (reads 0) filter).length = (matching (reads 0) filter).length :=
    Library.Paging.length_sorted
  rw [← length] at enough
  obtain ⟨whole, count, last, final, short⟩ := Library.Paging.walk_reads ordered (by omega) below fuel 0 none
    (List.nil_append _).symm rfl enough
  have leads : List.Forall₂ (Leads (pageLimit limit).toNat)
      (walk runtime reads query limit fuel 0 none)
      (Library.Paging.walk place (pageLimit limit).toNat
        (earlier reads filter (pageLimit limit).toNat) fuel 0 none) :=
    walk_shows (reads_sound sound runs) accepted fuel 0 none (by simp)
  obtain ⟨rows, shows, same⟩ := shows_pages (leads.imp fun _ _ leads => leads.shows)
  rw [whole] at same
  have fits : ∀ event ∈ rows.map Loaded.event, event.id < 2 ^ 64 := by
    intro event member
    rw [same] at member
    have small := sound.fits event (mem_matching.mp (Library.Paging.mem_sorted.mp member)).1
    exact small.trans (by decide)
  have descending : (rows.map Loaded.event).Pairwise fun event next => next.id < event.id := same ▸ ordered
  refine ⟨rows, shows, descending, ?_, ?_, ?_, ?_⟩
  · rw [texts_shown shows, List.pairwise_map]
    refine descending.imp_of_mem fun {event next} here there below => ?_
    exact (encode_lt_iff (fits next there) (fits event here)).mpr below
  · intro event
    rw [same]
    exact Library.Paging.mem_sorted.trans mem_matching
  · rw [leads.length_eq, count, length]
  · obtain ⟨page, ends, leads⟩ := last_of_forall₂ leads final
    exact ⟨page, ends, leads.next.trans (if_neg short.ne)⟩

theorem follow_followed {value : Nat} (fits : value < 2 ^ 63) (count : Nat) :
    ∃ rows, Followed filter (pageLimit limit).toNat ⟨.ofNat value⟩ (reads 0) (reads count) rows
      (follow runtime reads query limit (count + 1) 0 (encode value)) := by
  have each : List.Forall₂ Shows (follow runtime reads query limit (count + 1) 0 (encode value))
      (Library.Paging.follow UsageEvent.id (later reads filter (pageLimit limit).toNat) (count + 1) 0
        value) :=
    follow_shows (reads_sound sound runs) accepted (count + 1) 0 fits
  obtain ⟨rows, shows, same⟩ := shows_pages each
  have serves := served sound runs filter (pageLimit limit).toNat
  have begins := serves.follow_starts (count + 1) 0 value (by omega : 0 + (count + 1) ≤ count + 1)
  have taken := serves.take_prefix_follow (count + 1) 0 value
  rw [← same] at begins taken
  have held := @newer_perm filter (reads count) _ fits
  have whole : Ordered UsageEvent.id
      (Library.Paging.after UsageEvent.id (oldest (reads count) filter) value) :=
    (serves.ordered count).filter _
  have ascending : (rows.map Loaded.event).Pairwise fun event next => event.id < next.id :=
    whole.sublist begins.sublist
  have inside : rows.map Loaded.event ⊆ newer (reads count) filter ⟨.ofNat value⟩ :=
    fun event member => held.mem_iff.mpr (begins.subset member)
  have small : ∀ event ∈ rows.map Loaded.event, event.id < 2 ^ 64 := by
    intro event member
    have stored := (mem_matching.mp (List.mem_of_mem_filter (inside member))).1
    exact ((reads_sound sound runs count).fits event stored).trans (by decide)
  refine ⟨rows, shows, ascending, ?_, inside, ?_, ?_, ?_⟩
  · rw [texts_shown shows, List.pairwise_map]
    refine ascending.imp_of_mem fun {event next} here there above => ?_
    exact (encode_lt_iff (small event here) (small next there)).mpr above
  · intro event member row shown below
    exact Library.Paging.mem_start_of_le whole begins (held.mem_iff.mp member)
      (List.mem_map_of_mem shown) below
  · intro wide event member
    have first := @newer_perm filter (reads 0) _ fits
    rw [each.length_eq, Library.Paging.length_follow, first.length_eq] at wide
    rw [List.take_of_length_le wide] at taken
    exact taken.subset (first.mem_iff.mp member)
  · intro page final short event member
    obtain ⟨events, last, lastShows⟩ := last_of_forall₂ each.flip final
    rw [length_of_shows lastShows] at short
    have all := serves.follow_eq_of_short count 0 value last short
    rw [same, all, Nat.zero_add]
    exact held.mem_iff.mp member

/-- For every accepted query and whatever is ingested between two reads, following `next_before` shows
every matching event that was stored at first once, newest first, and ends; and `after` pages show the
newer ones in order, without a gap. -/
theorem paging_visits_every_event_once :
    (∀ fuel, (matching (reads 0) filter).length / (pageLimit limit).toNat < fuel →
      ∃ rows, Walked filter (pageLimit limit).toNat (reads 0) rows
        (walk runtime reads query limit fuel 0 none)) ∧
    ∀ text id, Id.fromStr text = .ok id → ∀ count, ∃ rows,
      Followed filter (pageLimit limit).toNat id (reads 0) (reads count) rows
        (follow runtime reads query limit (count + 1) 0 text) := by
  refine ⟨walk_walked sound runs accepted limit, fun text id read count => ?_⟩
  obtain ⟨value, fits, rfl, rfl⟩ := exists_of_fromStr read
  exact follow_followed sound runs accepted limit fits count

end Results

section DuringIngest

/-- A runtime that sums bytes for their hash. -/
def summing : Sql.Runtime :=
  { Sql.Runtime.inert with blake3 := fun bytes => toString (bytes.map UInt8.toNat).sum }

/-- A world that hands out ids from the first to the last. -/
def handing (first last : Nat) : World := .calm 0 fun next => min (first + next) last

theorem mints_handing {tables : Tables} {first last : Nat} (order : first ≤ last) (fits : last < 2 ^ 63)
    (below : ∀ event ∈ tables.events, event.id < first) : Mints tables (handing first last) where
  later event member next := (below event member).trans_le (le_min (Nat.le_add_right first next) order)
  fits _ := (min_le_right _ _).trans_lt fits

/-- What two requests leave. -/
def twoRequests : Tables :=
  settle summing unused (.ingest 1 [.record (.idle "old" 0), .record (.idle "new" 0)], handing 1 9)

/-- A third request is ingested once the first page is read. -/
def duringIngest : Nat → Tables
  | 0 => twoRequests
  | _ + 1 => settle summing twoRequests (.ingest 1 [.record (.idle "later" 0)], handing 10 19)

theorem sound_twoRequests : Sound twoRequests := by
  have empty : Sound unused := ⟨valid_unused, .nil, fun _ absent => absurd absent List.not_mem_nil⟩
  have mints : Mints unused (handing 1 9) :=
    mints_handing (by decide) (by decide) fun _ absent => absurd absent List.not_mem_nil
  exact (grown_of_ingests empty ⟨1, _, _, mints, rfl⟩).sound

theorem runs_duringIngest (turn : Nat) :
    Relation.ReflTransGen (Ingests summing) (duringIngest turn) (duringIngest (turn + 1)) := by
  cases turn with
  | succ turn => exact .refl
  | zero =>
    have low : ∀ event ∈ twoRequests.events, event.id < 10 := by decide +kernel
    exact .single ⟨1, _, _, mints_handing (by decide) (by decide) low, rfl⟩

theorem sound_duringIngest : Sound (duringIngest 0) := sound_twoRequests

def everyEvent : Filter := ⟨none, none, none, none, none, none⟩

theorem everyEvent_accepted : UsageFilter.tryFrom summing everyEvent = .ok .default := rfl

/-- A third request comes in between the pages of the first two. -/
theorem paging_during_an_ingest :
    (∃ rows, Walked .default (pageLimit (some 1)).toNat (duringIngest 0) rows
      (walk summing duringIngest everyEvent (some 1) 3 0 none)) ∧
    ∃ rows, Followed .default (pageLimit (some 1)).toNat ⟨2⟩ (duringIngest 0) (duringIngest 1) rows
      (follow summing duringIngest everyEvent (some 1) 2 0 (encode 2)) := by
  have visits := paging_visits_every_event_once sound_duringIngest runs_duringIngest everyEvent_accepted (some 1)
  exact ⟨visits.1 3 (by decide +kernel), visits.2 (encode 2) ⟨2⟩ (by decide +kernel) 1⟩

/-- The third request is on no page of the walk. -/
example : (shown (walk summing duringIngest everyEvent (some 1) 3 0 none)).map
    UsageEventOutput.eventId = [encode 4, encode 2] := by decide +kernel

end DuringIngest

end MeteredUsage.Usage.Walks

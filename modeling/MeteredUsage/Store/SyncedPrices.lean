import Mathlib.Data.List.MinMax
import MeteredUsage.Library.Execution
import MeteredUsage.Library.Versions
import MeteredUsage.Store.Commands
import MeteredUsage.Store.CostMap
import MeteredUsage.Store.Statements

/-! The prices one origin's maps leave, and what a request is charged after the last of them. A
row is only ever added, so a key that a later map drops keeps its last rates. -/

namespace MeteredUsage.Store.SyncedPrices
open MeteredUsage.Values MeteredUsage.Store.Schema MeteredUsage.Store.Prices
open MeteredUsage.Store.CostMap MeteredUsage.Store.Cost MeteredUsage.Store.Commands
open MeteredUsage.Store.Statements MeteredUsage.Library.Execution MeteredUsage.Library.Keyed
open MeteredUsage.Library.Transaction MeteredUsage.Library.Versions

/-- One number, or two zeros of different sign; a NaN stored as it was read is itself. -/
def Agree (first second : Rates) : Prop := first = second ∨ alike first second = true

/-- The rates a map has for a key: those of its last entry. -/
def ratesIn (prices : List CatalogPrice) (key : Key) : Option Rates :=
  (prices.reverse.find? (·.key = key)).map CatalogPrice.rates

theorem ratesIn_append (done : List CatalogPrice) (price : CatalogPrice) (key : Key) :
    ratesIn (done ++ [price]) key =
      if price.key = key then some price.rates else ratesIn done key := by
  unfold ratesIn
  rw [List.reverse_append, List.reverse_singleton, List.singleton_append, List.find?_cons]
  by_cases same : price.key = key <;> simp [same]

theorem exists_rates {prices : List CatalogPrice} {price : CatalogPrice} (member : price ∈ prices) :
    ∃ rates, ratesIn prices price.key = some rates := by
  have found : (prices.reverse.find? (·.key = price.key)).isSome = true := by
    rw [List.find?_isSome]
    exact ⟨price, List.mem_reverse.mpr member, decide_eq_true rfl⟩
  obtain ⟨entry, known⟩ := Option.isSome_iff_exists.mp found
  exact ⟨entry.rates, by rw [ratesIn, known]; rfl⟩

variable {origin : Origin} {now : Timestamp} {base : List ModelPrice} {tables : Tables}

theorem notes_known (origins : ∀ row ∈ tables.prices, row.origin = origin) :
    Notes keyOf since ModelPrice.rates (latestOf (known origin tables)) tables.prices := by
  have total : Std.Total fun first second : ModelPrice => since first ≤ since second :=
    ⟨fun _ _ => le_total _ _⟩
  have trans : IsTrans ModelPrice fun first second => since first ≤ since second :=
    ⟨fun _ _ _ => le_trans⟩
  have sorted := List.pairwise_insertionSort
    (fun first second : ModelPrice => since first ≤ since second)
    (tables.prices.filter (·.origin = origin))
  apply (notes_of_sorted sorted).perm
  intro row
  rw [List.mem_insertionSort, List.mem_filter, decide_eq_true_eq]
  exact ⟨fun member => ⟨member, origins row member⟩, And.left⟩

/-- A map's loop in progress, with the entries it is done with. -/
structure Syncing (origin : Origin) (now : Timestamp) (base : List ModelPrice)
    (done : List CatalogPrice) (recording : Recording) (session : Session Tables) : Prop where
  origins : ∀ row ∈ session.data.prices, row.origin = origin
  dated : ∀ row ∈ session.data.prices, row.effectiveFrom ≤ now
  ids : Distinct ModelPrice.id session.data.prices
  below : ∀ row ∈ session.data.prices, row.id < session.ids 0
  rising : ∀ next, session.ids next < session.ids (next + 1)
  notes : Notes keyOf since ModelPrice.rates recording.latest session.data.prices
  noted : ∀ key rates, ratesIn done key = some rates →
    ∃ kept, recording.latest.lookup key = some kept ∧ Agree kept rates
  keys : ∀ row ∈ session.data.prices, row ∈ base ∨ keyOf row ∈ done.map CatalogPrice.key

variable {done : List CatalogPrice} {recording : Recording} {session : Session Tables}
  {price : CatalogPrice}

theorem keys_append (keys : ∀ row ∈ session.data.prices,
    row ∈ base ∨ keyOf row ∈ done.map CatalogPrice.key) :
    ∀ row ∈ session.data.prices, row ∈ base ∨ keyOf row ∈ (done ++ [price]).map CatalogPrice.key := by
  intro row member
  rw [List.map_append, List.mem_append, ← or_assoc]
  exact .inl (keys row member)

/-- An entry whose rates its key has already. -/
theorem Syncing.skip (syncing : Syncing origin now base done recording session)
    (same : effectiveFrom now recording price = none) :
    Syncing origin now base (done ++ [price]) recording.skip session :=
  { syncing with
    keys := keys_append syncing.keys
    noted := by
      intro key rates named
      rw [ratesIn_append] at named
      split at named
      next here =>
        cases named
        unfold effectiveFrom at same
        split at same
        next kept known =>
          split at same
          next agree => exact ⟨kept, here ▸ known, .inr agree⟩
          next => cases same
        next => cases same
      next => exact syncing.noted key rates named }

/-- A new row counts after every row of its key. -/
theorem Syncing.newest (syncing : Syncing origin now base done recording session)
    {date : Timestamp} (dated : effectiveFrom now recording price = some date) :
    ∀ row ∈ session.data.prices, keyOf row = price.key →
      since row ≤ since (price.row (session.ids 0) origin date) := by
  intro row member same
  unfold effectiveFrom at dated
  split at dated
  next kept known =>
    split at dated
    next => cases dated
    next =>
      cases dated
      refine Prod.Lex.toLex_le_toLex.mpr ?_
      rcases lt_or_eq_of_le (syncing.dated row member) with before | at_once
      · exact .inl before
      · exact .inr ⟨at_once, (syncing.below row member).le⟩
  next unknown => exact absurd same (syncing.notes.absent _ unknown row member)

theorem Syncing.add (syncing : Syncing origin now base done recording session) (epoch : 0 ≤ now)
    {date : Timestamp} (dated : effectiveFrom now recording price = some date)
    (fails : Nat → Bool) :
    Syncing origin now base (done ++ [price]) (recording.note price) { session with
      data := { session.data with
        prices := session.data.prices ++ [price.row (session.ids 0) origin date] }
      ids := fun next => session.ids (next + 1)
      fails := fails } where
  origins := by
    intro row member
    rcases List.mem_append.mp member with earlier | here
    · exact syncing.origins row earlier
    · rw [List.mem_singleton.mp here]
      rfl
  dated := by
    intro row member
    rcases List.mem_append.mp member with earlier | here
    · exact syncing.dated row earlier
    · rw [List.mem_singleton.mp here]
      change date ≤ now
      unfold effectiveFrom at dated
      split at dated
      next =>
        split at dated
        next => cases dated
        next =>
          cases dated
          exact le_rfl
      next =>
        cases dated
        exact epoch
  ids := syncing.ids.append_singleton fun row member => (syncing.below row member).ne
  below := by
    intro row member
    rcases List.mem_append.mp member with earlier | here
    · exact (syncing.below row earlier).trans (syncing.rising 0)
    · rw [List.mem_singleton.mp here]
      exact syncing.rising 0
  rising := fun next => syncing.rising (next + 1)
  notes := by
    have newest : ∀ row ∈ session.data.prices,
        keyOf row = keyOf (price.row (session.ids 0) origin date) →
        since row ≤ since (price.row (session.ids 0) origin date) := syncing.newest dated
    exact syncing.notes.append newest
  noted := by
    intro key rates named
    rw [ratesIn_append] at named
    change ∃ kept, List.lookup key ((price.key, price.rates) :: recording.latest) = some kept ∧ _
    split at named
    next here =>
      cases named
      rw [here, List.lookup_cons_self]
      exact ⟨price.rates, rfl, .inl rfl⟩
    next apart =>
      rw [List.lookup_cons, beq_false_of_ne (Ne.symm apart)]
      exact syncing.noted key rates named
  keys := by
    intro row member
    rcases List.mem_append.mp member with earlier | here
    · exact keys_append syncing.keys row earlier
    · rw [List.mem_singleton.mp here]
      exact .inr (List.mem_map.mpr ⟨price, by simp, rfl⟩)

theorem carries_recordNext (epoch : 0 ≤ now) :
    Carries (Syncing origin now base done recording) (recordNext origin now recording price)
      fun next => Syncing origin now base (done ++ [price]) next := by
  unfold recordNext
  split
  next same => exact Carries.pure fun _ syncing => syncing.skip same
  next date dated =>
    have taken : Carries (Syncing origin now base done recording) (nextId : Write PriceId)
        fun id session => ∃ before, Syncing origin now base done recording before ∧
          id = before.ids 0 ∧ session = { before with ids := fun next => before.ids (next + 1) } :=
      Carries.nextId fun session syncing => ⟨session, syncing, rfl, rfl⟩
    apply taken.bind
    intro id
    have added : Carries (fun session => ∃ before, Syncing origin now base done recording before ∧
          id = before.ids 0 ∧ session = { before with ids := fun next => before.ids (next + 1) })
        (attempt (insertRow (price.row id origin date)))
        fun _ => Syncing origin now base (done ++ [price]) (recording.note price) := by
      apply Carries.statement
      rintro _ _ changed ⟨before, syncing, rfl, rfl⟩ answered
      unfold insertRow at answered
      split at answered
      next => cases answered
      next =>
        cases answered
        exact syncing.add epoch dated _
    exact added.bind fun _ => Carries.pure fun _ syncing => syncing

/-- What recording a map leaves: each of its keys with the rates the map has for it, and no key
that neither the map nor the rows before it had. -/
structure Followed (origin : Origin) (now : Timestamp) (base : List ModelPrice)
    (prices : List CatalogPrice) (tables : Tables) : Prop where
  origins : ∀ row ∈ tables.prices, row.origin = origin
  ids : Distinct ModelPrice.id tables.prices
  dated : ∀ row ∈ tables.prices, row.effectiveFrom ≤ now
  latest : ∀ key rates, ratesIn prices key = some rates →
    ∃ row, Latest keyOf since tables.prices key row ∧ Agree row.rates rates
  keys : ∀ row ∈ tables.prices, row ∈ base ∨ keyOf row ∈ prices.map CatalogPrice.key

theorem followed_ignores {prices : List CatalogPrice} :
    IgnoresFeed (Followed origin now base prices) := fun _ _ followed =>
  ⟨followed.origins, followed.ids, followed.dated, followed.latest, followed.keys⟩

theorem Syncing.followed (syncing : Syncing origin now base done recording session) :
    Followed origin now base done session.data where
  origins := syncing.origins
  ids := syncing.ids
  dated := syncing.dated
  latest := by
    intro key rates named
    obtain ⟨kept, known, agree⟩ := syncing.noted key rates named
    obtain ⟨row, latest, rfl⟩ := syncing.notes.found key kept known
    exact ⟨row, latest, agree⟩
  keys := syncing.keys

/-- A map is recorded at a time no row is dated after, with ids above those handed out before. -/
structure Ready (tables : Tables) (world : World) : Prop where
  epoch : 0 ≤ world.clock 0
  dated : ∀ row ∈ tables.prices, row.effectiveFrom ≤ world.clock 0
  below : ∀ row ∈ tables.prices, row.id < world.ids 0
  rising : ∀ next, world.ids next < world.ids (next + 1)

/-- The rows of a stored state are of one origin. -/
structure OfOrigin (origin : Origin) (tables : Tables) : Prop where
  origins : ∀ row ∈ tables.prices, row.origin = origin
  ids : Distinct ModelPrice.id tables.prices

theorem OfOrigin.syncing (known : OfOrigin origin tables) {world : World} (ready : Ready tables world)
    {session : Session Tables} (data : session.data = tables) (ids : session.ids = world.ids)
    (report : SyncReport) :
    Syncing origin (world.clock 0) tables.prices [] ⟨latestOf (Prices.known origin tables), [], report⟩
      session where
  origins := data ▸ known.origins
  dated := data ▸ ready.dated
  ids := data ▸ known.ids
  below := by
    rw [data, ids]
    exact ready.below
  rising := ids ▸ ready.rising
  notes := by
    rw [data]
    exact notes_known known.origins
  noted := nofun
  keys := fun row member => .inl (data ▸ member)

/-- A transaction begun in a world, before its first statement. -/
def Begun (tables : Tables) (world : World) (session : Session Tables) : Prop :=
  session.data = tables ∧ session.ids = world.ids

/-- What the loop over a map leaves is what its transaction commits, changes of the feed apart. -/
theorem landed_record {world : World} {catalog : Catalog} {report : SyncReport} {next : Tables}
    {holds : Tables → Prop} (ignores : IgnoresFeed holds)
    (loops : ∀ session, Begun tables world session → ∀ recording finish,
      catalog.prices.foldlM (recordNext origin (world.clock 0))
        ⟨latestOf (Prices.known origin tables), [], report⟩ session = .ok (recording, finish) →
      holds finish.data)
    (taken : landed (catalog.record origin report) (world.session tables) = some next) :
    holds next := by
  have reads : Carries (Begun tables world) (fetch (Prices.known origin)) fun rows session =>
      Begun tables world session ∧ rows = Prices.known origin tables := by
    apply Carries.query
    rintro session ⟨rfl, ids⟩
    exact ⟨⟨rfl, ids⟩, rfl⟩
  have looped (rows : List ModelPrice) : Carries
      (fun session => Begun tables world session ∧ rows = Prices.known origin tables)
      (catalog.prices.foldlM (recordNext origin (world.clock 0)) ⟨latestOf rows, [], report⟩)
      fun _ session => holds session.data := by
    constructor
    rintro session recording finish ⟨begun, rfl⟩ ran
    exact loops session begun recording finish ran
  have announces (models : List String) : Holds holds
      (forM models fun model => Schema.record (.price model)) fun _ => holds :=
    Holds.forM fun model _ => holds_record ignores (.price model)
  have whole : Carries (Begun tables world) (do
      let rows ← fetch (Prices.known origin)
      let recording ← catalog.prices.foldlM (recordNext origin (world.clock 0))
        ⟨latestOf rows, [], report⟩
      forM (inOrder recording.changed) fun model => Schema.record (.price model)
      commit (.database .query) recording.report)
      fun ending session => OnCommit holds ending session.data := by
    apply reads.bind
    intro rows
    apply (looped rows).bind
    intro recording
    exact ((announces _).bind fun _ => holds_commit _).carries
  have committed := landed_iff.mp taken
  unfold Catalog.record at committed
  rw [performed_reading, performed_iff] at committed
  obtain ⟨value, ran⟩ := committed
  obtain ⟨finish, rfl, kept⟩ := whole.transact ⟨rfl, rfl⟩ ran
  exact kept

theorem followed_record {world : World} {catalog : Catalog} {report : SyncReport} {next : Tables}
    (ready : Ready tables world) (known : OfOrigin origin tables)
    (taken : landed (catalog.record origin report) (world.session tables) = some next) :
    Followed origin (world.clock 0) tables.prices catalog.prices next := by
  refine landed_record followed_ignores ?_ taken
  rintro session ⟨data, ids⟩ recording finish ran
  have folded : Carries
      (Syncing origin (world.clock 0) tables.prices []
        ⟨latestOf (Prices.known origin tables), [], report⟩)
      (catalog.prices.foldlM (recordNext origin (world.clock 0))
        ⟨latestOf (Prices.known origin tables), [], report⟩)
      (Syncing origin (world.clock 0) tables.prices catalog.prices) :=
    Carries.foldlM catalog.prices fun _ _ _ _ _ => carries_recordNext ready.epoch
  exact (folded.ends session recording finish (known.syncing ready data ids report) ran).followed

end MeteredUsage.Store.SyncedPrices

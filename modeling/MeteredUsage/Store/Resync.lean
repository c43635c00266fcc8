import Mathlib.RingTheory.Coprime.Basic
import Mathlib.Tactic.Ring
import MeteredUsage.Store.Charges

/-! Recording one map twice. The second time nothing is new where the map has one entry for each
key, and it has one unless two of a model's long-context keys, or one of them and the base price,
start at one token count. -/

namespace MeteredUsage.Store.Resync
open MeteredUsage.Values MeteredUsage.Store.Schema MeteredUsage.Store.Prices
open MeteredUsage.Store.CostMap MeteredUsage.Store.Commands MeteredUsage.Store.SyncedPrices
open MeteredUsage.Library.Execution MeteredUsage.Library.Keyed MeteredUsage.Library.Transaction
open MeteredUsage.Library.Versions
open MeteredUsage.Collector.LiteLlm (wrap64)

variable {floats : Floats} {model : String} {entry : Members}

/-- Whether an entry has rates for a key tail and the suffix of a service tier. -/
def Priced (floats : Floats) (entry : Members) (tail suffix : String) : Prop :=
  (rates floats entry tail suffix).isSome = true

def tailOf (thousands : Int) : String := "_above_" ++ toString thousands ++ longContextSuffix

/-- Two counts of thousands whose tokens are one 64-bit number. -/
def Meet (first second : Int) : Prop := (first - second) % 2 ^ 61 = 0

/-- No two keys of an entry name one threshold for a service tier it prices at both, nor one of
them, of a provider that bills from the threshold itself, the threshold of the base price. -/
structure Unambiguous (floats : Floats) (entry : Members) : Prop where
  apart : entry.Pairwise fun one other => ∀ first second,
    thousandsOf one.1 = some first → thousandsOf other.1 = some second → Meet first second →
      ∀ tier ∈ serviceTiers,
        Priced floats entry (tailOf first) tier.1 → ¬Priced floats entry (tailOf second) tier.1
  based : providerOf entry = some inclusiveThresholdProvider → ∀ member ∈ entry, ∀ thousands,
    thousandsOf member.1 = some thousands → Meet 0 thousands → ∀ tier ∈ serviceTiers,
      Priced floats entry "" tier.1 → ¬Priced floats entry (tailOf thousands) tier.1

/-- No model's entry is ambiguous. -/
def Clear (floats : Floats) (map : Map) : Prop :=
  ∀ model entry, (model, Json.object entry) ∈ map.members → model ≠ sampleEntry →
    Unambiguous floats entry

theorem wrap_eq_wrap_iff (first second : Int) :
    wrap64 first = wrap64 second ↔ (first - second) % 2 ^ 64 = 0 := by
  unfold wrap64
  omega

/-- A thousand has three factors of two, and 125 none. -/
theorem thousand_mul_mod (number : Int) : (number * 1000) % 2 ^ 64 = 0 ↔ number % 2 ^ 61 = 0 := by
  have coprime : IsCoprime ((2 : Int) ^ 61) 125 := ⟨13, -239807672958224171, by norm_num⟩
  have parts : number * 1000 = 2 ^ 3 * (number * 125) := by ring
  have width : (2 : Int) ^ 64 = 2 ^ 3 * 2 ^ 61 := by norm_num
  rw [← Int.dvd_iff_emod_eq_zero, ← Int.dvd_iff_emod_eq_zero, parts, width,
    mul_dvd_mul_iff_left (by norm_num)]
  exact ⟨coprime.dvd_of_dvd_mul_right, fun divides => divides.mul_right 125⟩

theorem wrap_eq_iff (first second past : Int) :
    wrap64 (first * 1000 + past) = wrap64 (second * 1000 + past) ↔ Meet first second := by
  have difference : first * 1000 + past - (second * 1000 + past) = (first - second) * 1000 := by ring
  rw [wrap_eq_wrap_iff, difference, thousand_mul_mod]
  rfl

theorem zero_eq_wrap_iff (thousands : Int) : 0 = wrap64 (thousands * 1000 + 0) ↔ Meet 0 thousands := by
  have zero : wrap64 (0 * 1000 + 0) = 0 := by decide
  rw [← wrap_eq_iff 0 thousands 0, zero]

theorem wrap_ne_zero (thousands : Int) : wrap64 (thousands * 1000 + 1) ≠ 0 := by
  unfold wrap64
  omega

/-- Two thresholds of an entry have no first token count and service tier in common. -/
def Separate (floats : Floats) (entry : Members) (first second : String × Int) : Prop :=
  first.2 = second.2 → ∀ tier ∈ serviceTiers,
    Priced floats entry first.1 tier.1 → ¬Priced floats entry second.1 tier.1

theorem Separate.at_count {first second : String} {count other : Int}
    (separate : Separate floats entry (first, count) (second, other)) (same : count = other) :
    ∀ tier ∈ serviceTiers, Priced floats entry first tier.1 → ¬Priced floats entry second tier.1 :=
  separate same

/-- The prices of one threshold. -/
def pricesAt (floats : Floats) (model : String) (entry : Members) (threshold : String × Int) :
    List CatalogPrice :=
  serviceTiers.filterMap fun tier => (rates floats entry threshold.1 tier.1).map fun rates =>
    ⟨providerOf entry, model, tier.2, threshold.2, rates⟩

theorem mem_keysAt {threshold : String × Int} {key : Key} :
    key ∈ (pricesAt floats model entry threshold).map CatalogPrice.key ↔
      ∃ tier ∈ serviceTiers, Priced floats entry threshold.1 tier.1 ∧
        key = (providerOf entry, model, tier.2, threshold.2) := by
  unfold pricesAt Priced
  simp only [List.mem_map, List.mem_filterMap, Option.map_eq_some_iff, Option.isSome_iff_exists]
  constructor
  · rintro ⟨price, ⟨tier, member, rates, known, rfl⟩, rfl⟩
    exact ⟨tier, member, ⟨rates, known⟩, rfl⟩
  · rintro ⟨tier, member, ⟨rates, known⟩, rfl⟩
    exact ⟨_, ⟨tier, member, rates, known, rfl⟩, rfl⟩

theorem tier_injective : ∀ first ∈ serviceTiers, ∀ second ∈ serviceTiers,
    first.2 = second.2 → first = second := by
  decide

/-- One threshold names each service tier once. -/
theorem nodup_keysAt (threshold : String × Int) :
    ((pricesAt floats model entry threshold).map CatalogPrice.key).Nodup := by
  have tiers : serviceTiers.Pairwise fun first second => first.2 ≠ second.2 := by decide
  unfold pricesAt
  rw [List.Nodup, List.pairwise_map, List.pairwise_filterMap]
  refine tiers.imp ?_
  intro first second apart one found other known same
  obtain ⟨_, _, rfl⟩ := Option.map_eq_some_iff.mp found
  obtain ⟨_, _, rfl⟩ := Option.map_eq_some_iff.mp known
  exact apart (congrArg (fun key : Key => key.2.2.1) same)

theorem disjoint_keysAt_iff {first second : String × Int} :
    List.Disjoint ((pricesAt floats model entry first).map CatalogPrice.key)
      ((pricesAt floats model entry second).map CatalogPrice.key) ↔
      Separate floats entry first second := by
  constructor
  · intro disjoint same tier member priced other
    have left : (providerOf entry, model, tier.2, first.2) ∈
        (pricesAt floats model entry first).map CatalogPrice.key := mem_keysAt.mpr ⟨tier, member, priced, rfl⟩
    have right : (providerOf entry, model, tier.2, second.2) ∈
        (pricesAt floats model entry second).map CatalogPrice.key := mem_keysAt.mpr ⟨tier, member, other, rfl⟩
    rw [same] at left
    exact disjoint left right
  · intro separate key left right
    obtain ⟨tier, member, priced, rfl⟩ := mem_keysAt.mp left
    obtain ⟨other, otherMember, otherPriced, same⟩ := mem_keysAt.mp right
    have tiers : tier.2 = other.2 := congrArg (fun key : Key => key.2.2.1) same
    have counts : first.2 = second.2 := congrArg (fun key : Key => key.2.2.2) same
    obtain rfl := tier_injective tier member other otherMember tiers
    exact separate counts tier member priced otherPriced

theorem nodup_named_iff :
    ((namedPrices floats model entry).map CatalogPrice.key).Nodup ↔
      (thresholds entry).Pairwise (Separate floats entry) := by
  change (((thresholds entry).flatMap (pricesAt floats model entry)).map CatalogPrice.key).Nodup ↔ _
  rw [List.map_flatMap, List.nodup_flatMap]
  constructor
  · intro once
    exact once.2.imp fun disjoint => disjoint_keysAt_iff.mp disjoint
  · intro separate
    exact ⟨fun threshold _ => nodup_keysAt threshold,
      separate.imp fun apart => disjoint_keysAt_iff.mpr apart⟩

/-- The threshold a key names, where the count of its thousands is multiplied out. -/
def thresholdOf (past : Int) (member : String × Json) : Option (String × Int) :=
  (thousandsOf member.1).map fun thousands => (tailOf thousands, wrap64 (thousands * 1000 + past))

theorem thresholdOf_eq_some_iff {past : Int} {member : String × Json} {threshold : String × Int} :
    thresholdOf past member = some threshold ↔ ∃ thousands, thousandsOf member.1 = some thousands ∧
      (tailOf thousands, wrap64 (thousands * 1000 + past)) = threshold :=
  Option.map_eq_some_iff

theorem thresholdOf_named {member : String × Json} {thousands : Int} (past : Int)
    (named : thousandsOf member.1 = some thousands) :
    thresholdOf past member = some (tailOf thousands, wrap64 (thousands * 1000 + past)) :=
  thresholdOf_eq_some_iff.mpr ⟨thousands, named, rfl⟩

def pastThreshold (entry : Members) : Int :=
  if providerOf entry = some inclusiveThresholdProvider then 0 else 1

theorem thresholds_eq : thresholds entry = ("", 0) :: entry.filterMap (thresholdOf (pastThreshold entry)) :=
  rfl

/-- The thresholds of an entry are apart exactly where its keys are. -/
theorem separate_iff : (thresholds entry).Pairwise (Separate floats entry) ↔ Unambiguous floats entry := by
  rw [thresholds_eq, List.pairwise_cons, List.pairwise_filterMap]
  constructor
  · rintro ⟨base, keys⟩
    constructor
    · refine keys.imp ?_
      intro one other separate first second named otherNamed meet
      have left := thresholdOf_named (pastThreshold entry) named
      have right := thresholdOf_named (pastThreshold entry) otherNamed
      have same := (wrap_eq_iff first second (pastThreshold entry)).mpr meet
      exact (separate _ left _ right).at_count same
    · intro inclusive member stored thousands named meet
      have past : pastThreshold entry = 0 := if_pos inclusive
      rw [past] at base
      have listed := List.mem_filterMap.mpr ⟨member, stored, thresholdOf_named 0 named⟩
      exact (base _ listed).at_count ((zero_eq_wrap_iff thousands).mpr meet)
  · intro clear
    constructor
    · intro threshold listed same
      obtain ⟨member, stored, found⟩ := List.mem_filterMap.mp listed
      obtain ⟨thousands, named, rfl⟩ := thresholdOf_eq_some_iff.mp found
      by_cases inclusive : providerOf entry = some inclusiveThresholdProvider
      · have past : pastThreshold entry = 0 := if_pos inclusive
        rw [past] at same
        exact clear.based inclusive member stored thousands named ((zero_eq_wrap_iff thousands).mp same)
      · have past : pastThreshold entry = 1 := if_neg inclusive
        rw [past] at same
        exact absurd same.symm (wrap_ne_zero thousands)
    · refine clear.apart.imp ?_
      intro one other apart first found second known same
      obtain ⟨thousands, named, rfl⟩ := thresholdOf_eq_some_iff.mp found
      obtain ⟨others, otherNamed, rfl⟩ := thresholdOf_eq_some_iff.mp known
      have meet := (wrap_eq_iff thousands others (pastThreshold entry)).mp same
      exact apart thousands others named otherNamed meet

/-- A tier of `tiered_pricing` is left out where its first token count has a price. -/
theorem nodup_withTier {prices : List CatalogPrice} {tier : Members}
    (once : (prices.map CatalogPrice.key).Nodup) :
    ((withTier floats model entry prices tier).map CatalogPrice.key).Nodup := by
  unfold withTier
  split
  next => exact once
  next minInputTokens _ =>
    split
    next => exact once
    next unknown =>
      cases rates floats tier "" "" with
      | none =>
        rw [Option.map_none, Option.toList_none, List.append_nil]
        exact once
      | some rates =>
        have fresh : (providerOf entry, model, none, minInputTokens) ∉ prices.map CatalogPrice.key := by
          intro listed
          obtain ⟨price, member, same⟩ := List.mem_map.mp listed
          have tierless : price.serviceTier = none := congrArg (fun key : Key => key.2.2.1) same
          have count : price.minInputTokens = minInputTokens :=
            congrArg (fun key : Key => key.2.2.2) same
          exact unknown (List.any_eq_true.mpr ⟨price, member, by simp [tierless, count]⟩)
        rw [Option.map_some, Option.toList_some, List.map_append, List.map_singleton]
        exact List.nodup_append'.mpr ⟨once, List.nodup_singleton _,
          List.disjoint_singleton.mpr fresh⟩

theorem prefix_withTier (prices : List CatalogPrice) (tier : Members) :
    prices <+: withTier floats model entry prices tier := by
  unfold withTier
  split
  next => exact List.prefix_rfl
  next =>
    split
    next => exact List.prefix_rfl
    next => exact List.prefix_append _ _

theorem nodup_entry_iff :
    ((entryPrices floats model entry).map CatalogPrice.key).Nodup ↔ Unambiguous floats entry := by
  refine Iff.trans ?_ ((@nodup_named_iff _ model _).trans separate_iff)
  unfold entryPrices
  generalize namedPrices floats model entry = prices
  induction tiersOf entry generalizing prices with
  | nil => exact Iff.rfl
  | cons tier rest ih =>
    rw [List.foldl_cons, ih]
    constructor
    · intro once
      exact once.sublist ((prefix_withTier prices tier).sublist.map CatalogPrice.key)
    · exact nodup_withTier

/-- The prices a member of a map leads to. -/
def pricesOf (floats : Floats) (member : String × Json) : List CatalogPrice :=
  match member with
  | (model, .object entry) => if model = sampleEntry then [] else entryPrices floats model entry
  | _ => []

theorem model_of_mem {member : String × Json} {key : Key}
    (listed : key ∈ (pricesOf floats member).map CatalogPrice.key) : key.2.1 = member.1 := by
  obtain ⟨price, stored, rfl⟩ := List.mem_map.mp listed
  unfold pricesOf at stored
  split at stored
  next model entry =>
    split at stored
    next => cases stored
    next => exact (belongs_entryPrices price stored).1
  next => cases stored

theorem nodup_member_iff (member : String × Json) :
    ((pricesOf floats member).map CatalogPrice.key).Nodup ↔ ∀ entry, member.2 = .object entry →
      member.1 ≠ sampleEntry → Unambiguous floats entry := by
  unfold pricesOf
  split
  next model entry =>
    split
    next sample => exact ⟨fun _ _ _ other => absurd sample other, fun _ => List.nodup_nil⟩
    next named =>
      rw [nodup_entry_iff]
      constructor
      · rintro clear _ ⟨⟩ _
        exact clear
      · intro clear
        exact clear entry rfl named
  next other =>
    have scalar (entry : Members) : member.2 ≠ .object entry := fun same =>
      other member.1 entry (Prod.ext rfl same)
    exact ⟨fun _ entry same => absurd same (scalar entry), fun _ => List.nodup_nil⟩

/-- A map leads to one price for each key where no entry of it is ambiguous. -/
theorem nodup_catalog_iff {map : Map} :
    ((catalogOf floats map).prices.map CatalogPrice.key).Nodup ↔ Clear floats map := by
  change ((map.members.flatMap (pricesOf floats)).map CatalogPrice.key).Nodup ↔ _
  rw [List.map_flatMap, List.nodup_flatMap]
  have models : map.members.Pairwise fun first second => first.1 ≠ second.1 :=
    List.pairwise_map.mp map.keys
  constructor
  · rintro ⟨once, _⟩ model entry stored named
    exact (nodup_member_iff (model, .object entry)).mp (once _ stored) entry rfl named
  · intro clear
    constructor
    · intro member stored
      refine (nodup_member_iff member).mpr fun entry same named => ?_
      exact clear member.1 entry (same ▸ stored) named
    · refine models.imp ?_
      intro first second apart key left right
      exact apart ((model_of_mem left).symm.trans (model_of_mem right))

variable {origin : Origin} {now : Timestamp} {prices done : List CatalogPrice}
  {recording : Recording} {session : Session Tables} {tables between : Tables} {world : World}
  {report : SyncReport} {catalog : Catalog}

/-- The tables with the price rows of one origin only. -/
def only (origin : Origin) (tables : Tables) : Tables :=
  { tables with prices := tables.prices.filter (·.origin = origin) }

theorem known_only : known origin (only origin tables) = known origin tables := by
  unfold known only
  rw [List.filter_filter]
  simp only [Bool.and_self]

theorem origin_only : ∀ row ∈ (only origin tables).prices, row.origin = origin := by
  intro row member
  exact of_decide_eq_true (List.mem_filter.mp member).2

/-- The rows of an origin as a map's loop leaves them, beside those of the other origins. -/
structure Beside (origin : Origin) (now : Timestamp) (base : List ModelPrice)
    (done : List CatalogPrice) (recording : Recording) (session : Session Tables) : Prop where
  own : Syncing origin now base done recording { session with data := only origin session.data }
  below : ∀ row ∈ session.data.prices, row.id < session.ids 0

theorem only_append (tables : Tables) (row : ModelPrice) (own : row.origin = origin) :
    only origin { tables with prices := tables.prices ++ [row] } =
      { only origin tables with prices := (only origin tables).prices ++ [row] } := by
  unfold only
  simp [List.filter_append, own]

theorem carries_next (epoch : 0 ≤ now) {base : List ModelPrice} {price : CatalogPrice} :
    Carries (Beside origin now base done recording) (recordNext origin now recording price)
      (Beside origin now base (done ++ [price])) := by
  unfold recordNext
  split
  next same => exact Carries.pure fun _ beside => ⟨beside.own.skip same, beside.below⟩
  next date dated =>
    have taken : Carries (Beside origin now base done recording) (nextId : Write PriceId)
        fun id session => ∃ before, Beside origin now base done recording before ∧
          id = before.ids 0 ∧ session = { before with ids := fun next => before.ids (next + 1) } :=
      Carries.nextId fun session beside => ⟨session, beside, rfl, rfl⟩
    apply taken.bind
    intro id
    have added : Carries (fun session => ∃ before, Beside origin now base done recording before ∧
          id = before.ids 0 ∧ session = { before with ids := fun next => before.ids (next + 1) })
        (attempt (insertRow (price.row id origin date)))
        fun _ => Beside origin now base (done ++ [price]) (recording.note price) := by
      apply Carries.statement
      rintro _ _ changed ⟨before, beside, rfl, rfl⟩ answered
      unfold insertRow at answered
      split at answered
      next => cases answered
      next =>
        cases answered
        constructor
        · have kept := beside.own.add epoch dated (fun next => before.fails (next + 1))
          exact (only_append before.data _ rfl).symm ▸ kept
        · intro row member
          rcases List.mem_append.mp member with earlier | here
          · exact (beside.below row earlier).trans (beside.own.rising 0)
          · rw [List.mem_singleton.mp here]
            exact beside.own.rising 0
    exact added.bind fun _ => Carries.pure fun _ beside => beside

/-- A map is recorded at a time no row of its origin is dated after, with ids above every row's. -/
structure Current (origin : Origin) (tables : Tables) (world : World) : Prop where
  epoch : 0 ≤ world.clock 0
  dated : ∀ row ∈ tables.prices, row.origin = origin → row.effectiveFrom ≤ world.clock 0
  below : ∀ row ∈ tables.prices, row.id < world.ids 0
  rising : ∀ next, world.ids next < world.ids (next + 1)

theorem Current.beside (current : Current origin tables world)
    (ids : Distinct ModelPrice.id tables.prices) (data : session.data = tables)
    (generator : session.ids = world.ids) :
    Beside origin (world.clock 0) (only origin tables).prices []
      ⟨latestOf (known origin tables), [], report⟩ session := by
  have alone : OfOrigin origin (only origin tables) :=
    ⟨origin_only, ids.sublist List.filter_sublist⟩
  have ready : Ready (only origin tables) world := {
    epoch := current.epoch
    dated := fun row member =>
      current.dated row (List.mem_of_mem_filter member) (origin_only row member)
    below := fun row member => current.below row (List.mem_of_mem_filter member)
    rising := current.rising }
  subst data
  let restricted : Session Tables := { session with data := only origin session.data }
  have ids : restricted.ids = world.ids := generator
  constructor
  · rw [← known_only]
    exact alone.syncing ready rfl ids report
  · rw [generator]
    exact current.below

/-- A recorded map leaves each of its keys with its rates, whatever rows other origins have. -/
theorem followed_only (current : Current origin tables world)
    (ids : Distinct ModelPrice.id tables.prices)
    (taken : landed (catalog.record origin report) (world.session tables) = some between) :
    Followed origin (world.clock 0) (only origin tables).prices catalog.prices (only origin between) := by
  have ignores : Statements.IgnoresFeed fun tables' =>
      Followed origin (world.clock 0) (only origin tables).prices catalog.prices (only origin tables') :=
    fun _ feed followed => followed_ignores _ feed followed
  have folded : Carries
      (Beside origin (world.clock 0) (only origin tables).prices []
        ⟨latestOf (known origin tables), [], report⟩)
      (catalog.prices.foldlM (recordNext origin (world.clock 0))
        ⟨latestOf (known origin tables), [], report⟩)
      (Beside origin (world.clock 0) (only origin tables).prices catalog.prices) :=
    Carries.foldlM catalog.prices fun _ _ _ _ _ => carries_next current.epoch
  have recorded := landed_record ignores (fun session begun recording finish ran =>
    (folded.ends session recording finish (current.beside ids begun.1 begun.2) ran).own.followed) taken
  exact recorded

/-- No price that is read is a NaN, which JSON cannot write. -/
def Numbers (floats : Floats) : Prop :=
  ∀ text price, floats.asF64 text = some price → (floats.perMillion price).isNan = false

theorem eq_self {value : Sql.Float64} (number : value.isNan = false) : value.eq value = true := by
  simp [Sql.Float64.eq, number]

theorem number_of_named {floats : Floats} (numbers : Numbers floats) {name tail : String}
    {price : Sql.Float64} (found : named floats entry name tail = some price) :
    price.isNan = false := by
  obtain ⟨read, stated, rfl⟩ := Option.map_eq_some_iff.mp found
  obtain ⟨json, _, text⟩ := Option.bind_eq_some_iff.mp stated
  cases json with
  | number written => exact numbers written read text
  | _ => cases text

theorem number_of_price {floats : Floats} (numbers : Numbers floats) {name : String}
    {tails : List String} {price : Sql.Float64}
    (found : tails.findSome? (named floats entry name) = some price) : price.isNan = false := by
  obtain ⟨tail, _, named⟩ := List.exists_of_findSome?_eq_some found
  exact number_of_named numbers named

/-- The rates of an entry are numbers, each equal to itself. -/
theorem alike_self {floats : Floats} (numbers : Numbers floats) {threshold tier : String}
    {known : Rates} (priced : rates floats entry threshold tier = some known) :
    alike known known = true := by
  unfold rates at priced
  dsimp only at priced
  split at priced
  next => cases priced
  next =>
    obtain ⟨input, inputFound, priced⟩ := Option.bind_eq_some_iff.mp priced
    obtain ⟨output, outputFound, priced⟩ := Option.bind_eq_some_iff.mp priced
    cases priced
    have ofInput := number_of_price numbers inputFound
    have ofOutput := number_of_price numbers outputFound
    have cache (name : String) : (([threshold ++ tier, threshold, tier, ""].findSome?
        (named floats entry name)).getD input).isNan = false := by
      rcases Option.eq_none_or_eq_some ([threshold ++ tier, threshold, tier, ""].findSome?
        (named floats entry name)) with unnamed | ⟨price, found⟩
      · rw [unnamed]
        exact ofInput
      · rw [found]
        exact number_of_price numbers found
    unfold alike
    rw [eq_self ofInput, eq_self ofOutput, eq_self (cache _), eq_self (cache _)]
    rfl

theorem alike_of_entry (numbers : Numbers floats) :
    ∀ price ∈ entryPrices floats model entry, alike price.rates price.rates = true := by
  have named : ∀ price ∈ namedPrices floats model entry, alike price.rates price.rates = true := by
    intro price member
    obtain ⟨threshold, _, listed⟩ := List.mem_flatMap.mp member
    obtain ⟨tier, _, priced⟩ := List.mem_filterMap.mp listed
    obtain ⟨known, found, rfl⟩ := Option.map_eq_some_iff.mp priced
    exact alike_self numbers found
  unfold entryPrices
  generalize namedPrices floats model entry = prices at named ⊢
  induction tiersOf entry generalizing prices with
  | nil => exact named
  | cons tier rest ih =>
    apply ih
    unfold withTier
    split
    next => exact named
    next =>
      split
      next => exact named
      next =>
        intro price member
        rcases List.mem_append.mp member with earlier | last
        · exact named price earlier
        · obtain ⟨known, found, rfl⟩ := Option.map_eq_some_iff.mp (Option.mem_toList.mp last)
          exact alike_self numbers found

theorem alike_of_catalog (numbers : Numbers floats) {map : Map} :
    ∀ price ∈ (catalogOf floats map).prices, alike price.rates price.rates = true := by
  intro price member
  obtain ⟨stored, _, listed⟩ := List.mem_flatMap.mp member
  split at listed
  next =>
    split at listed
    next => cases listed
    next => exact alike_of_entry numbers price listed
  next => cases listed

/-- With one entry for each key, a map has the rates of that entry. -/
theorem ratesIn_of_nodup {prices : List CatalogPrice} (once : (prices.map CatalogPrice.key).Nodup)
    {price : CatalogPrice} (member : price ∈ prices) : ratesIn prices price.key = some price.rates := by
  unfold ratesIn
  rcases Option.eq_none_or_eq_some (prices.reverse.find? (·.key = price.key)) with none | ⟨found, held⟩
  · have missed := List.find?_eq_none.mp none price (List.mem_reverse.mpr member)
    exact absurd (decide_eq_true rfl) missed
  · have same : found.key = price.key := by simpa using List.find?_some held
    have stored := List.mem_reverse.mp (List.mem_of_find?_eq_some held)
    rw [held, List.inj_on_of_nodup_map once stored member same]
    rfl

theorem effectiveFrom_recorded (followed : Followed origin now prices' prices (only origin tables))
    (once : (prices.map CatalogPrice.key).Nodup)
    (numbers : ∀ price ∈ prices, alike price.rates price.rates = true)
    (log : recording.latest = latestOf (known origin tables)) (later : Timestamp) :
    ∀ price ∈ prices, effectiveFrom later recording price = none := by
  intro price member
  obtain ⟨row, latest, agree⟩ := followed.latest price.key price.rates (ratesIn_of_nodup once member)
  have notes : Notes keyOf since ModelPrice.rates (latestOf (known origin (only origin tables)))
      (only origin tables).prices := notes_known origin_only
  rw [known_only] at notes
  unfold effectiveFrom
  rw [log]
  split
  next kept known =>
    obtain ⟨other, otherLatest, rfl⟩ := notes.found price.key kept known
    have ids : other.id = row.id := congrArg (fun stamp => (ofLex stamp).2) (otherLatest.stamp_eq latest)
    obtain rfl := followed.ids.eq_of_key otherLatest.member latest.member ids
    have same : alike other.rates price.rates = true := by
      rcases agree with equal | same
      · rw [equal]
        exact numbers price member
      · exact same
    rw [if_pos same]
  next unknown => exact absurd latest.same (notes.absent price.key unknown row latest.member)

/-- A loop over entries whose keys all have their rates changes nothing. -/
theorem foldlM_skips {prices : List CatalogPrice} {recording : Recording}
    (known : ∀ price ∈ prices, effectiveFrom now recording price = none) :
    prices.foldlM (recordNext origin now) recording = (pure { recording with report :=
      { recording.report with unchanged := recording.report.unchanged + prices.length } } :
        Write Recording) := by
  induction prices generalizing recording with
  | nil =>
    change (pure recording : Write Recording) = pure _
    congr 1
    simp
  | cons price rest ih =>
    have skips : recordNext origin now recording price = pure recording.skip := by
      unfold recordNext
      rw [known price (by simp)]
    have later : ∀ price ∈ rest, effectiveFrom now recording.skip price = none := fun price member =>
      known price (List.mem_cons_of_mem _ member)
    rw [List.foldlM_cons, skips, pure_bind, ih later]
    simp only [Recording.skip, List.length_cons, Nat.cast_add, Nat.cast_one]
    congr 3
    ring

/-- A recording that finds nothing new reads the rows and commits, and reports every entry
unchanged. -/
def Settled (origin : Origin) (since : Timestamp) (catalog : Catalog) (tables : Tables) : Prop :=
  ∀ (world : World) (report : SyncReport), since ≤ world.clock 0 →
    transact (catalog.record origin report) (world.session tables) =
      (if world.fails 0 || world.fails 1 then .error (.database .query)
        else .ok (.committed { report with unchanged := report.unchanged + catalog.prices.length }),
        tables)

theorem settled_of_skips (skips : ∀ later report, ∀ price ∈ catalog.prices,
    effectiveFrom later ⟨latestOf (known origin tables), [], report⟩ price = none)
    (since : Timestamp) : Settled origin since catalog tables := by
  intro world report _
  let rest (rows : List ModelPrice) : Write (Ending SyncReport) := do
    let recording ← catalog.prices.foldlM (recordNext origin (world.clock 0)) ⟨latestOf rows, [], report⟩
    forM (inOrder recording.changed) fun model => Schema.record (.price model)
    commit (.database .query) recording.report
  have begun : transact (catalog.record origin report) (world.session tables) =
      transact (fetch (known origin) >>= rest)
        { world.session tables with clock := fun next => world.clock (next + 1) } := rfl
  have last : rest (known origin tables) = commit (.database .query)
      { report with unchanged := report.unchanged + catalog.prices.length } := by
    change (catalog.prices.foldlM (recordNext origin (world.clock 0))
      ⟨latestOf (known origin tables), [], report⟩ >>= _) = _
    rw [foldlM_skips (skips (world.clock 0) report), pure_bind]
    rfl
  rw [begun]
  exact transact_query_commit _ last

/-- An entry's key, which says nothing of its provider: a map names one for each model. -/
def entryKey (price : CatalogPrice) : String × Option String × Int :=
  (price.model, price.serviceTier, price.minInputTokens)

theorem nodup_entryKey_iff {map : Map} :
    ((catalogOf floats map).prices.map entryKey).Nodup ↔
      ((catalogOf floats map).prices.map CatalogPrice.key).Nodup := by
  rw [List.Nodup, List.Nodup, List.pairwise_map, List.pairwise_map]
  apply List.Pairwise.iff_of_mem
  intro first second member other
  apply not_congr
  constructor
  · intro same
    have model : first.model = second.model := congrArg Prod.fst same
    have tail := congrArg Prod.snd same
    exact Prod.ext (one_provider member other model) (Prod.ext model tail)
  · exact congrArg Prod.snd

/-- A map has one entry for each model, service tier and threshold and a second recording of it
changes nothing exactly where none of its entries is ambiguous. -/
theorem recorded_once_iff {map : Map} (numbers : Numbers floats)
    (ids : Distinct ModelPrice.id tables.prices) (current : Current origin tables world)
    (taken : landed ((catalogOf floats map).record origin report) (world.session tables) =
      some between) :
    ((catalogOf floats map).prices.map entryKey).Nodup ∧
      Settled origin (world.clock 0) (catalogOf floats map) between ↔ Clear floats map := by
  rw [nodup_entryKey_iff, nodup_catalog_iff]
  refine and_iff_left_of_imp fun clear => ?_
  have followed := followed_only current ids taken
  apply settled_of_skips
  intro later report
  exact effectiveFrom_recorded followed (nodup_catalog_iff.mpr clear) (alike_of_catalog numbers) rfl later

open MeteredUsage.Store.Charges (cents)

theorem numbers_cents : Numbers cents := by
  intro text price _
  change (if _ = ratePrecision then _ else _ : Sql.Float64).isNan = false
  split <;> rfl

/-- A model with a base price and one more from a number of thousands. -/
def thousandsMap (provider above : String) : Map where
  members := [("model", .object [("litellm_provider", .string provider),
    ("input_cost_per_token", .number "1e-06"), ("output_cost_per_token", .number "1e-06"),
    (longContextPrefix ++ above ++ longContextSuffix, .number "2e-06")])]
  keys := by simp

theorem current_empty : Current .liteLlmPublic Tables.empty (.calm 1 fun next => 1 + next) where
  epoch := by decide
  dated := nofun
  below := nofun
  rising := fun next => Nat.lt_succ_self (1 + next)

/-- A threshold apart from the base price is recorded once. -/
theorem a_threshold_is_recorded_once : ∃ between,
    landed ((catalogOf cents (thousandsMap "xai" "200")).record .liteLlmPublic ⟨0, 0, []⟩)
      (World.session (.calm 1 fun next => 1 + next) Tables.empty) = some between ∧
    between.prices.length = 2 ∧
    ((catalogOf cents (thousandsMap "xai" "200")).prices.map entryKey).Nodup ∧
    Settled .liteLlmPublic 1 (catalogOf cents (thousandsMap "xai" "200")) between := by
  have ran : (landed ((catalogOf cents (thousandsMap "xai" "200")).record .liteLlmPublic ⟨0, 0, []⟩)
      (World.session (.calm 1 fun next => 1 + next) Tables.empty)).any (·.prices.length = 2) = true := by
    decide +kernel
  obtain ⟨between, taken, count⟩ := (Option.any_eq_true _ _).mp ran
  have clear : Clear cents (thousandsMap "xai" "200") := by
    rw [← nodup_catalog_iff]
    decide +kernel
  have distinct : Distinct ModelPrice.id Tables.empty.prices := List.Pairwise.nil
  exact ⟨between, taken, of_decide_eq_true count,
    (recorded_once_iff numbers_cents distinct current_empty taken).mpr clear⟩

/-- The changes of a model's prices. -/
def priceChanges (tables : Tables) : Nat :=
  (tables.feed.changes.filter (·.model = some "model")).length

/-- A threshold at the base price's own first token is an entry of the same key, and the two are
recorded in turn by every recording. -/
theorem a_zero_threshold_is_recorded_again :
    ¬((catalogOf cents (thousandsMap "xai" "0")).prices.map entryKey).Nodup ∧
    ∃ between again,
      landed ((catalogOf cents (thousandsMap "xai" "0")).record .liteLlmPublic ⟨0, 0, []⟩)
        (World.session (.calm 1 fun next => 1 + next) Tables.empty) = some between ∧
      landed ((catalogOf cents (thousandsMap "xai" "0")).record .liteLlmPublic ⟨0, 0, []⟩)
        (World.session (.calm 2 fun next => 10 + next) between) = some again ∧
      (between.prices.length, priceChanges between) = (2, 1) ∧
      (again.prices.length, priceChanges again) = (4, 2) := by
  refine ⟨by decide +kernel, ?_⟩
  have ran : (landed ((catalogOf cents (thousandsMap "xai" "0")).record .liteLlmPublic ⟨0, 0, []⟩)
      (World.session (.calm 1 fun next => 1 + next) Tables.empty)).any (fun between =>
        (landed ((catalogOf cents (thousandsMap "xai" "0")).record .liteLlmPublic ⟨0, 0, []⟩)
          (World.session (.calm 2 fun next => 10 + next) between)).any fun again =>
            decide ((between.prices.length, priceChanges between) = (2, 1) ∧
              (again.prices.length, priceChanges again) = (4, 2))) = true := by
    decide +kernel
  obtain ⟨between, first, ran⟩ := (Option.any_eq_true _ _).mp ran
  obtain ⟨again, second, counts⟩ := (Option.any_eq_true _ _).mp ran
  exact ⟨between, again, first, second, of_decide_eq_true counts⟩

end MeteredUsage.Store.Resync

import MeteredUsage.Collector.LiteLlm
import MeteredUsage.Store.Prices

/-! LiteLLM's model cost map, as published and as a running proxy serves it, and the prices read
from it: one for each service tier and threshold that a model's entry names. -/

namespace MeteredUsage.Store.CostMap
open MeteredUsage.Values MeteredUsage.Store.Schema MeteredUsage.Store.Prices
open MeteredUsage.Store.Credentials (asText)
open MeteredUsage.Store.Response (asI64 asInteger)
open MeteredUsage.Collector.LiteLlm (wrap64)

/-- The members of a JSON object. -/
abbrev Members := List (String × Json)

/-- A JSON object as the map is deserialized, with each key once. -/
structure Map where
  members : Members
  keys : (members.map Prod.fst).Nodup

/-- What is done to 64-bit floats while a map is read. -/
structure Floats where
  /-- `Value::as_f64` of a number. -/
  asF64 : String → Option Sql.Float64
  times : Sql.Float64 → Sql.Float64 → Sql.Float64
  divide : Sql.Float64 → Sql.Float64 → Sql.Float64
  /-- `f64::round`. -/
  round : Sql.Float64 → Sql.Float64
  /-- A float as `{:.0}` prints it. -/
  whole : Sql.Float64 → String

def tokensPerMillion : Sql.Float64 := ⟨0x412e848000000000⟩
def ratePrecision : Sql.Float64 := ⟨0x41cdcd6500000000⟩

/-- A price per token as US dollars per million, to a billionth of a dollar. -/
def Floats.perMillion (floats : Floats) (perToken : Sql.Float64) : Sql.Float64 :=
  floats.divide (floats.round (floats.times (floats.times perToken tokensPerMillion) ratePrecision)) ratePrecision

/-- Documents the file's fields rather than pricing a model. -/
def sampleEntry : String := "sample_spec"
def longContextPrefix : String := "input_cost_per_token_above_"
def longContextSuffix : String := "k_tokens"

/-- The provider LiteLLM bills the long-context rate from the threshold itself. -/
def inclusiveThresholdProvider : String := "xai"

/-- The key suffix a price for a service tier carries, and the tier a request names. -/
def serviceTiers : List (String × Option String) :=
  [("", none), ("_priority", some "priority"), ("_flex", some "flex"), ("_batches", some "batch")]

def get (entry : Members) (name : String) : Option Json :=
  (entry.find? (·.1 = name)).map Prod.snd

def stripPrefix (start : List Char) (text : List Char) : Option (List Char) :=
  if start.isPrefixOf text then some (text.drop start.length) else none

def stripSuffix (finish : List Char) (text : List Char) : Option (List Char) :=
  (stripPrefix finish.reverse text.reverse).map List.reverse

def providerOf (entry : Members) : Option String := (get entry "litellm_provider").bind asText

/-- The thousands of tokens a long-context key names. -/
def thousandsOf (key : String) : Option Int := do
  let rest ← stripPrefix longContextPrefix.toList key.toList
  let thousands ← stripSuffix longContextSuffix.toList rest
  asI64 thousands ['+']

/-- The key tail and first token count of the base price and of every long-context price the
entry names. -/
def thresholds (entry : Members) : List (String × Int) :=
  let pastThreshold := if providerOf entry = some inclusiveThresholdProvider then 0 else 1
  ("", 0) :: entry.filterMap fun member => (thousandsOf member.1).map fun thousands =>
    ("_above_" ++ toString thousands ++ longContextSuffix, wrap64 (thousands * 1000 + pastThreshold))

variable (floats : Floats)

/-- `Value::as_f64`. -/
def asF64 : Json → Option Sql.Float64
  | .number text => floats.asF64 text
  | _ => none

def named (entry : Members) (name tail : String) : Option Sql.Float64 :=
  ((get entry (name ++ tail)).bind (asF64 floats)).map floats.perMillion

/-- The rates of one threshold and tier, where the entry names an input price for that tier. A
rate the entry leaves out falls back to the same rate without the tier, then to the tier's rate
below the threshold, then to the base rate; a cache rate named nowhere is the input rate. -/
def rates (entry : Members) (threshold tier : String) : Option Rates :=
  let price := fun name => [threshold ++ tier, threshold, tier, ""].findSome? (named floats entry name)
  if tier ≠ "" ∧ named floats entry "input_cost_per_token" (threshold ++ tier) = none ∧
      named floats entry "input_cost_per_token" tier = none then none
  else do
    let input ← price "input_cost_per_token"
    let output ← price "output_cost_per_token"
    return ⟨input, (price "cache_read_input_token_cost").getD input,
      (price "cache_creation_input_token_cost").getD input, output⟩

/-- A range bound, which may be written as a float. -/
def tokens : Json → Option Int
  | .number text =>
    (asInteger (.number text)).or
      ((floats.asF64 text).bind fun value => asI64 (floats.whole value).toList ['+'])
  | _ => none

/-- The tiers of `tiered_pricing` that are objects. -/
def tiersOf (entry : Members) : List Members :=
  match get entry "tiered_pricing" with
  | some (.array items) => items.filterMap fun
      | .object tier => some tier
      | _ => none
  | _ => []

/-- The first token count of a tier, whose range holds `start < input <= end`. -/
def firstOf (tier : Members) : Option Int :=
  match get tier "range" with
  | some (.array (first :: _)) => (tokens floats first).map fun start =>
      wrap64 (start + if 0 < start then 1 else 0)
  | _ => none

/-- The prices of an entry's keys, by threshold and then service tier. -/
def namedPrices (model : String) (entry : Members) : List CatalogPrice :=
  (thresholds entry).flatMap fun threshold => serviceTiers.filterMap fun tier =>
    (rates floats entry threshold.1 tier.1).map fun rates =>
      ⟨providerOf entry, model, tier.2, threshold.2, rates⟩

/-- The prices with that of one more tier, unless its first token count has one. -/
def withTier (model : String) (entry : Members) (prices : List CatalogPrice) (tier : Members) :
    List CatalogPrice :=
  match firstOf floats tier with
  | none => prices
  | some minInputTokens =>
    if prices.any fun price => price.serviceTier.isNone && price.minInputTokens = minInputTokens then
      prices
    else prices ++ ((rates floats tier "" "").map fun rates =>
      (⟨providerOf entry, model, none, minInputTokens, rates⟩ : CatalogPrice)).toList

def entryPrices (model : String) (entry : Members) : List CatalogPrice :=
  (tiersOf entry).foldl (withTier floats model entry) (namedPrices floats model entry)

/-- `Catalog::from`. -/
def catalogOf (map : Map) : Catalog where
  prices := map.members.flatMap fun
    | (model, .object entry) => if model = sampleEntry then [] else entryPrices floats model entry
    | _ => []

variable {floats}

/-- Every price of an entry names its model and its provider. -/
def Belongs (model : String) (entry : Members) (price : CatalogPrice) : Prop :=
  price.model = model ∧ price.provider = providerOf entry

theorem belongs_namedPrices {model : String} {entry : Members} :
    ∀ price ∈ namedPrices floats model entry, Belongs model entry price := by
  intro price member
  obtain ⟨threshold, _, member⟩ := List.mem_flatMap.mp member
  obtain ⟨tier, _, priced⟩ := List.mem_filterMap.mp member
  obtain ⟨rates, _, rfl⟩ := Option.map_eq_some_iff.mp priced
  exact ⟨rfl, rfl⟩

theorem belongs_withTier {model : String} {entry tier : Members} {prices : List CatalogPrice}
    (belong : ∀ price ∈ prices, Belongs model entry price) :
    ∀ price ∈ withTier floats model entry prices tier, Belongs model entry price := by
  unfold withTier
  split
  next => exact belong
  next minInputTokens _ =>
    split
    next => exact belong
    next =>
      intro price member
      rcases List.mem_append.mp member with earlier | last
      · exact belong price earlier
      · obtain ⟨rates, _, rfl⟩ := Option.map_eq_some_iff.mp (Option.mem_toList.mp last)
        exact ⟨rfl, rfl⟩

theorem belongs_entryPrices {model : String} {entry : Members} :
    ∀ price ∈ entryPrices floats model entry, Belongs model entry price := by
  have folded (tiers : List Members) (prices : List CatalogPrice)
      (belong : ∀ price ∈ prices, Belongs model entry price) :
      ∀ price ∈ tiers.foldl (withTier floats model entry) prices, Belongs model entry price := by
    induction tiers generalizing prices with
    | nil => exact belong
    | cons tier rest ih => exact ih _ (belongs_withTier belong)
  exact folded _ _ belongs_namedPrices

theorem eq_of_keys {members : Members} (keys : (members.map Prod.fst).Nodup) {key : String}
    {first second : Json} (left : (key, first) ∈ members) (right : (key, second) ∈ members) :
    first = second := by
  have same := List.inj_on_of_nodup_map keys left right rfl
  exact (Prod.mk.inj same).2

theorem one_provider {map : Map} {first second : CatalogPrice}
    (left : first ∈ (catalogOf floats map).prices) (right : second ∈ (catalogOf floats map).prices)
    (same : first.model = second.model) : first.provider = second.provider := by
  have found {price : CatalogPrice} (member : price ∈ (catalogOf floats map).prices) :
      ∃ entry, (price.model, .object entry) ∈ map.members ∧ price.provider = providerOf entry := by
    obtain ⟨⟨model, value⟩, stored, member⟩ := List.mem_flatMap.mp member
    split at member
    next model entry equal =>
      split at member
      next => cases member
      next =>
        obtain ⟨rfl, provider⟩ := belongs_entryPrices price member
        exact ⟨entry, equal ▸ stored, provider⟩
    next => cases member
  obtain ⟨entry, stored, provider⟩ := found left
  obtain ⟨other, known, otherProvider⟩ := found right
  rw [← same] at known
  obtain rfl := Json.object.inj (eq_of_keys map.keys stored known)
  rw [provider, otherProvider]

end MeteredUsage.Store.CostMap

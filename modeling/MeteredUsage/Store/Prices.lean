import Mathlib.Data.List.Sort
import Mathlib.Data.Prod.Lex
import MeteredUsage.Store.Schema

/-! What a model's tokens cost at list rates, and the history of that rate: the rows people add,
and those a LiteLLM map leads to. A row is never changed and never deleted. -/

namespace MeteredUsage.Store.Prices
open MeteredUsage.Values MeteredUsage.Store.Schema MeteredUsage.Library.Transaction

structure NewPrice where
  provider : Option String
  model : String
  serviceTier : Option String
  minInputTokens : Int
  effectiveFrom : Timestamp
  rates : Rates
deriving DecidableEq, Repr

def NewPrice.row (price : NewPrice) (id : PriceId) (origin : Origin) : ModelPrice where
  id := id
  provider := price.provider
  model := price.model
  serviceTier := price.serviceTier
  minInputTokens := price.minInputTokens
  origin := origin
  effectiveFrom := price.effectiveFrom
  rates := price.rates

/-- `INSERT INTO model_price`. -/
def insertRow (row : ModelPrice) (tables : Tables) : Option (Unit × Tables) :=
  if tables.prices.any (·.id = row.id) then none
  else some ((), { tables with prices := tables.prices ++ [row] })

/-- `ModelPrice::insert`. -/
def insert (price : NewPrice) (origin : Origin) : Write (Ending ModelPrice) := do
  let id ← nextId
  attempt (insertRow (price.row id origin))
  record (.price price.model)
  commit (.database .query) (price.row id origin)

/-- One entry of a map: a model's rates for one service tier and threshold. -/
structure CatalogPrice where
  provider : Option String
  model : String
  serviceTier : Option String
  minInputTokens : Int
  rates : Rates
deriving DecidableEq, Repr

/-- One map's prices. -/
structure Catalog where
  prices : List CatalogPrice

/-- What tells the rates of a map apart: provider, model, service tier and threshold. -/
abbrev Key := Option String × String × Option String × Int

def CatalogPrice.key (price : CatalogPrice) : Key :=
  (price.provider, price.model, price.serviceTier, price.minInputTokens)

def keyOf (price : ModelPrice) : Key :=
  (price.provider, price.model, price.serviceTier, price.minInputTokens)

/-- The comparison `==` of two rates. -/
def alike (first second : Rates) : Bool :=
  first.inputUsdPerMtok.eq second.inputUsdPerMtok &&
    first.cachedInputUsdPerMtok.eq second.cachedInputUsdPerMtok &&
    first.cacheWriteUsdPerMtok.eq second.cacheWriteUsdPerMtok &&
    first.outputUsdPerMtok.eq second.outputUsdPerMtok

structure SyncReport where
  inserted : Int
  unchanged : Int
  failedSources : List String
deriving DecidableEq, Repr

/-- What the loop over a map carries: the rates each key has now, the last noted first, and the
models whose rates it changed. -/
structure Recording where
  latest : List (Key × Rates)
  changed : List String
  report : SyncReport

/-- Dates the first row of a key, so that events older than the first sync find a price. -/
def beginning : Timestamp := 0

def CatalogPrice.row (price : CatalogPrice) (id : PriceId) (origin : Origin)
    (effectiveFrom : Timestamp) : ModelPrice where
  id := id
  provider := price.provider
  model := price.model
  serviceTier := price.serviceTier
  minInputTokens := price.minInputTokens
  origin := origin
  effectiveFrom := effectiveFrom
  rates := price.rates

def Recording.note (recording : Recording) (price : CatalogPrice) : Recording where
  latest := (price.key, price.rates) :: recording.latest
  changed := price.model :: recording.changed
  report := { recording.report with inserted := recording.report.inserted + 1 }

def Recording.skip (recording : Recording) : Recording :=
  { recording with report := { recording.report with unchanged := recording.report.unchanged + 1 } }

/-- The date of the row an entry leads to, where its rates are not those its key has. -/
def effectiveFrom (now : Timestamp) (recording : Recording) (price : CatalogPrice) :
    Option Timestamp :=
  match recording.latest.lookup price.key with
  | some rates => if alike rates price.rates then none else some now
  | none => some beginning

def recordNext (origin : Origin) (now : Timestamp) (recording : Recording) (price : CatalogPrice) :
    Write Recording :=
  match effectiveFrom now recording price with
  | none => pure recording.skip
  | some effectiveFrom => do
    let id ← nextId
    attempt (insertRow (price.row id origin effectiveFrom))
    return recording.note price

/-- When a row begins to count; of two at once, the one added later. -/
def since (price : ModelPrice) : Timestamp ×ₗ PriceId := toLex (price.effectiveFrom, price.id)

/-- The rows of an origin, by their date and then their id. -/
def known (origin : Origin) (tables : Tables) : List ModelPrice :=
  (tables.prices.filter (·.origin = origin)).insertionSort fun first second =>
    since first ≤ since second

/-- The rates each key of the rows has now. -/
def latestOf (rows : List ModelPrice) : List (Key × Rates) :=
  (rows.map fun row => (keyOf row, row.rates)).reverse

/-- The models of a set, in its order. -/
def inOrder (models : List String) : List String := models.dedup.insertionSort (· ≤ ·)

/-- `record`: adds a row for every entry that is new or changed. -/
def Catalog.record (catalog : Catalog) (origin : Origin) (report : SyncReport) :
    Write (Ending SyncReport) := do
  let now ← reading
  let rows ← fetch (known origin)
  let recording ← catalog.prices.foldlM (recordNext origin now) ⟨latestOf rows, [], report⟩
  forM (inOrder recording.changed) fun model => Schema.record (.price model)
  commit (.database .query) recording.report

end MeteredUsage.Store.Prices

import Mathlib.Data.List.MinMax
import MeteredUsage.Codec
import MeteredUsage.Store.Schema

/-! Which events a question is about, and how the viewer's zone shifts them: the zone's clock changes
over what is recorded, as one SQL expression. -/

namespace MeteredUsage.Analytics.Filter
open MeteredUsage.Values MeteredUsage.Store.Schema MeteredUsage.Codec

/-- A zone's offsets from UTC, in seconds. -/
structure TimeZone where
  /-- In force before the first change. -/
  initial : Int
  /-- From each instant on the zone uses that offset. -/
  changes : List (Timestamp × Int)
  ordered : changes.Pairwise fun earlier later => earlier.1 < later.1
  held : ∀ change ∈ changes, Representable change.1

/-- `TimeZone::UTC`. -/
def TimeZone.utc : TimeZone := ⟨0, [], .nil, fun _ member => absurd member List.not_mem_nil⟩

/-- `TimeZone::to_offset`. -/
def TimeZone.toOffset (zone : TimeZone) (instant : Timestamp) : Int :=
  ((zone.changes.reverse.find? fun change => change.1 ≤ instant).map Prod.snd).getD zone.initial

/-- `TimeZone::preceding`: the changes before an instant, the latest first. -/
def TimeZone.preceding (zone : TimeZone) (instant : Timestamp) : List (Timestamp × Int) :=
  zone.changes.reverse.filter fun change => change.1 < instant

/-- The values of one list are alternatives; the lists are all required. An empty one does not
filter. -/
structure AnalyticsFilter where
  /-- `from`. -/
  start : Option Timestamp
  /-- `to`, exclusive. -/
  finish : Timestamp
  timeZone : TimeZone
  sourceIds : List SourceId
  accountIds : List AccountId
  models : List String
  providers : List String
  harnesses : List String
  held : finish ≤ lastInstant

/-- The key of events that name no harness or no session. -/
def unknownKey : String := "unknown"

def harnessKey (event : UsageEvent) : String := event.harness.getD unknownKey

/-- Whether a list filters by nothing or holds a value. -/
def admits {Value : Type} [DecidableEq Value] (values : List Value) (value : Value) : Bool :=
  values.isEmpty || values.contains value

/-- The `WHERE` clause. Instants are compared as the texts they are stored as. -/
def AnalyticsFilter.selects (filter : AnalyticsFilter) (event : UsageEvent) : Bool :=
  decide (stored event.occurredAt < stored filter.finish) &&
    filter.start.all (fun start => decide (stored start ≤ stored event.occurredAt)) &&
    admits filter.sourceIds event.sourceId && admits filter.accountIds event.accountId &&
    admits filter.models event.model && admits filter.providers event.provider &&
    admits filter.harnesses (harnessKey event)

/-- `AnalyticsError`: why a question could not be answered. -/
inductive AnalyticsError where
  | unknownAccount (id : AccountId)
  | unknownSource (id : SourceId)
  | tooManyBuckets
  /-- The window is outside the supported range of dates. -/
  | window
  /-- A column that does not read as what it should. -/
  | unreadable (field value : String)
  /-- A NULL where a row has a value. -/
  | columnDecode (column : String)
  /-- A statement that fails, as one does whose `SUM` of integers leaves 64 bits. -/
  | database
deriving DecidableEq

/-- `missing`: the first id that is not found. -/
def missing {Id : Type} [DecidableEq Id] (found ids : List Id) : Option Id :=
  ids.find? fun id => !found.contains id

/-- Refuses an id that names nothing. -/
def AnalyticsFilter.check (tables : Tables) (filter : AnalyticsFilter) : Except AnalyticsError Unit := do
  if let some id := missing (tables.sources.map Source.id) filter.sourceIds then
    throw (.unknownSource id)
  if let some id := missing (tables.accounts.map Account.id) filter.accountIds then
    throw (.unknownAccount id)

/-- The first and the last instant of every stored event. -/
structure Recorded where
  first : Timestamp
  last : Timestamp

/-- `Recorded::load`: the least and the greatest of the stored texts. -/
def Recorded.load (events : List UsageEvent) : Option Recorded := do
  let first ← (events.map UsageEvent.occurredAt).argmin stored
  let last ← (events.map UsageEvent.occurredAt).argmax stored
  return ⟨first, last⟩

/-- The offsets a zone used over a window. -/
structure Shift where
  /-- The latest first. -/
  changes : List (Timestamp × Int)
  /-- In force before the earliest change. -/
  before : Int

/-- `Timestamp::checked_add` of a nanosecond. -/
def nextInstant (instant : Timestamp) : Option Timestamp :=
  if instant < lastInstant then some (instant + 1) else none

def AnalyticsFilter.since (filter : AnalyticsFilter) (recorded : Recorded) : Timestamp :=
  filter.start.elim recorded.first fun start => max start recorded.first

def AnalyticsFilter.until (filter : AnalyticsFilter) (recorded : Recorded) : Timestamp :=
  min ((nextInstant recorded.last).getD recorded.last) filter.finish

/-- How the viewer's zone shifted every event the window holds. No event lies outside what is
recorded, so the zone's changes are read for that stretch only. -/
def AnalyticsFilter.shift (filter : AnalyticsFilter) (recorded : Option Recorded) : Shift :=
  match recorded with
  | none => ⟨[], filter.timeZone.toOffset filter.finish⟩
  | some recorded =>
    { changes := (filter.timeZone.preceding (filter.until recorded)).takeWhile fun change =>
        filter.since recorded < change.1
      before := filter.timeZone.toOffset (filter.since recorded) }

/-- The SQLite date modifier of an offset. -/
def modifier (offset : Int) : String :=
  (if 0 ≤ offset then "+" else "") ++ toString offset ++ " seconds"

/-- What a shift is in a statement. -/
inductive Expression where
  | bound (modifier : String)
  /-- `CASE`: the first text an event's instant is not before, with its modifier, and `ELSE`. -/
  | choice (whens : List (String × String)) (otherwise : String)

def Shift.push (shift : Shift) : Expression :=
  if shift.changes.isEmpty then .bound (modifier shift.before)
  else .choice (shift.changes.map fun change => (stored change.1, modifier change.2))
    (modifier shift.before)

/-- The value of the expression for an event. -/
def Expression.eval (occurredAt : String) : Expression → String
  | .bound modifier => modifier
  | .choice whens otherwise =>
    ((whens.find? fun choice => choice.1 ≤ occurredAt).map Prod.snd).getD otherwise

end MeteredUsage.Analytics.Filter

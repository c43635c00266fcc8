import MeteredUsage.Library.Keyed
import MeteredUsage.Store.Credentials

/-! The limits a provider reported for a credential, normalized to a used fraction, the share
each window taught, and the manual resets granted beside them. -/

namespace MeteredUsage.Store.Windows
open MeteredUsage.Values MeteredUsage.Store.Schema MeteredUsage.Library.Keyed
open MeteredUsage.Library.Transaction

/-- The key of the evidence a rejected request leaves. -/
def responseKey : String := "meta-subscription"

/-- The unit of windows this service meters too. -/
def requests : String := "requests"

/-- A stored reset this close to the reported one is kept. -/
def resetTolerance : Int := seconds 5

/-- The metered usage that counts toward a window. -/
inductive Scope where
  | account
  | model (name : String)
  | unmetered
deriving DecidableEq, Repr

def Scope.text : Scope → String
  | .account => "account"
  | .model name => "model:" ++ name
  | .unmetered => "unmetered"

/-- A window as an adapter read it from a provider's answer. -/
structure NewWindow where
  key : String
  label : String
  usedFraction : Option Sql.Float64
  usedValue : Option Sql.Float64
  limitValue : Option Sql.Float64
  unit : Option String
  windowSeconds : Option Int
  resetsAt : Option Timestamp
  scope : Scope
  startsOnUse : Bool
deriving DecidableEq, Repr

/-- The reset to store for a reported one. -/
def keptReset (stored : Option Timestamp) (reported : Timestamp) : Timestamp :=
  match stored with
  | some kept => if ((reported - kept).natAbs : Int) ≤ resetTolerance then kept else reported
  | none => reported

/-- The row a reported window is stored as, beside the windows stored before. -/
def NewWindow.row (window : NewWindow) (stored : List QuotaWindow) (accountId : AccountId)
    (observedAt : Timestamp) : QuotaWindow where
  accountId := accountId
  windowKey := window.key
  label := window.label
  usedFraction := window.usedFraction.map fun fraction => fraction.clamp .zero .one
  usedValue := window.usedValue
  limitValue := window.limitValue
  unit := window.unit
  windowSeconds := window.windowSeconds
  resetsAt := window.resetsAt.map
    (keptReset ((lookup QuotaWindow.windowKey stored window.key).bind QuotaWindow.resetsAt))
  observedAt := observedAt
  scope := window.scope.text
  startsOnUse := window.startsOnUse

/-- The nearest minute, an instant halfway rounded away from the epoch. -/
def roundMinute (instant : Timestamp) : Timestamp :=
  let minute := minutes 1
  if 0 ≤ instant then (instant + minute / 2) / minute * minute
  else -((-instant + minute / 2) / minute * minute)

/-- What a report teaches of its window: a window counted in requests needs no learning, and
one without a share used or a start teaches nothing. -/
def NewWindow.sample (runtime : Sql.Runtime) (window : NewWindow) (accountId : AccountId)
    (observedAt : Timestamp) : Option QuotaSample :=
  if window.unit = some requests then none
  else do
    let usedFraction ← window.usedFraction
    let resetsAt ← window.resetsAt
    let windowSeconds ← window.windowSeconds
    let start := resetsAt - seconds windowSeconds
    if runtime.isTimestamp start && runtime.isTimestamp (roundMinute start) then
      some ⟨accountId, window.key, roundMinute start, observedAt, usedFraction.clamp .zero .one⟩
    else none

/-- `INSERT INTO quota_sample … ON CONFLICT … DO UPDATE SET …`. -/
def upsertSample (row : QuotaSample) (tables : Tables) : Tables :=
  let same := fun stored : QuotaSample => stored.accountId = row.accountId &&
    stored.windowKey = row.windowKey && stored.startedAt = row.startedAt
  { tables with samples :=
      if tables.samples.any same then tables.samples.map fun stored => if same stored then row else stored
      else tables.samples ++ [row] }

/-- `Calibration::record`. -/
def recordSample (runtime : Sql.Runtime) (accountId : AccountId) (window : NewWindow)
    (observedAt : Timestamp) : Write Unit :=
  match window.sample runtime accountId observedAt with
  | some row => execute (upsertSample row)
  | none => pure ()

def isWindow (accountId : AccountId) (key : String) (window : QuotaWindow) : Bool :=
  window.accountId = accountId && window.windowKey = key

/-- `INSERT INTO quota_window`, which its key and its account can refuse. -/
def insertWindow (row : QuotaWindow) (tables : Tables) : Option (Unit × Tables) :=
  if tables.windows.any (isWindow row.accountId row.windowKey) then none
  else if tables.accounts.any (·.id = row.accountId) then
    some ((), { tables with windows := tables.windows ++ [row] })
  else none

def deleteWindows (chosen : QuotaWindow → Bool) (tables : Tables) : Tables :=
  { tables with windows := tables.windows.filter fun window => !chosen window }

/-- Replaces every window of the account but the evidence of a rejected request. A key
reported twice keeps its first report. -/
def replace (runtime : Sql.Runtime) (accountId : AccountId) (windows : List NewWindow)
    (observedAt : Timestamp) : Write Unit := do
  let stored ← fetch fun tables => tables.windows.filter (·.accountId = accountId)
  execute (deleteWindows fun window => window.accountId = accountId && window.windowKey ≠ responseKey)
  forM (firsts NewWindow.key windows) fun window => do
    attempt (insertWindow (window.row stored accountId observedAt))
    recordSample runtime accountId window observedAt

/-- `Credit::clear`. -/
def clearCredits (accountId : AccountId) (tables : Tables) : Tables :=
  { tables with credits := tables.credits.filter (·.accountId ≠ accountId) }

def insertCredit (row : Credit) (tables : Tables) : Option (Unit × Tables) :=
  if tables.accounts.any (·.id = row.accountId) then
    some ((), { tables with credits := tables.credits ++ [row] })
  else none

/-- `Credit::replace`. -/
def replaceCredits (accountId : AccountId) (grants : List Grant) : Write Unit := do
  execute (clearCredits accountId)
  forM grants fun grant => attempt (insertCredit ⟨accountId, grant⟩)

end MeteredUsage.Store.Windows

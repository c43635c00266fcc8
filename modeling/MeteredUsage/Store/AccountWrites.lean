import MeteredUsage.Store.Accounts
import MeteredUsage.Store.Snapshots

/-! The writes of accounts that people ask for: a rename, a merge and the decision that two
credentials belong to different plans. Each is read back after its commit, outside the
transaction modelled here. -/

namespace MeteredUsage.Store.AccountWrites
open MeteredUsage.Values MeteredUsage.Store.Schema MeteredUsage.Store.Accounts
open MeteredUsage.Store.Continuations MeteredUsage.Store.Snapshots
open MeteredUsage.Library.Transaction
open MeteredUsage.Changes.Table (Subject)

def withName (displayName : Option String) (account : Account) : Account :=
  { account with displayName := displayName }

/-- `Account::rename`; nothing is committed when there is no such account. -/
def rename (runtime : Sql.Runtime) (id : AccountId) (displayName : Option String) :
    Write (Ending Bool) := do
  let snapshot ← accounts runtime (.account id)
  let renamed ← fetch fun tables => tables.accounts.any (·.id = id)
  execute (updateAccount id (withName displayName))
  if renamed then
    recordChanges runtime snapshot
    commit (.database .query) true
  else return .dropped false

/-- `UPDATE usage_event SET account_id = ? WHERE account_id = ?`. -/
def moveEvents (id into : AccountId) (tables : Tables) : Tables :=
  { tables with events := tables.events.map fun event =>
      if event.accountId = id then { event with accountId := into } else event }

def movePlans (id into : AccountId) (tables : Tables) : Tables :=
  { tables with plans := tables.plans.map fun plan =>
      if plan.accountId = id then { plan with accountId := into } else plan }

/-- Points `id`, and every account already merged into it, at `into`. -/
def pointAt (id into : AccountId) (tables : Tables) : Tables :=
  { tables with accounts := tables.accounts.map fun account =>
      if account.id = id ∨ account.mergedInto = some id then { account with mergedInto := some into }
      else account }

/-- Moves everything charged to `id` onto `into`, points at `into` what pointed at `id`, and
widens its seen window over the merged account's. -/
def combine (id into : AccountId) (merged : Account) : Write Unit := do
  let moved ← fetch fun tables => tables.events.any (·.accountId = id)
  execute (moveEvents id into)
  onlyIf moved (record .usage)
  execute (movePlans id into)
  execute (pointAt id into)
  execute (updateAccount into (widen merged.firstSeenAt merged.lastSeenAt))

/-- Moves every event and plan of `id` onto `into` and points `id`, and every account
already merged into it, at `into`, so resolution never follows more than one step. -/
def merge (runtime : Sql.Runtime) (id into : AccountId) (requiresContinuation : Bool) :
    Write (Ending Unit) := do
  refuseIf (id = into) (.merge .same)
  let merged ← require (.merge .missing) (← fetch (accountOf · id))
  let target ← require (.merge .missing) (← fetch (accountOf · into))
  refuseIf (merged.sourceId ≠ target.sourceId) (.merge .differentSources)
  refuseIf merged.mergedInto.isSome (.merge .sourceMerged)
  refuseIf target.mergedInto.isSome (.merge .targetMerged)
  onlyIf requiresContinuation do
    let continuation ← fetch (load · id into)
    refuseIf continuation.isNone (.merge .continuationChanged)
  let snapshot ← accounts runtime (.source merged.sourceId)
  combine id into merged
  recordChanges runtime snapshot
  commit (.database .query) ()

/-- Whether two accounts of one source, neither merged, make a pair that can be dismissed. -/
def canDismiss (previous replacement : AccountId) (tables : Tables) : Bool :=
  tables.accounts.any fun old => tables.accounts.any fun new =>
    old.sourceId = new.sourceId && old.id = previous && new.id = replacement && old.id ≠ new.id &&
      old.mergedInto.isNone && new.mergedInto.isNone

/-- Inserts the pair unless it is there, and answers whether it was not. -/
def insertDismissal (previous replacement : AccountId) (tables : Tables) : Bool × Tables :=
  if isDismissed tables previous replacement then (false, tables)
  else (true, { tables with dismissals :=
    tables.dismissals ++ [⟨min previous replacement, max previous replacement⟩] })

/-- Idempotent for a pair. The decision changes both accounts' suggestions, not a plan. -/
def dismissContinuation (previous replacement : AccountId) : Write (Ending Bool) := do
  let valid ← fetch (canDismiss previous replacement)
  if valid then
    let before ← fetch replacements
    let inserted ← attempt fun tables => some (insertDismissal previous replacement tables)
    onlyIf inserted (recordLinkChanges before [.account previous, .account replacement])
    commit (.database .query) true
  else return .dropped false

end MeteredUsage.Store.AccountWrites

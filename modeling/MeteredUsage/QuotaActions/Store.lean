import MeteredUsage.Changes.Table
import MeteredUsage.Library.Keyed

/-! The `quota_action` tables and what one write transaction does to them: closing rows,
binding a key, recording a request, and the choice a claim makes between an action it can
answer with and a new one. -/

namespace MeteredUsage.QuotaActions.Store
open MeteredUsage.Values MeteredUsage.Changes.Table MeteredUsage.Library.Keyed

inductive ActionKind where
  | softRefresh
  | hardRefresh
  | quotaReset
  | cooldownReset
deriving DecidableEq, Repr

/-- The lock an execution of the kind takes. -/
def ActionKind.family : ActionKind → Nat
  | .softRefresh => 0
  | .cooldownReset => 1
  | _ => 2

/-- A row of `quota_action`. -/
structure QuotaAction where
  actionId : Nat
  kind : ActionKind
  accountId : Option String
  sourceId : Option String
  requestedAt : String
  finishedAt : Option String
  outcome : Option String
  beforeState : String
  afterState : Option String
  requestedBy : String
  shared : Bool
  responseStatus : Option Nat
  responseBody : Option String
  credentialId : String
  credentialTransport : String
  bootId : Option String
deriving DecidableEq, Repr

/-- The scope claims compare: kind, account and source. -/
def QuotaAction.scope (action : QuotaAction) : ActionKind × Option String × Option String :=
  (action.kind, action.accountId, action.sourceId)

structure ActionRequest where
  actionId : Nat
  requestedBy : String
  requestedAt : String
  credentialId : String
  credentialTransport : String
deriving DecidableEq, Repr

structure ActionKey where
  credentialId : String
  key : String
  kind : ActionKind
  accountId : Option String
  sourceId : Option String
  actionId : Nat
deriving DecidableEq, Repr

def ActionKey.name (bound : ActionKey) : String × String := (bound.credentialId, bound.key)

def ActionKey.scope (bound : ActionKey) : ActionKind × Option String × Option String :=
  (bound.kind, bound.accountId, bound.sourceId)

/-- The action tables with what their constraints keep: AUTOINCREMENT ids, the primary key
of `quota_action_key` and its reference to an action. -/
structure Actions where
  actions : List QuotaAction
  sequence : Nat
  requests : List ActionRequest
  keys : List ActionKey
  feed : Feed
  ordered : actions.Pairwise fun first second => first.actionId < second.actionId
  bounded : ∀ action ∈ actions, action.actionId ≤ sequence
  unique : Distinct ActionKey.name keys
  referenced : ∀ bound ∈ keys, ∃ action ∈ actions, action.actionId = bound.actionId

def Actions.empty : Actions where
  actions := []
  sequence := 0
  requests := []
  keys := []
  feed := Feed.empty
  ordered := List.Pairwise.nil
  bounded := by simp
  unique := List.Pairwise.nil
  referenced := by simp

def Actions.find? (store : Actions) (actionId : Nat) : Option QuotaAction :=
  lookup QuotaAction.actionId store.actions actionId

/-- `UPDATE quota_action`: an update never writes `action_id`. -/
def Actions.update (store : Actions) (change : QuotaAction → QuotaAction)
    (same : ∀ action, (change action).actionId = action.actionId) : Actions where
  actions := store.actions.map change
  sequence := store.sequence
  requests := store.requests
  keys := store.keys
  feed := store.feed
  ordered := by
    refine List.pairwise_map.mpr (store.ordered.imp fun {first second} before => ?_)
    rw [same, same]
    exact before
  bounded := by
    intro action member
    obtain ⟨row, stored, rfl⟩ := List.mem_map.mp member
    rw [same]
    exact store.bounded row stored
  unique := store.unique
  referenced := by
    intro bound member
    obtain ⟨action, stored, names⟩ := store.referenced bound member
    exact ⟨change action, List.mem_map_of_mem stored, (same action).trans names⟩

def Actions.changed (store : Actions) (now : Timestamp) : Actions :=
  { store with feed := store.feed.record .quotaAction now }

/-- `INSERT INTO quota_action`; the row's id is the next of the sequence. -/
def Actions.insert (store : Actions) (action : QuotaAction) : Actions where
  actions := store.actions ++ [{ action with actionId := store.sequence + 1 }]
  sequence := store.sequence + 1
  requests := store.requests
  keys := store.keys
  feed := store.feed
  ordered := by
    refine List.pairwise_append.mpr ⟨store.ordered, List.pairwise_singleton _ _, ?_⟩
    intro first earlier second later
    rw [List.mem_singleton.mp later]
    exact Nat.lt_succ_of_le (store.bounded first earlier)
  bounded := by
    intro row member
    rcases List.mem_append.mp member with earlier | later
    · exact Nat.le_succ_of_le (store.bounded row earlier)
    · rw [List.mem_singleton.mp later]
  unique := store.unique
  referenced := by
    intro bound member
    obtain ⟨row, stored, names⟩ := store.referenced bound member
    exact ⟨row, List.mem_append_left _ stored, names⟩

def Actions.boundTo (store : Actions) (credentialId key : String) : Option ActionKey :=
  lookup ActionKey.name store.keys (credentialId, key)

/-- `INSERT INTO quota_action_key … ON CONFLICT DO NOTHING`, and whether it inserted. -/
def Actions.insertKey (store : Actions) (bound : ActionKey) : Except DatabaseError (Bool × Actions) :=
  if free : ∀ other ∈ store.keys, other.name ≠ bound.name then
    if referenced : ∃ action ∈ store.actions, action.actionId = bound.actionId then
      .ok (true, { store with
        keys := store.keys ++ [bound]
        unique := store.unique.append_singleton free
        referenced := by
          intro other member
          rcases List.mem_append.mp member with earlier | later
          · exact store.referenced other earlier
          · rw [List.mem_singleton.mp later]
            exact referenced })
    else .error .query
  else .ok (false, store)

/-- `record_request`: the request names an action that exists. -/
def Actions.recordRequest (store : Actions) (request : ActionRequest) : Except DatabaseError Actions :=
  if store.actions.any fun action => action.actionId = request.actionId then
    .ok { store with requests := store.requests ++ [request] }
  else .error .query

/-- What an entry of `$.accounts` in a stored answer says, as SQLite reads the JSON. -/
structure ListedAccount where
  accountId : Option String
  disabled : Option Bool
  hardRefreshedAt : Option String
deriving DecidableEq, Repr

/-- What the code leaves to libraries: how an instant prints, and what a JSON text holds. -/
structure Platform where
  display : Timestamp → String
  listed : String → List ListedAccount
  /-- The `action_id`s of `shared_actions`. -/
  sharedActions : String → List Nat
  failed : String → Option Int
  sourceFailures : String → Option Nat

structure Invocation where
  accountId : Option String
  sourceId : Option String
  caller : String
  requestedAt : Timestamp
  credentialId : String
  transport : String
  idempotencyKey : Option String
deriving DecidableEq, Repr

def reuseFor : Int := seconds 60

section
variable (platform : Platform)

def previousProcess : String := "\x7b\"message\":\"Previous process interrupted action\"\x7d"
def workerEnded : String := "\x7b\"message\":\"Worker ended before persisting completion\"\x7d"
def actionInterrupted : String := "\x7b\"message\":\"Action interrupted\"\x7d"

/-- A row closed by a claim's sweep. -/
def QuotaAction.interrupted (action : QuotaAction) (now : Timestamp) (body : String) : QuotaAction :=
  { action with
    finishedAt := some (platform.display now)
    outcome := some "interrupted"
    shared := false
    responseStatus := some 503
    responseBody := some body }

/-- Closes the unfinished rows a claim's sweep selects. -/
def Actions.interrupt (store : Actions) (selected : QuotaAction → Bool) (now : Timestamp)
    (body : String) : Actions :=
  store.update (fun action => if action.finishedAt.isNone && selected action then
    action.interrupted platform now body else action) (fun action => by split <;> rfl)

/-- The sweep a claim opens with: rows of earlier boots, then those of the workers whose
lease was found dead; announced when it closed any. -/
def Actions.sweep (store : Actions) (boot : String) (abandoned : List Nat) (now : Timestamp) :
    Actions :=
  let swept := abandoned.foldl
    (fun store actionId =>
      store.interrupt platform (fun action => action.actionId = actionId) now workerEnded)
    (store.interrupt platform (fun action => action.bootId ≠ some boot) now previousProcess)
  let closed := store.actions.any fun action => action.finishedAt.isNone &&
    (action.bootId ≠ some boot || abandoned.contains action.actionId)
  if closed then swept.changed now else swept

def QuotaAction.reconciled (action : QuotaAction) (now : Timestamp) : QuotaAction :=
  { action with
    finishedAt := some (platform.display now)
    outcome := some "reconciled_unknown"
    shared := false }

/-- The reset rows a hard refresh closes once it has the provider's grant list. -/
def Actions.reconcile (store : Actions) (accountId : AccountId) (now : Timestamp) : Actions :=
  store.update (fun action =>
    if action.kind = .quotaReset && action.accountId = some (encode accountId) &&
        action.finishedAt.isNone then action.reconciled platform now
    else action) (fun action => by split <;> rfl)

/-- Whether the answer of a finished action lists the account as it was after the request. -/
def QuotaAction.covers (action : QuotaAction) (kind : ActionKind) (accountId : String) : Bool :=
  (((action.afterState.or action.responseBody).map platform.listed).getD []).any fun entry =>
    entry.accountId = some accountId &&
      (kind ≠ .cooldownReset || entry.disabled = some false) &&
      (kind ≠ .hardRefresh || entry.hardRefreshedAt.any fun at_ => action.requestedAt ≤ at_)

/-- The finished actions whose result a claim may share. -/
def Actions.shareable (store : Actions) (kind : ActionKind) (accountId sourceId : Option String)
    (since : String) (action : QuotaAction) : Bool :=
  action.kind = kind && action.sourceId = sourceId &&
    (action.accountId = accountId || action.accountId.isNone && accountId.any fun account =>
      action.finishedAt.isNone || action.covers platform kind account) &&
    (kind ≠ .hardRefresh || !store.actions.any fun newer =>
      newer.kind = .quotaReset && action.actionId < newer.actionId &&
        (accountId.isNone || newer.accountId = accountId)) &&
    action.shared && (action.responseStatus.any fun status => !(400 ≤ status && status ≤ 499)) &&
    action.finishedAt.any fun finished => since ≤ finished

/-- `ORDER BY action_id DESC LIMIT 1`. -/
def Actions.newest (store : Actions) (selected : QuotaAction → Bool) : Option QuotaAction :=
  (store.actions.filter selected).getLast?

def Actions.pending (store : Actions) (kind : ActionKind) (accountId sourceId : Option String) :
    Option QuotaAction :=
  store.newest fun action => action.finishedAt.isNone && action.scope = (kind, accountId, sourceId)

def Actions.saved (store : Actions) (kind : ActionKind) (accountId sourceId : Option String)
    (since : String) : Option QuotaAction :=
  store.newest (store.shareable platform kind accountId sourceId since)

def Invocation.scope (invocation : Invocation) (kind : ActionKind) :
    ActionKind × Option String × Option String :=
  (kind, invocation.accountId, invocation.sourceId)

/-- Binds the invocation's key to the action, or says whether it already is bound to it. -/
def Invocation.recordKey (invocation : Invocation) (store : Actions) (actionId : Nat)
    (kind : ActionKind) : Except DatabaseError (Bool × Actions) :=
  match invocation.idempotencyKey with
  | none => .ok (true, store)
  | some key => do
    let (inserted, next) ← store.insertKey ⟨invocation.credentialId, key, kind,
      invocation.accountId, invocation.sourceId, actionId⟩
    if inserted then return (true, next)
    match next.boundTo invocation.credentialId key with
    | some bound => return (bound.actionId = actionId, next)
    | none => .error .query

def Invocation.request (invocation : Invocation) (actionId : Nat) : ActionRequest :=
  ⟨actionId, invocation.caller, platform.display invocation.requestedAt, invocation.credentialId,
    invocation.transport⟩

inductive Claim where
  | fresh (store : Actions) (actionId : Nat)
  | reused (store : Actions) (saved : QuotaAction)
  | conflict

/-- The scope the invocation's key is bound to differs from the one it now names. -/
def Invocation.conflicts (invocation : Invocation) (store : Actions) (kind : ActionKind) : Bool :=
  invocation.idempotencyKey.any fun key =>
    (store.boundTo invocation.credentialId key).any fun bound =>
      bound.scope ≠ invocation.scope kind

/-- The action the invocation's key is bound to. -/
def Invocation.keyed (invocation : Invocation) (store : Actions) : Option QuotaAction :=
  invocation.idempotencyKey.bind fun key =>
    (store.boundTo invocation.credentialId key).bind fun bound => store.find? bound.actionId

/-- The row a fresh claim inserts. -/
def Invocation.row (invocation : Invocation) (kind : ActionKind) (before boot : String) :
    QuotaAction where
  actionId := 0
  kind := kind
  accountId := invocation.accountId
  sourceId := invocation.sourceId
  requestedAt := platform.display invocation.requestedAt
  finishedAt := none
  outcome := none
  beforeState := before
  afterState := none
  requestedBy := invocation.caller
  shared := true
  responseStatus := none
  responseBody := none
  credentialId := invocation.credentialId
  credentialTransport := invocation.transport
  bootId := some boot

/-- Records the key, the request and the change of a claim that answers with an action. -/
def Invocation.join (invocation : Invocation) (store : Actions) (actionId : Nat)
    (kind : ActionKind) (now : Timestamp) : Except DatabaseError (Option Actions) := do
  let (owned, keyed) ← invocation.recordKey store actionId kind
  if owned then
    let requested ← keyed.recordRequest (invocation.request platform actionId)
    return some (requested.changed now)
  return none

/-- `Invocation::claim` after its sweep, up to the commit. -/
def Invocation.answer (invocation : Invocation) (kind : ActionKind) (before boot : String)
    (now : Timestamp) (store : Actions) : Except DatabaseError Claim := do
  if invocation.conflicts store kind then
    return .conflict
  let keyed := invocation.keyed store
  let pending := store.pending kind invocation.accountId invocation.sourceId
  let saved := store.saved platform kind invocation.accountId invocation.sourceId
    (platform.display (invocation.requestedAt - reuseFor))
  match (keyed.or pending).or saved with
  | some saved =>
    match ← invocation.join platform store saved.actionId kind now with
    | some joined => return .reused joined saved
    | none => return .conflict
  | none =>
    let inserted := store.insert (invocation.row platform kind before boot)
    match ← invocation.join platform inserted inserted.sequence kind now with
    | some joined => return .fresh joined inserted.sequence
    | none => return .conflict

def outcome (status : Nat) (body : String) : String :=
  if 200 ≤ status ∧ status ≤ 299 then
    if (platform.failed body).any (0 < ·) || (platform.sourceFailures body).any (0 < ·) then
      "partial"
    else "succeeded"
  else if 400 ≤ status ∧ status ≤ 499 then "rejected"
  else "failed"

def QuotaAction.completed (action : QuotaAction) (status : Nat) (body outcome : String)
    (now : Timestamp) : QuotaAction :=
  { action with
    responseStatus := some status
    responseBody := some body
    outcome := some outcome
    finishedAt := some (platform.display now)
    shared := if outcome = "interrupted" then false else action.shared }

def Actions.finish (store : Actions) (actionId status : Nat) (body outcome : String)
    (now : Timestamp) : Actions :=
  store.update (fun action =>
    if action.actionId = actionId then action.completed platform status body outcome now
    else action) (fun action => by split <;> rfl)

/-- The write of `SavedAction::complete`: it overwrites the row's result whatever the row
says, and records a request on every action the operation shared. -/
def Actions.complete (store : Actions) (invocation : Invocation) (actionId status : Nat)
    (body : String) (now : Timestamp) : Except DatabaseError Actions := do
  let outcome := if body = actionInterrupted then "interrupted" else outcome platform status body
  let finished := store.finish platform actionId status body outcome now
  let shared := ((platform.sharedActions body).insertionSort (· ≤ ·)).dedup
  let requested ← shared.foldlM (fun store originalId =>
    store.recordRequest (invocation.request platform originalId)) finished
  return requested.changed now

/-- The snapshot `complete` writes after its result. -/
def Actions.saveAfter (store : Actions) (actionId : Nat) (after : String) : Actions :=
  store.update (fun action =>
    if action.actionId = actionId then { action with afterState := some after } else action)
    (fun action => by split <;> rfl)

/-- `reject`: a finished row for a request that never became an action. -/
def Actions.reject (store : Actions) (kind : ActionKind) (invocation : Invocation) (status : Nat)
    (body : String) (now : Timestamp) : Except DatabaseError Actions := do
  let inserted := store.insert
    { actionId := 0
      kind := kind
      accountId := none
      sourceId := none
      requestedAt := platform.display now
      finishedAt := some (platform.display now)
      outcome := some "rejected"
      beforeState := "\x7b\x7d"
      afterState := none
      requestedBy := invocation.caller
      shared := false
      responseStatus := some status
      responseBody := some body
      credentialId := invocation.credentialId
      credentialTransport := invocation.transport
      bootId := none }
  let requested ← inserted.recordRequest
    ⟨inserted.sequence, invocation.caller, platform.display now, invocation.credentialId,
      invocation.transport⟩
  return requested.changed now

end

end MeteredUsage.QuotaActions.Store

import MeteredUsage.Store.Landing

/-! What one record does to the tables as it comes in: the account it is charged to, whether its
event is already stored, and the evidence it leaves; and the rule for what a batch of them
keeps. -/

namespace MeteredUsage.Store.Intake
open MeteredUsage.Values MeteredUsage.Store.Schema MeteredUsage.Store.Accounts
open MeteredUsage.Store.Events MeteredUsage.Store.Snapshots MeteredUsage.Store.Windows
open MeteredUsage.Store.Response MeteredUsage.Store.Ingest MeteredUsage.Store.Validity
open MeteredUsage.Store.Statements MeteredUsage.Store.Landing
open MeteredUsage.Library.Transaction

variable {runtime : Sql.Runtime} {source : SourceId} {base : Tables}

/-- The account a stored row stands for. -/
def root (account : Account) : AccountId := account.mergedInto.getD account.id

/-- The account a source's key resolves to. -/
def ownerOf (accounts : List Account) (sourceId : SourceId) (key : String) : Option AccountId :=
  (accounts.find? (holdsKey sourceId key)).map root

/-- The requests among the records of a batch. -/
def requestsIn (records : List Incoming) : List NewUsageEvent := records.filterMap fun
  | .record event => some event
  | .rejected _ _ => none

section Requests
variable {records : List Incoming} {event : NewUsageEvent}

@[simp] theorem requestsIn_append_record :
    requestsIn (records ++ [.record event]) = requestsIn records ++ [event] := List.filterMap_append

@[simp] theorem requestsIn_append_rejected (error : String) (payload : Json) :
    requestsIn (records ++ [.rejected error payload]) = requestsIn records :=
  List.filterMap_append.trans (List.append_nil _)

theorem mem_requestsIn : event ∈ requestsIn records ↔ Incoming.record event ∈ records := by
  rw [requestsIn, List.mem_filterMap]
  constructor
  · rintro ⟨record, member, same⟩
    cases record with
    | record found =>
      obtain rfl := Option.some.inj same
      exact member
    | rejected error payload => cases same
  · intro member
    exact ⟨_, member, rfl⟩

end Requests

/-- The accounts after a request through a key: its row is created, or seen again, and so is
the account it is merged into. -/
def attributed (row : Account) (new : NewAccount) (seenAt : Timestamp) (accounts : List Account) :
    List Account :=
  match accounts.find? (holdsKey row.sourceId row.upstreamKey) with
  | none => accounts ++ [row]
  | some known =>
    let accounts := accounts.map fun account =>
      if holdsKey row.sourceId row.upstreamKey account then seen new seenAt account else account
    match known.mergedInto with
    | none => accounts
    | some target => accounts.map fun account =>
        if account.id = target then widen seenAt seenAt account else account

theorem find_map {change : Account → Account} (keeps : KeepsIdentity change) (accounts : List Account)
    (sourceId : SourceId) (key : String) :
    (accounts.map change).find? (holdsKey sourceId key) =
      (accounts.find? (holdsKey sourceId key)).map change := by
  have same : holdsKey sourceId key ∘ change = holdsKey sourceId key := by
    funext account
    simp only [Function.comp_apply, holdsKey, keeps.sourceId, keeps.upstreamKey]
  rw [List.find?_map, same]

theorem ownerOf_map {change : Account → Account} (keeps : KeepsIdentity change)
    (accounts : List Account) (sourceId : SourceId) (key : String) :
    ownerOf (accounts.map change) sourceId key = ownerOf accounts sourceId key := by
  have same : root ∘ change = root := by
    funext account
    simp only [Function.comp_apply, root, keeps.id, keeps.mergedInto]
  rw [ownerOf, find_map keeps, Option.map_map, same, ownerOf]

/-- A request gives its key an owner where it had none, and leaves all others as they were. -/
theorem ownerOf_attributed (row : Account) (new : NewAccount) (seenAt : Timestamp)
    (accounts : List Account) (sourceId : SourceId) (key : String) :
    ownerOf (attributed row new seenAt accounts) sourceId key =
      (ownerOf accounts sourceId key).or
        (if holdsKey sourceId key row then some (root row) else none) := by
  have seenKeeps := (keeps_seen new seenAt).onlyWhere fun account =>
    holdsKey row.sourceId row.upstreamKey account = true
  cases found : accounts.find? (holdsKey row.sourceId row.upstreamKey) with
  | none =>
    simp only [attributed, found, ownerOf, List.find?_append]
    cases accounts.find? (holdsKey sourceId key) with
    | none => by_cases named : holdsKey sourceId key row = true <;> simp [named]
    | some known => rfl
  | some known =>
    have owned : ownerOf (attributed row new seenAt accounts) sourceId key =
        ownerOf accounts sourceId key := by
      simp only [attributed, found]
      cases known.mergedInto with
      | none => exact ownerOf_map seenKeeps accounts sourceId key
      | some target =>
        have widenKeeps := (keeps_widen seenAt seenAt).onlyWhere fun account => account.id = target
        exact (ownerOf_map widenKeeps _ sourceId key).trans
          (ownerOf_map seenKeeps accounts sourceId key)
    rw [owned]
    by_cases named : holdsKey sourceId key row = true
    · obtain ⟨rfl, rfl⟩ := holdsKey_iff.mp named
      simp [ownerOf, found]
    · simp [named]

/-- The row an upsert answers, and the accounts after it. Its id is a new one either way. -/
theorem upsert_eq {row stored : Account} {conflict : Account → Account} {next : Tables}
    (upserted : upsert row conflict base = some (stored, next)) :
    (∀ account ∈ base.accounts, account.id ≠ row.id) ∧
    ((∃ known, base.accounts.find? (holdsKey row.sourceId row.upstreamKey) = some known ∧
      stored = conflict known ∧ next = { base with
        accounts := base.accounts.map fun account =>
          if holdsKey row.sourceId row.upstreamKey account then conflict account else account }) ∨
    (base.accounts.find? (holdsKey row.sourceId row.upstreamKey) = none ∧ stored = row ∧
      next = { base with accounts := base.accounts ++ [row] })) := by
  unfold upsert at upserted
  split at upserted
  next => cases upserted
  next unused =>
    refine ⟨by simpa using unused, ?_⟩
    split at upserted
    next known found =>
      cases upserted
      exact .inl ⟨known, found, rfl, rfl⟩
    next absent =>
      split at upserted
      next =>
        cases upserted
        exact .inr ⟨absent, rfl, rfl⟩
      next => cases upserted

/-- A request touches the accounts alone, and is charged to the owner of its key. -/
theorem holds_resolve (candidate : AccountId) (provider : String) (account : NewAccount)
    (seenAt : Timestamp) :
    Holds (fun tables => tables = base) (resolve candidate source provider account seenAt)
      fun id tables => tables = { base with
          accounts := attributed (account.row candidate source provider seenAt) account seenAt
            base.accounts } ∧
        ownerOf (attributed (account.row candidate source provider seenAt) account seenAt
          base.accounts) source (account.key provider) = some id ∧
        ∀ account ∈ base.accounts, account.id ≠ candidate := by
  let row := account.row candidate source provider seenAt
  have owned : ownerOf (attributed row account seenAt base.accounts) source (account.key provider) =
      (ownerOf base.accounts source (account.key provider)).or (some candidate) := by
    have named : holdsKey source (account.key provider) row = true := holdsKey_iff.mpr ⟨rfl, rfl⟩
    rw [ownerOf_attributed, if_pos named]
    rfl
  -- The tables after each way a request is resolved have the attributed accounts.
  have resolved {id : AccountId} {accounts : List Account}
      (unused : ∀ account ∈ base.accounts, account.id ≠ candidate)
      (same : attributed row account seenAt base.accounts = accounts)
      (owner : (ownerOf base.accounts source (account.key provider)).or (some candidate) = some id) :
      Holds (fun tables => tables = { base with accounts := accounts }) (pure id : Write AccountId)
        fun id tables => tables = { base with
            accounts := attributed row account seenAt base.accounts } ∧
          ownerOf (attributed row account seenAt base.accounts) source (account.key provider) =
            some id ∧ ∀ account ∈ base.accounts, account.id ≠ candidate := by
    subst same
    apply Holds.pure
    rintro tables rfl
    exact ⟨rfl, owned.trans owner, unused⟩
  apply attempt_at
  intro stored middle taken
  obtain ⟨unused, ⟨known, found, rfl, rfl⟩ | ⟨absent, rfl, rfl⟩⟩ := upsert_eq taken
  · have owner : (ownerOf base.accounts source (account.key provider)).or (some candidate) =
        some (root known) := congrArg (fun owner => Option.or owner _) (congrArg (Option.map root) found)
    change Holds _ (match known.mergedInto with
      | none => return known.id
      | some target => do
        execute (updateAccount target (widen seenAt seenAt))
        return target) _
    cases merged : known.mergedInto with
    | none =>
      simp only [root, merged, Option.getD_none] at owner
      apply resolved unused _ owner
      simp only [attributed, show base.accounts.find? (holdsKey row.sourceId row.upstreamKey) =
        some known from found, merged]
      rfl
    | some target =>
      simp only [root, merged, Option.getD_some] at owner
      apply execute_at
      apply resolved unused _ owner
      simp only [attributed, show base.accounts.find? (holdsKey row.sourceId row.upstreamKey) =
        some known from found, merged]
      rfl
  · apply resolved unused
    · simp only [attributed, show base.accounts.find? (holdsKey row.sourceId row.upstreamKey) =
        none from absent]
      rfl
    · exact congrArg (fun owner => Option.or owner _) (congrArg (Option.map root) absent)

/-- The windows with the evidence of a rejected request. -/
def marked (row : QuotaWindow) (windows : List QuotaWindow) : List QuotaWindow :=
  if windows.any (isWindow row.accountId row.windowKey) then
    windows.map fun stored =>
      if isWindow row.accountId row.windowKey stored ∧ stored.observedAt ≤ row.observedAt then
        { stored with resetsAt := row.resetsAt, observedAt := row.observedAt }
      else stored
  else windows ++ [row]

theorem upsertMarker_eq {row : QuotaWindow} {next : Tables}
    (upserted : upsertMarker row base = some ((), next)) :
    next = { base with windows := marked row base.windows } := by
  unfold upsertMarker at upserted
  split at upserted
  next stored =>
    cases upserted
    rw [marked, if_pos stored]
  next absent =>
    rw [insertWindow, if_neg absent] at upserted
    split at upserted
    next =>
      cases upserted
      rw [marked, if_neg absent]
    next => cases upserted

/-- Whether a stored request says something of its account's subscription that no later success
has overtaken. -/
def Speaks (runtime : Sql.Runtime) (accountId : AccountId) (event : NewUsageEvent) (now : Timestamp)
    (tables : Tables) : Prop :=
  (event.provider = "meta" ∧
    (isSuccess event.failed event.statusCode ∨ (resetOf runtime event now).isSome)) ∧
  hasNewerSuccess accountId event.occurredAt tables = false

instance : Decidable (Speaks runtime accountId event now tables) :=
  inferInstanceAs (Decidable (_ ∧ _))

/-- The windows after a stored request. -/
def observed (runtime : Sql.Runtime) (accountId : AccountId) (event : NewUsageEvent)
    (now : Timestamp) (tables : Tables) : List QuotaWindow :=
  if Speaks runtime accountId event now tables then
    match resetOf runtime event now with
    | some reset => marked (marker accountId reset event.occurredAt) tables.windows
    | none => tables.windows.filter fun window =>
        !(isWindow accountId responseKey window && window.observedAt ≤ event.occurredAt)
  else tables.windows

theorem holds_observe (id : AccountId) (event : NewUsageEvent) (now : Timestamp) :
    Holds (fun tables => tables = base) (Response.observe runtime id event now)
      fun _ tables => tables = { base with windows := observed runtime id event now base } := by
  apply Holds.onlyIf
  case skipped =>
    rintro ignored tables rfl
    rw [observed, if_neg fun speaks : Speaks .. => ignored speaks.1]
  intro taken
  apply fetch_at
  apply Holds.onlyIf
  case skipped =>
    rintro newer tables rfl
    rw [observed, if_neg fun speaks : Speaks .. => newer speaks.2]
  intro latest
  rw [observed, if_pos (show Speaks .. from ⟨taken, latest⟩)]
  cases resetOf runtime event now with
  | some reset =>
    apply holds_attempt
    rintro tables _ next rfl upserted
    exact upsertMarker_eq upserted
  | none =>
    apply holds_execute
    rintro tables rfl
    rfl

/-- The row an event inserts, and whether it was new. -/
theorem insertEvent_eq {row : UsageEvent} {isNew : Bool} {next : Tables}
    (inserted : insertEvent row base = some (isNew, next)) :
    (isNew = false ∧ base.events.any (holdsHash row.sourceId row.recordHash) = true ∧ next = base) ∨
    (isNew = true ∧ base.events.any (holdsHash row.sourceId row.recordHash) = false ∧
      (∀ event ∈ base.events, event.id ≠ row.id) ∧
      next = { base with events := base.events ++ [row] }) := by
  unfold insertEvent at inserted
  split at inserted
  next known =>
    cases inserted
    exact .inl ⟨rfl, known, rfl⟩
  next unknown =>
    split at inserted
    next => cases inserted
    next fresh =>
      split at inserted
      next =>
        cases inserted
        exact .inr ⟨rfl, Bool.eq_false_iff.mpr unknown, by simpa using fresh, rfl⟩
      next => cases inserted

/-- What one record did to the tables, and to the report of its batch. -/
inductive Taken (runtime : Sql.Runtime) (source : SourceId) (receivedAt : Timestamp)
    (base : Tables) (progress : Progress) : Incoming → Progress → Tables → Prop
  | rejected (error : String) (payload : Json) (id : DeadLetterId) :
    Taken runtime source receivedAt base progress (.rejected error payload) progress.reject
      { base with
        deadLetters := base.deadLetters ++ [⟨id, source, receivedAt, error, payload⟩] }
  | duplicate (event : NewUsageEvent) (candidate accountId : AccountId) (isNewCredential : Bool)
    (accounts : List Account)
    (charged : accounts = attributed (event.account.row candidate source event.provider
      event.occurredAt) event.account event.occurredAt base.accounts)
    (owner : ownerOf accounts source (event.account.key event.provider) = some accountId)
    (known : base.events.any (holdsHash source (event.recordHash runtime)) = true)
    (unused : ∀ account ∈ base.accounts, account.id ≠ candidate) :
    Taken runtime source receivedAt base progress (.record event)
      { progress with isNewCredential := isNewCredential }.duplicate
      { base with accounts := accounts }
  | accepted (event : NewUsageEvent) (candidate accountId : AccountId) (isNewCredential : Bool)
    (accounts : List Account) (id : EventId) (arrival : Option (AccountId × Bool)) (stored : Tables)
    (charged : accounts = attributed (event.account.row candidate source event.provider
      event.occurredAt) event.account event.occurredAt base.accounts)
    (owner : ownerOf accounts source (event.account.key event.provider) = some accountId)
    (unknown : base.events.any (holdsHash source (event.recordHash runtime)) = false)
    (fresh : ∀ event ∈ base.events, event.id ≠ id)
    (appended : stored = { base with
      accounts := accounts, events := base.events ++ [event.row runtime id source accountId] })
    (unused : ∀ account ∈ base.accounts, account.id ≠ candidate) :
    Taken runtime source receivedAt base progress (.record event)
      ({ progress with isNewCredential := isNewCredential }.accept id arrival)
      { stored with windows := observed runtime accountId event receivedAt stored }

theorem insertDeadLetter_eq {row : DeadLetter} {next : Tables}
    (inserted : insertDeadLetter row base = some ((), next)) :
    next = { base with deadLetters := base.deadLetters ++ [row] } := by
  unfold insertDeadLetter at inserted
  split at inserted
  next => cases inserted
  next =>
    split at inserted
    next =>
      cases inserted
      rfl
    next => cases inserted

theorem holds_ingestNext (receivedAt : Timestamp) (progress : Progress) (record : Incoming) :
    Holds (fun tables => tables = base) (ingestNext runtime source receivedAt progress record)
      fun next tables => Taken runtime source receivedAt base progress record next tables := by
  cases record with
  | rejected error payload =>
    apply Holds.nextId_then
    intro id
    apply attempt_at
    intro _ middle inserted
    apply Holds.pure
    rintro tables rfl
    rw [insertDeadLetter_eq inserted]
    exact .rejected error payload id
  | record event =>
    apply Holds.nextId_then
    intro candidate
    apply (holds_resolve candidate event.provider event.account event.occurredAt).bind
    intro accountId
    apply Holds.given
    rintro ⟨owner, unused⟩
    apply Holds.nextId_then
    intro id
    apply attempt_at
    intro isNew middle inserted
    rcases insertEvent_eq inserted with ⟨rfl, known, rfl⟩ | ⟨rfl, unknown, fresh, rfl⟩
    · apply Holds.pure
      rintro tables rfl
      exact .duplicate event candidate accountId _ _ rfl owner known unused
    · apply (holds_observe accountId event receivedAt).bind
      intro _
      apply Holds.pure
      rintro tables rfl
      exact .accepted event candidate accountId _ _ id _ _ rfl owner unknown fresh rfl
        unused

/-- The rule for a batch: what every record keeps on top of those before it, and the feed has no
part in, holds of the whole batch. -/
theorem holds_ingesting_taken {invariant : List Incoming → Progress → Tables → Prop}
    (ignores : ∀ done progress, IgnoresFeed (invariant done progress)) (records : List Incoming)
    {receivedAt now : Timestamp}
    (kept : ∀ done record rest, done ++ record :: rest = records → ∀ progress tables next after,
      invariant done progress tables →
      Taken runtime source receivedAt tables progress record next after →
      invariant (done ++ [record]) next after) :
    Holds (invariant [] .start) (ingesting runtime source records receivedAt now)
      fun ending tables => ∀ progress, ending = .committed progress →
        invariant records progress tables := by
  apply (holds_read.weaken (fun _ initial => initial) fun _ _ known => known.1).bind
  intro snapshot
  have folded : Holds (invariant [] .start)
      (records.foldlM (ingestNext runtime source receivedAt) .start) (invariant records) := by
    apply Holds.foldlM records
    intro done record rest progress whole
    constructor
    intro session next finish initial ran
    exact kept done record rest whole progress session.data next finish.data initial
      ((holds_ingestNext receivedAt progress record).ends session next finish rfl ran)
  apply folded.bind
  intro progress
  apply (holds_recordChanges (ignores _ _) snapshot).bind
  intro _
  apply (Holds.forM fun arrival _ => holds_record (ignores _ _) _).bind
  intro _
  apply (Holds.onlyIf (fun _ => holds_record (ignores _ _) _) fun _ _ initial => initial).bind
  intro _
  apply Holds.commit
  rintro tables initial _ ⟨⟩
  exact initial

end MeteredUsage.Store.Intake

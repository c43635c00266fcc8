import MeteredUsage.Library.Untouched
import MeteredUsage.Store.Commits
import MeteredUsage.Store.Recovery

/-! Who writes the retry deadlines: a reservation, and a successful observation of the account
they are for. Every other write leaves them as they are. -/

namespace MeteredUsage.Store.Deadlines
open MeteredUsage.Values MeteredUsage.Store.Schema MeteredUsage.Store.Commands
open MeteredUsage.Store.Recovery MeteredUsage.Store.Statements MeteredUsage.Store.Landing
open MeteredUsage.Library.Transaction MeteredUsage.Library.Untouched MeteredUsage.Library.Execution
open MeteredUsage.Changes.Table (Subject)

/-- A write to other tables than the deadlines. -/
abbrev Spares {Value : Type} (body : Write Value) : Prop := Leaves Tables.recoveries body

variable {runtime : Sql.Runtime} {id : AccountId}

theorem spares_fetch {Value : Type} (read : Tables → Value) : Spares (fetch read) := .query read

theorem spares_execute {change : Tables → Tables}
    (kept : ∀ tables, (change tables).recoveries = tables.recoveries) : Spares (execute change) :=
  .update kept

theorem spares_attempt {Value : Type} {effect : Tables → Option (Value × Tables)}
    (kept : ∀ tables value next, effect tables = some (value, next) →
      next.recoveries = tables.recoveries) : Spares (attempt effect) := fun _ =>
  holds_attempt fun tables value next same taken => (kept tables value next taken).trans same

theorem spares_record (subject : Subject) : Spares (record subject) :=
  Leaves.reading.bind fun _ => spares_execute fun _ => rfl

theorem spares_read (scope : Snapshots.Scope) (parts : Snapshots.Parts) (now : Timestamp) :
    Spares (Snapshots.read runtime scope parts now) := by
  apply (spares_fetch _).bind
  intro filter
  apply (spares_fetch _).bind
  intro accounts
  apply (spares_fetch _).bind
  intro plans
  have quota : Spares (Snapshots.readQuota runtime filter now parts) := by
    cases parts with
    | accounts => exact .pure _
    | quota => exact (spares_fetch _).bind fun _ => (spares_fetch _).bind fun _ => .pure _
  exact quota.bind fun _ => .pure _

theorem spares_accounts (scope : Snapshots.Scope) : Spares (Snapshots.accounts runtime scope) :=
  Leaves.reading.bind fun now => spares_read scope .accounts now

theorem spares_quota (scope : Snapshots.Scope) : Spares (Snapshots.quota runtime scope) :=
  Leaves.reading.bind fun now => spares_read scope .quota now

theorem spares_recordChanges (snapshot : Snapshots.Snapshot) :
    Spares (Snapshots.recordChanges runtime snapshot) :=
  (spares_read _ _ _).bind fun _ => .forM spares_record

/-- The end of a write that compares what it changed. -/
theorem spares_landing {Value : Type} (snapshot : Snapshots.Snapshot) (value : Value) :
    Spares (do
      Snapshots.recordChanges runtime snapshot
      commit (.database .query) value) :=
  (spares_recordChanges snapshot).bind fun _ => .commit _ _

theorem spares_recordLinkChanges (before : List (AccountId × AccountId)) (subjects : List Subject) :
    Spares (Continuations.recordLinkChanges before subjects) :=
  (spares_fetch _).bind fun _ => (spares_fetch _).bind fun _ => .forM spares_record

theorem spares_rename (id : AccountId) (displayName : Option String) :
    Spares (AccountWrites.rename runtime id displayName) := by
  apply (spares_accounts _).bind
  intro snapshot
  apply (spares_fetch _).bind
  intro renamed
  refine Leaves.bind (spares_execute fun _ => rfl) fun _ => ?_
  split
  next => exact spares_landing snapshot true
  next => exact .pure _

theorem spares_combine (id into : AccountId) (merged : Account) :
    Spares (AccountWrites.combine id into merged) := by
  apply (spares_fetch _).bind
  intro moved
  refine Leaves.bind (spares_execute fun _ => rfl) fun _ => ?_
  apply (Leaves.onlyIf (spares_record .usage)).bind
  intro _
  refine Leaves.bind (spares_execute fun _ => rfl) fun _ => ?_
  exact Leaves.bind (spares_execute fun _ => rfl) fun _ => spares_execute fun _ => rfl

theorem spares_merge (id into : AccountId) (requires : Bool) :
    Spares (AccountWrites.merge runtime id into requires) := by
  apply (Leaves.refuseIf _ _).bind
  intro _
  apply (spares_fetch _).bind
  intro stored
  apply (Leaves.require _ _).bind
  intro merged
  apply (spares_fetch _).bind
  intro known
  apply (Leaves.require _ _).bind
  intro target
  apply (Leaves.refuseIf _ _).bind
  intro _
  apply (Leaves.refuseIf _ _).bind
  intro _
  apply (Leaves.refuseIf _ _).bind
  intro _
  have rechecked : Spares (onlyIf requires do
      let continuation ← fetch (Continuations.load · id into)
      refuseIf continuation.isNone (.merge .continuationChanged)) :=
    .onlyIf ((spares_fetch _).bind fun _ => .refuseIf _ _)
  apply rechecked.bind
  intro _
  apply (spares_accounts _).bind
  intro snapshot
  exact (spares_combine id into merged).bind fun _ => spares_landing snapshot ()

theorem spares_dismissContinuation (previous replacement : AccountId) :
    Spares (AccountWrites.dismissContinuation previous replacement) := by
  apply (spares_fetch _).bind
  intro valid
  split
  case isFalse => exact .pure _
  apply (spares_fetch _).bind
  intro before
  have inserted : Spares (attempt fun tables =>
      some (AccountWrites.insertDismissal previous replacement tables)) := by
    apply spares_attempt
    intro tables value next taken
    unfold AccountWrites.insertDismissal at taken
    split at taken <;> cases taken <;> rfl
  apply inserted.bind
  intro _
  exact (Leaves.onlyIf (spares_recordLinkChanges _ _)).bind fun _ => .commit _ _

theorem spares_upsert (row : Account) (conflict : Account → Account) :
    Spares (attempt (Accounts.upsert row conflict)) := by
  apply spares_attempt
  intro tables value next taken
  obtain ⟨_, ⟨_, _, _, rfl⟩ | ⟨_, _, rfl⟩⟩ := Intake.upsert_eq taken <;> rfl

theorem spares_resolve (candidate : AccountId) (source : SourceId) (provider : String)
    (account : Accounts.NewAccount) (seenAt : Timestamp) :
    Spares (Accounts.resolve candidate source provider account seenAt) := by
  apply (spares_upsert _ _).bind
  intro row
  split
  next => exact .pure _
  next => exact Leaves.bind (spares_execute fun _ => rfl) fun _ => .pure _

theorem recoveries_insertWindow {row : QuotaWindow} {tables next : Tables} {value : Unit}
    (taken : Windows.insertWindow row tables = some (value, next)) :
    next.recoveries = tables.recoveries := by
  unfold Windows.insertWindow at taken
  split at taken
  next => cases taken
  next =>
    split at taken <;> cases taken
    rfl

theorem spares_observe (accountId : AccountId) (event : Events.NewUsageEvent) (now : Timestamp) :
    Spares (Response.observe runtime accountId event now) := by
  apply Leaves.onlyIf
  apply (spares_fetch _).bind
  intro newer
  apply Leaves.onlyIf
  split
  next reset _ =>
    apply spares_attempt
    intro tables value next taken
    unfold Response.upsertMarker at taken
    split at taken
    next =>
      cases taken
      rfl
    next => exact recoveries_insertWindow taken
  next => exact spares_execute fun _ => rfl

theorem spares_ingestNext (source : SourceId) (receivedAt : Timestamp) (progress : Ingest.Progress)
    (record : Events.Incoming) : Spares (Ingest.ingestNext runtime source receivedAt progress record) := by
  cases record with
  | rejected error payload =>
    apply Leaves.nextId.bind
    intro id
    refine Leaves.bind (spares_attempt ?_) fun _ => .pure _
    intro tables value next taken
    unfold Ingest.insertDeadLetter at taken
    split at taken
    next => cases taken
    next =>
      split at taken <;> cases taken
      rfl
  | record event =>
    apply Leaves.nextId.bind
    intro candidate
    apply (spares_resolve _ _ _ _ _).bind
    intro accountId
    apply Leaves.nextId.bind
    intro id
    have inserted (row : UsageEvent) : Spares (attempt (Ingest.insertEvent row)) := by
      apply spares_attempt
      intro tables value next taken
      unfold Ingest.insertEvent at taken
      split at taken
      next =>
        cases taken
        rfl
      next =>
        split at taken
        next => cases taken
        next =>
          split at taken <;> cases taken
          rfl
    apply (inserted _).bind
    intro isNew
    split
    next => exact (spares_observe _ _ _).bind fun _ => .pure _
    next => exact .pure _

theorem spares_ingest (source : SourceId) (records : List Events.Incoming) :
    Spares (Ingest.ingest runtime source records) := by
  apply Leaves.reading.bind
  intro receivedAt
  have compared : Spares (Ingest.snapshotBefore runtime source records) := by
    unfold Ingest.snapshotBefore
    split
    next => exact spares_quota _
    next => exact spares_accounts _
  apply compared.bind
  intro snapshot
  apply (Leaves.foldlM (spares_ingestNext source receivedAt) _).bind
  intro progress
  apply (spares_recordChanges snapshot).bind
  intro _
  apply (Leaves.forM fun arrival => spares_record _).bind
  intro _
  exact (Leaves.onlyIf (spares_record .usage)).bind fun _ => .commit _ _

theorem spares_storeNext (source : SourceId) (observedAt : Timestamp) (listed : Quota.Listed)
    (file : Credentials.AuthFile) :
    Spares (Quota.storeNext runtime source observedAt listed file) := by
  unfold Quota.storeNext
  split
  next => exact .pure _
  next authIndex _ =>
    have registered (candidate : AccountId) (provider : String) (account : Accounts.NewAccount) :
        Spares (Accounts.register candidate source provider account observedAt) :=
      (spares_upsert _ _).bind fun _ => .pure _
    have observed (accountId : AccountId) (refreshable : Bool) :
        Spares (Credentials.observe runtime accountId file observedAt refreshable) := by
      apply spares_attempt
      intro tables value next taken
      unfold Credentials.upsertState at taken
      split at taken
      next =>
        cases taken
        rfl
      next =>
        split at taken <;> cases taken
        rfl
    have stored : Spares (Quota.storeFile runtime source observedAt file authIndex) := by
      apply Leaves.nextId.bind
      intro candidate
      apply (registered _ _ _).bind
      intro accountId
      exact (observed _ _).bind fun _ => .pure _
    exact stored.bind fun _ => .pure _

theorem spares_store (source : SourceId) (listing : Credentials.AuthFiles) :
    Spares (Quota.store runtime source listing) := by
  apply (spares_accounts _).bind
  intro snapshot
  apply (Leaves.foldlM (spares_storeNext source listing.observedAt) _).bind
  intro listed
  refine Leaves.bind (Leaves.onlyIf (spares_execute fun _ => rfl)) fun _ => ?_
  exact spares_landing snapshot _

theorem spares_refreshed (refreshedAt : Timestamp)
    (outcome : Except Credentials.RefreshError (Option String)) :
    Spares (Credentials.refreshed id refreshedAt outcome) := spares_execute fun _ => rfl

theorem spares_recordSample (window : Windows.NewWindow) (observedAt : Timestamp) :
    Spares (Windows.recordSample runtime id window observedAt) := by
  unfold Windows.recordSample
  split
  next => exact spares_execute fun _ => rfl
  next => exact .pure _

theorem spares_replace (windows : List Windows.NewWindow) (observedAt : Timestamp) :
    Spares (Windows.replace runtime id windows observedAt) := by
  apply (spares_fetch _).bind
  intro stored
  refine Leaves.bind (spares_execute fun _ => rfl) fun _ => ?_
  apply Leaves.forM
  intro window
  have inserted (row : QuotaWindow) : Spares (attempt (Windows.insertWindow row)) :=
    spares_attempt fun _ _ _ taken => recoveries_insertWindow taken
  exact (inserted _).bind fun _ => spares_recordSample window observedAt

theorem spares_storeResets (resets : Quota.ManualResets) : Spares (Quota.storeResets id resets) := by
  cases resets with
  | unchanged => exact .pure _
  | reported grants =>
    refine Leaves.bind (spares_execute fun _ => rfl) fun _ => ?_
    apply Leaves.forM
    intro grant
    apply spares_attempt
    intro tables value next taken
    unfold Windows.insertCredit at taken
    split at taken <;> cases taken
    rfl

theorem spares_failed (error : Credentials.RefreshError) (refreshedAt : Timestamp) :
    Spares (Quota.recordRefresh runtime id (.error error) refreshedAt) := by
  apply (spares_quota _).bind
  intro snapshot
  exact (spares_refreshed refreshedAt _).bind fun _ => spares_landing snapshot ()

theorem spares_clear (id : AccountId) : Spares (Quota.clear runtime id) := by
  apply (spares_quota _).bind
  intro snapshot
  exact Leaves.bind (spares_execute fun _ => rfl) fun _ => spares_landing snapshot ()

theorem spares_expire (now : Timestamp) : Spares (Response.expire runtime now) := by
  apply (spares_fetch _).bind
  intro expired
  split
  case isTrue => exact .pure _
  have one (accountId : AccountId) : Spares (Response.expireAccount runtime accountId) := by
    apply (spares_quota _).bind
    intro snapshot
    exact Leaves.bind (spares_execute fun _ => rfl) fun _ => spares_recordChanges snapshot
  exact (Leaves.forM one).bind fun _ => .commit _ _

theorem spares_sync (configs : List Sources.SourceConfig) : Spares (Sources.sync runtime configs) := by
  apply (spares_accounts _).bind
  intro snapshot
  apply Leaves.reading.bind
  intro createdAt
  have configured (config : Sources.SourceConfig) : Spares (do
      let id ← nextId
      attempt (Sources.upsertSource id createdAt config)) := by
    apply Leaves.nextId.bind
    intro id
    apply spares_attempt
    intro tables value next taken
    unfold Sources.upsertSource at taken
    split at taken
    next => cases taken
    next => split at taken <;> cases taken <;> rfl
  apply (Leaves.forM configured).bind
  intro _
  exact Leaves.bind (spares_execute fun _ => rfl) fun _ => spares_landing snapshot ()

theorem spares_checked (plan : Plans.NewPlan) : Spares (Plans.checked plan) := by
  unfold Plans.checked
  split
  next => exact .refuse _
  next => exact .pure _

theorem spares_create (plan : Plans.NewPlan) : Spares (Plans.create plan) := by
  apply (spares_checked plan).bind
  intro _
  apply Leaves.nextId.bind
  intro id
  apply (spares_fetch _).bind
  intro before
  have inserted : Spares (attempt (Plans.insertPlan (plan.row id))) := by
    apply spares_attempt
    intro tables value next taken
    unfold Plans.insertPlan at taken
    split at taken
    next =>
      split at taken <;> cases taken
      rfl
    next =>
      cases taken
      rfl
  apply inserted.bind
  intro _
  apply (Leaves.refuseIf _ _).bind
  intro _
  apply (spares_fetch _).bind
  intro read
  apply (Leaves.require _ _).bind
  intro created
  exact (spares_recordLinkChanges _ _).bind fun _ => .commit _ _

theorem spares_update (id : PlanId) (change : Plans.PlanChange) : Spares (Plans.update id change) := by
  apply (spares_fetch _).bind
  intro read
  split
  next => exact .pure _
  next current =>
    split
    case isFalse => exact .pure _
    apply (spares_checked _).bind
    intro _
    apply (spares_fetch _).bind
    intro before
    have updated (plan : Plan) : Spares (attempt fun tables => some (Plans.updatePlan plan tables)) := by
      apply spares_attempt
      intro tables value next taken
      unfold Plans.updatePlan at taken
      split at taken <;> cases taken <;> rfl
    apply (updated _).bind
    intro _
    apply (Leaves.refuseIf _ _).bind
    intro _
    apply (spares_fetch _).bind
    intro edited
    exact (spares_recordLinkChanges _ _).bind fun _ => .commit _ _

theorem spares_delete (id : PlanId) : Spares (Plans.delete id) := by
  apply (spares_fetch _).bind
  intro before
  have deleted : Spares (attempt fun tables => some (Plans.deletePlan id tables)) := by
    apply spares_attempt
    intro tables value next taken
    cases taken
    rfl
  apply deleted.bind
  intro found
  split
  next => exact (spares_recordLinkChanges _ _).bind fun _ => .commit _ _
  next => exact .pure _

theorem spares_filling (pricedAs : Cost.PricedAs) :
    Spares (attempt fun tables => some (Cost.fillTables runtime pricedAs tables)) := by
  apply spares_attempt
  intro tables value next taken
  cases taken
  rfl

theorem spares_fill (pricedAs : Cost.PricedAs) : Spares (Cost.fill runtime pricedAs) := by
  apply (spares_filling pricedAs).bind
  intro filled
  exact (Leaves.onlyIf (spares_record .usage)).bind fun _ => .commit _ _

theorem spares_reprice (pricedAs : Cost.PricedAs) (start finish : Option Timestamp) :
    Spares (Cost.reprice runtime pricedAs start finish) := by
  have cleared : Spares (attempt fun tables => some (Cost.forgetTables start finish tables)) := by
    apply spares_attempt
    intro tables value next taken
    cases taken
    rfl
  apply cleared.bind
  intro count
  apply (spares_filling pricedAs).bind
  intro filled
  exact (Leaves.onlyIf (spares_record .usage)).bind fun _ => .commit _ _

/-- What an observation of an account leaves of the deadlines. -/
def forgotten (id : AccountId) (recoveries : List Recovery) : List Recovery :=
  recoveries.filter (·.accountId ≠ id)

theorem holds_observed (observation : Quota.Observation) (refreshedAt : Timestamp)
    (shown : List Recovery) :
    Holds (fun tables => tables.recoveries = shown)
      (Quota.recordRefresh runtime id (.ok observation) refreshedAt)
      fun _ tables => tables.recoveries = forgotten id shown := by
  apply (spares_quota _ shown).bind
  intro snapshot
  have forgot : Holds (fun tables => tables.recoveries = shown)
      (execute fun tables => { tables with
        recoveries := tables.recoveries.filter (·.accountId ≠ id) })
      fun _ tables => tables.recoveries = forgotten id shown :=
    holds_execute fun _ same => congrArg (forgotten id) same
  have observed : Holds (fun tables => tables.recoveries = shown)
      (Quota.storeResult runtime id (.ok observation) refreshedAt)
      fun _ tables => tables.recoveries = forgotten id shown := by
    apply forgot.bind
    intro _
    apply (spares_replace _ _ _).bind
    intro _
    apply (spares_storeResets _ _).bind
    exact fun _ => spares_refreshed _ _ _
  exact observed.bind fun _ => spares_landing snapshot () _

/-- The account a write is a successful observation of. -/
def observedBy : Command → Option AccountId
  | .recordRefresh id (.ok _) _ => some id
  | _ => none

/-- The deadlines after a committed transaction whose end is known. -/
theorem recoveries_performed {Value : Type} {body : Write (Ending Value)} {session : Session Tables}
    {next : Tables} {after : List Recovery}
    (holds : Holds (fun tables => tables.recoveries = session.data.recoveries) body
      fun _ tables => tables.recoveries = after)
    (landed : performed body session = (true, next)) : next.recoveries = after := by
  obtain ⟨_, kept⟩ := performed_holds holds rfl landed
  exact kept

/-- A write that commits leaves the deadlines as they were, but for a successful observation. -/
theorem recoveries_step {tables next : Tables} {command : Command} {world : World}
    (landed : perform runtime tables world command = (true, next)) :
    next.recoveries = (observedBy command).elim tables.recoveries fun id =>
      forgotten id tables.recoveries := by
  cases command with
  | rename id displayName => exact recoveries_performed (spares_rename id displayName _) landed
  | merge id into requires => exact recoveries_performed (spares_merge id into requires _) landed
  | dismissContinuation previous replacement =>
    exact recoveries_performed (spares_dismissContinuation previous replacement _) landed
  | ingest source records => exact recoveries_performed (spares_ingest source records _) landed
  | store source listing => exact recoveries_performed (spares_store source listing _) landed
  | recordRefresh id result refreshedAt =>
    cases result with
    | error error => exact recoveries_performed (spares_failed error refreshedAt _) landed
    | ok observation =>
      exact recoveries_performed (holds_observed observation refreshedAt _) landed
  | clear id => exact recoveries_performed (spares_clear id _) landed
  | expire now => exact recoveries_performed (spares_expire now _) landed
  | sync configs => exact recoveries_performed (spares_sync configs _) landed
  | createPlan plan => exact recoveries_performed (spares_create plan _) landed
  | updatePlan id change => exact recoveries_performed (spares_update id change _) landed
  | deletePlan id => exact recoveries_performed (spares_delete id _) landed
  | fill pricedAs => exact recoveries_performed (spares_fill pricedAs _) landed
  | reprice pricedAs start finish =>
    exact recoveries_performed (spares_reprice pricedAs start finish _) landed

theorem recoveryOf_forgotten (id observed : AccountId) (tables : Tables) :
    (forgotten observed tables.recoveries).find? (fun row => decide (row.accountId = id)) =
      if observed = id then none else Recovery.recoveryOf id tables := by
  unfold forgotten Recovery.recoveryOf
  rw [List.find?_filter]
  by_cases same : observed = id
  · rw [if_pos same, List.find?_eq_none]
    intro row _
    simp [same]
  · rw [if_neg same]
    congr 1
    funext row
    by_cases named : row.accountId = id <;> simp [named, Ne.symm same]

/-- The deadline of one account after a write. -/
theorem recoveryOf_step {tables next : Tables} {command : Command} {world : World}
    (landed : perform runtime tables world command = (true, next)) :
    Recovery.recoveryOf id next =
      if observedBy command = some id then none else Recovery.recoveryOf id tables := by
  unfold Recovery.recoveryOf
  rw [recoveries_step landed]
  cases observed : observedBy command with
  | none => rfl
  | some other =>
    refine (recoveryOf_forgotten id other tables).trans ?_
    simp only [Option.some.injEq]
    rfl

end MeteredUsage.Store.Deadlines

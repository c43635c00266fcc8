import MeteredUsage.Library.Execution
import MeteredUsage.Store.Cost
import MeteredUsage.Store.Ingest
import MeteredUsage.Store.Plans
import MeteredUsage.Store.Sources

/-! The writes of the service over one database, each a transaction that lands whole or not at
all, and the runs of them. -/

namespace MeteredUsage.Store.Commands
open MeteredUsage.Values MeteredUsage.Store.Schema MeteredUsage.Library.Transaction
open MeteredUsage.Store.Events (Incoming)

inductive Command where
  | rename (id : AccountId) (displayName : Option String)
  | merge (id into : AccountId) (requiresContinuation : Bool)
  | dismissContinuation (previous replacement : AccountId)
  | ingest (sourceId : SourceId) (records : List Incoming)
  | store (sourceId : SourceId) (listing : Credentials.AuthFiles)
  | recordRefresh (accountId : AccountId)
      (result : Except Credentials.RefreshError Quota.Observation) (refreshedAt : Timestamp)
  | clear (accountId : AccountId)
  | expire (now : Timestamp)
  | sync (configs : List Sources.SourceConfig)
  | createPlan (plan : Plans.NewPlan)
  | updatePlan (id : PlanId) (change : Plans.PlanChange)
  | deletePlan (id : PlanId)
  | fill (pricedAs : Cost.PricedAs)
  | reprice (pricedAs : Cost.PricedAs) (start finish : Option Timestamp)

/-- What a transaction meets while it runs. -/
structure World where
  fails : Nat → Bool
  clock : Nat → Timestamp
  ids : Nat → Nat

def World.session (world : World) (tables : Tables) : Session Tables :=
  ⟨tables, world.fails, world.clock, world.ids⟩

/-- A world in which no statement fails. -/
def World.calm (now : Timestamp) (ids : Nat → Nat) : World := ⟨fun _ => false, fun _ => now, ids⟩

/-- Whether a transaction committed, and the database after it. -/
def performed {Value : Type} (body : Write (Ending Value)) (session : Session Tables) :
    Bool × Tables :=
  match transact body session with
  | (.ok (.committed _), after) => (true, after)
  | (_, after) => (false, after)

/-- The database after a transaction that committed. -/
def landed {Value : Type} (body : Write (Ending Value)) (session : Session Tables) : Option Tables :=
  let (committed, after) := performed body session
  if committed then some after else none

variable (runtime : Sql.Runtime)

/-- Runs a write against the stored tables. -/
def perform (tables : Tables) (world : World) : Command → Bool × Tables
  | .rename id displayName =>
    performed (AccountWrites.rename runtime id displayName) (world.session tables)
  | .merge id into requiresContinuation =>
    performed (AccountWrites.merge runtime id into requiresContinuation) (world.session tables)
  | .dismissContinuation previous replacement =>
    performed (AccountWrites.dismissContinuation previous replacement) (world.session tables)
  | .ingest sourceId records =>
    performed (Ingest.ingest runtime sourceId records) (world.session tables)
  | .store sourceId listing => performed (Quota.store runtime sourceId listing) (world.session tables)
  | .recordRefresh accountId result refreshedAt =>
    performed (Quota.recordRefresh runtime accountId result refreshedAt) (world.session tables)
  | .clear accountId => performed (Quota.clear runtime accountId) (world.session tables)
  | .expire now => performed (Response.expire runtime now) (world.session tables)
  | .sync configs => performed (Sources.sync runtime configs) (world.session tables)
  | .createPlan plan => performed (Plans.create plan) (world.session tables)
  | .updatePlan id change => performed (Plans.update id change) (world.session tables)
  | .deletePlan id => performed (Plans.delete id) (world.session tables)
  | .fill pricedAs => performed (Cost.fill runtime pricedAs) (world.session tables)
  | .reprice pricedAs start finish =>
    performed (Cost.reprice runtime pricedAs start finish) (world.session tables)

/-- A committed write as a step from one stored state to the next. -/
def step (tables : Tables) (action : Command × World) : Option Tables :=
  let (landed, next) := perform runtime tables action.2 action.1
  if landed then some next else none

variable {runtime} {tables next : Tables} {Value : Type} {body : Write (Ending Value)}

/-- A write that is refused or fails leaves the database as it was. -/
theorem performed_unchanged {session : Session Tables}
    (unlanded : (performed body session).1 = false) : (performed body session).2 = session.data := by
  unfold performed at unlanded ⊢
  split
  next value after ran =>
    rw [ran] at unlanded
    cases unlanded
  next outcome after uncommitted ran =>
    have kept : (transact body session).2 = session.data := transact_unchanged fun value same => by
      rw [ran] at same
      exact uncommitted value same
    rw [ran] at kept
    exact kept

theorem perform_unchanged {world : World} {command : Command}
    (unlanded : (perform runtime tables world command).1 = false) :
    (perform runtime tables world command).2 = tables := by
  cases command <;> exact performed_unchanged unlanded

theorem performed_iff {session : Session Tables} :
    performed body session = (true, next) ↔
      ∃ value, transact body session = (.ok (.committed value), next) := by
  unfold performed
  split
  next value after ran => simp [ran]
  next outcome after uncommitted ran =>
    simp only [Prod.mk.injEq, Bool.false_eq_true, false_and, false_iff, not_exists]
    intro value same
    rw [ran] at same
    exact uncommitted value (congrArg Prod.fst same)

/-- A committed transaction meets every condition its body is shown to end with. -/
theorem performed_holds {session : Session Tables} {before : Tables → Prop}
    {after : Ending Value → Tables → Prop} (holds : Holds before body after)
    (initial : before session.data) (landed : performed body session = (true, next)) :
    ∃ value, after (.committed value) next := by
  unfold performed at landed
  split at landed
  next value finish ran =>
    cases landed
    exact ⟨value, holds.transact initial ran⟩
  next => cases landed

theorem landed_iff {session : Session Tables} :
    landed body session = some next ↔ performed body session = (true, next) := by
  unfold landed
  obtain ⟨committed, after⟩ := performed body session
  cases committed <;> simp

theorem performed_reading {body : Timestamp → Write (Ending Value)}
    {session : Session Tables} :
    performed (reading >>= body) session = performed (body (session.clock 0))
      { session with clock := fun next => session.clock (next + 1) } := rfl

theorem step_iff {action : Command × World} :
    step runtime tables action = some next ↔
      perform runtime tables action.2 action.1 = (true, next) := by
  unfold step
  obtain ⟨landed, after⟩ := perform runtime tables action.2 action.1
  cases landed <;> simp

end MeteredUsage.Store.Commands

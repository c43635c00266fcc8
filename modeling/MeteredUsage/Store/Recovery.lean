import MeteredUsage.Store.Commands
import MeteredUsage.Store.Statements

/-! Expired sign-in recovery, with a durable retry deadline for each account. A reservation is
made before the read it is for, so an interrupted one keeps its backoff. -/

namespace MeteredUsage.Store.Recovery
open MeteredUsage.Values MeteredUsage.Store.Schema MeteredUsage.Store.Snapshots
open MeteredUsage.Store.Credentials MeteredUsage.Store.Statements
open MeteredUsage.Store.Continuations (stateOf)
open MeteredUsage.Library.Keyed MeteredUsage.Library.Transaction

/-- The first retry waits one gateway sync interval, in seconds. -/
def initialDelay : Int := 180

/-- Four reads a day. -/
def maxDelay : Int := 6 * 60 * 60

/-- Where the count saturates, beyond the capped delay. -/
def maxAttempts : Nat := 8

/-- The provider of a listed account whose sign-in expired and that can be read. -/
def expiredProvider (id : AccountId) (tables : Tables) : Option String := do
  let state ← stateOf tables id
  let account ← accountOf tables id
  let source ← lookup Source.id tables.sources account.sourceId
  if state.signInError.isSome && state.removedAt.isNone && !state.disabled &&
      state.hardRefreshable && source.enabled
  then some account.provider
  else none

def recoveryOf (id : AccountId) (tables : Tables) : Option Recovery :=
  tables.recoveries.find? (·.accountId = id)

/-- `INSERT INTO quota_recovery … ON CONFLICT DO NOTHING`. -/
def insertRecovery (row : Recovery) (tables : Tables) : Tables :=
  if (recoveryOf row.accountId tables).isSome then tables
  else { tables with recoveries := tables.recoveries ++ [row] }

/-- `UPDATE quota_recovery SET … WHERE account_id = ?`, which the check on the count can refuse. -/
def updateRecovery (row : Recovery) (tables : Tables) : Option (Unit × Tables) :=
  if row.attempts ≤ 8 then
    some ((), { tables with recoveries := tables.recoveries.map fun stored =>
      if stored.accountId = row.accountId then row else stored })
  else none

/-- The instant some seconds later. Past the last instant the sum panics, which drops the
transaction. -/
def later (runtime : Sql.Runtime) (now : Timestamp) (delay : Int) : Write Timestamp := do
  refuseIf (runtime.isTimestamp (now + seconds delay) = false) (.database .query)
  return now + seconds delay

/-- The seconds a reservation waits for the next one. -/
def backoff (attempts : Nat) : Int := min (initialDelay * 2 ^ attempts) maxDelay

/-- `Recovery::claim_due`. -/
def claimDue (runtime : Sql.Runtime) (id : AccountId) (now : Timestamp) : Write (Ending Bool) := do
  let credential ← fetch (expiredProvider id)
  if (credential.bind Provider.parse).any Provider.allowsAutomaticRecovery then
    let first ← later runtime now initialDelay
    execute (insertRecovery ⟨id, 0, first⟩)
    let recovery ← require (.database .query) (← fetch (recoveryOf id))
    if recovery.nextAttemptAt ≤ now then
      let attempts := min (recovery.attempts + 1) maxAttempts
      let next ← later runtime now (backoff attempts)
      attempt (updateRecovery ⟨id, attempts, next⟩)
      commit (.database .query) true
    else commit (.database .query) false
  else return .dropped false

variable {runtime : Sql.Runtime} {id other : AccountId} {now : Timestamp} {base tables : Tables}

/-- The row a call looks at: the stored one, or the one it inserts. -/
def consulted (id : AccountId) (now : Timestamp) (tables : Tables) : Recovery :=
  (recoveryOf id tables).getD ⟨id, 0, now + seconds initialDelay⟩

/-- The row of a call whose deadline has come. -/
def reserved (now : Timestamp) (row : Recovery) : Recovery :=
  let attempts := min (row.attempts + 1) maxAttempts
  ⟨row.accountId, attempts, now + seconds (backoff attempts)⟩

theorem recoveryOf_account {row : Recovery} (stored : recoveryOf id tables = some row) :
    row.accountId = id := by
  unfold recoveryOf at stored
  simpa using List.find?_some stored

theorem consulted_account : (consulted id now tables).accountId = id := by
  unfold consulted
  cases stored : recoveryOf id tables with
  | none => rfl
  | some row => exact recoveryOf_account stored

theorem recoveryOf_insert (id : AccountId) (row : Recovery) (tables : Tables) :
    recoveryOf id (insertRecovery row tables) =
      (recoveryOf id tables).or (if row.accountId = id then some row else none) := by
  unfold insertRecovery
  split
  next known =>
    obtain ⟨stored, found⟩ := Option.isSome_iff_exists.mp known
    by_cases same : row.accountId = id
    · rw [← same, found]
      rfl
    · rw [if_neg same, Option.or_none]
  next =>
    unfold recoveryOf
    by_cases same : row.accountId = id <;> simp [List.find?_append, same]

theorem recoveryOf_update {row : Recovery} {next : Tables}
    (updated : updateRecovery row tables = some ((), next)) (id : AccountId) :
    recoveryOf id next =
      (recoveryOf id tables).map fun stored => if row.accountId = id then row else stored := by
  unfold updateRecovery at updated
  split at updated
  next =>
    cases updated
    unfold recoveryOf
    have found : (fun stored : Recovery => decide (stored.accountId = id)) ∘ (fun stored : Recovery =>
        if stored.accountId = row.accountId then row else stored) =
          fun stored => decide (stored.accountId = id) := by
      funext stored
      simp only [Function.comp_apply]
      split
      next same => rw [same]
      next => rfl
    rw [List.find?_map, found]
    cases stored : tables.recoveries.find? fun stored => decide (stored.accountId = id) with
    | none => rfl
    | some known =>
      have account : known.accountId = id := by simpa using List.find?_some stored
      simp only [Option.map_some, account, eq_comm]
  next => cases updated

/-- What a call that committed answered and left. -/
structure Claimed (id : AccountId) (now : Timestamp) (base : Tables) (due : Bool) (tables : Tables) :
    Prop where
  answer : due = decide ((consulted id now base).nextAttemptAt ≤ now)
  row : recoveryOf id tables = some
    (if due then reserved now (consulted id now base) else consulted id now base)
  others : ∀ other, other ≠ id → recoveryOf other tables = recoveryOf other base

theorem later_then {Result : Type} {before : Tables → Prop} {delay : Int}
    {rest : Timestamp → Write Result} {after : Result → Tables → Prop}
    (next : Holds before (rest (now + seconds delay)) after) :
    Holds before (later runtime now delay >>= rest) after := by
  unfold later
  rw [bind_assoc]
  apply Holds.refuseIf_then
  intro _
  rw [pure_bind]
  exact next

/-- Ending with a call that committed. -/
def OnClaim (condition : Bool → Tables → Prop) : Ending Bool → Tables → Prop
  | .committed due, tables => condition due tables
  | .dropped _, _ => True

theorem holds_claimDue (id : AccountId) (now : Timestamp) :
    Holds (fun tables => tables = base) (claimDue runtime id now) (OnClaim (Claimed id now base)) := by
  unfold claimDue
  apply fetch_at
  split
  case isFalse => exact Holds.pure fun _ _ => trivial
  apply later_then
  apply execute_at
  apply fetch_at
  have inserted (account : AccountId) : recoveryOf account
      (insertRecovery ⟨id, 0, now + seconds initialDelay⟩ base) =
        if account = id then some (consulted id now base) else recoveryOf account base := by
    rw [recoveryOf_insert]
    by_cases same : account = id
    · subst same
      unfold consulted
      cases recoveryOf account base <;> simp
    · simp [same, Ne.symm same]
  rw [inserted id, if_pos rfl]
  have kept (other : AccountId) (apart : other ≠ id) := (inserted other).trans (if_neg apart)
  apply Holds.require_then
  rintro recovery found
  obtain rfl := Option.some.inj found
  split
  next due =>
    apply later_then
    apply attempt_at
    rintro ⟨⟩ middle updated
    have row := recoveryOf_update updated
    apply Holds.commit
    rintro tables rfl
    refine ⟨(decide_eq_true due).symm, ?_, fun other apart => ?_⟩
    · rw [row, inserted id, if_pos rfl, Option.map_some, if_pos rfl, if_pos rfl]
      unfold reserved
      rw [consulted_account]
    · rw [row, kept other apart]
      simp [Ne.symm apart]
  next due =>
    apply Holds.commit
    rintro tables rfl
    exact ⟨(decide_eq_false due).symm, (inserted id).trans (if_pos rfl), kept⟩

end MeteredUsage.Store.Recovery

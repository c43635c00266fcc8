import MeteredUsage.QuotaActions.Claim
import MeteredUsage.Library.Execution

/-! One service over the action tables: claims that hold SQLite's write lock, the leases of
their workers in memory, the workers behind their family locks, the hard refreshes that
reconcile resets, and restarts. The history keeps what the claims granted and answered. -/

namespace MeteredUsage.QuotaActions.Service
open MeteredUsage.Values MeteredUsage.QuotaActions.Store MeteredUsage.QuotaActions.Claim
open MeteredUsage.Library.Keyed MeteredUsage.Library.Execution

/-- The boot's id and its map of action ids to leases. A lease is its token's number. -/
structure ActionOwners where
  boot : String
  leases : List (Nat × Nat)
  unique : Distinct Prod.fst leases

def ActionOwners.new (boot : String) : ActionOwners := ⟨boot, [], List.Pairwise.nil⟩

def ActionOwners.claim (owners : ActionOwners) (actionId token : Nat) : ActionOwners where
  boot := owners.boot
  leases := owners.leases.filter (fun lease => lease.1 ≠ actionId) ++ [(actionId, token)]
  unique := Distinct.append_singleton (owners.unique.filter _) fun other member => by
    simpa using (List.mem_filter.mp member).2

/-- The ids whose lease no live token upholds. -/
def ActionOwners.abandoned (owners : ActionOwners) (live : List Nat) : List Nat :=
  (owners.leases.filter fun lease => lease.2 ∉ live).map Prod.fst

def ActionOwners.forget (owners : ActionOwners) (ids : List Nat) : ActionOwners where
  boot := owners.boot
  leases := owners.leases.filter fun lease => lease.1 ∉ ids
  unique := owners.unique.filter _

inductive WorkerPhase where
  /-- Committed, and still to forget the ids it found abandoned. -/
  | claimed (abandoned : List Nat)
  | queued
  | running
  /-- Its result is written, or could not be; it still holds its family lock. -/
  | completed
  | released
deriving DecidableEq, Repr

/-- The holder of a lease: a `Fresh` claim from its commit until its lease is dropped. -/
structure Worker where
  token : Nat
  actionId : Nat
  kind : ActionKind
  invocation : Invocation
  phase : WorkerPhase
deriving DecidableEq, Repr

def Worker.scope (worker : Worker) : ActionKind × Option String × Option String :=
  worker.invocation.scope worker.kind

inductive ClaimPhase where
  | begun
  | swept (abandoned : List Nat) (store : Actions)
  | reused (abandoned : List Nat) (store : Actions) (saved : QuotaAction)
  | fresh (abandoned : List Nat) (store : Actions) (actionId token : Nat)

/-- The ids a claim has found abandoned, once it has swept. -/
def ClaimPhase.abandoned : ClaimPhase → Option (List Nat)
  | .begun => none
  | .swept abandoned _ | .reused abandoned _ _ | .fresh abandoned _ _ _ => some abandoned

/-- A claim that holds the write lock, and the tokens that were live when it took it. -/
structure Claiming where
  invocation : Invocation
  kind : ActionKind
  before : String
  live : List Nat
  phase : ClaimPhase

inductive Verdict where
  | fresh (actionId : Nat)
  | reused (actionId : Nat)
  | conflict
deriving DecidableEq, Repr

/-- The action an answer names. -/
def Verdict.action : Verdict → Option Nat
  | .fresh actionId | .reused actionId => some actionId
  | .conflict => none

structure Answer where
  invocation : Invocation
  kind : ActionKind
  verdict : Verdict
deriving DecidableEq, Repr

/-- What a committed claim left unfinished, and the tokens live when it took the lock. -/
structure Committed where
  boot : String
  live : List Nat
  unfinished : List QuotaAction
deriving DecidableEq, Repr

structure History where
  granted : List (Nat × Nat)
  answers : List Answer
  committed : List Committed
  boots : List String
deriving DecidableEq, Repr

structure System where
  store : Actions
  owners : ActionOwners
  writer : Option Claiming
  forgetting : List (List Nat)
  workers : List Worker
  tokens : Nat
  history : History

def System.initial (boot : String) : System where
  store := Actions.empty
  owners := ActionOwners.new boot
  writer := none
  forgetting := []
  workers := []
  tokens := 0
  history := ⟨[], [], [], [boot]⟩

inductive Event where
  | begin (invocation : Invocation) (kind : ActionKind) (before : String)
  | sweep (now : Timestamp)
  | answer (now : Timestamp)
  | commit
  /-- A statement or the commit of the claim failed. -/
  | rollback
  /-- A committed `Reused` claim forgets the ids it found abandoned. -/
  | forget (turn : Nat)
  /-- A committed `Fresh` claim does. -/
  | settle (token : Nat)
  | acquire (token : Nat)
  | complete (token status : Nat) (body : String) (now : Timestamp) (persisted : Bool)
  | saveAfter (token : Nat) (after : String)
  | release (token : Nat)
  /-- The worker returns, or dies. -/
  | drop (token : Nat)
  /-- A running hard refresh records a reported grant list. -/
  | reconcile (token : Nat) (accountId : AccountId) (now : Timestamp)
  | reject (kind : ActionKind) (invocation : Invocation) (status : Nat) (body : String)
      (now : Timestamp)
  | restart (boot : String)
deriving DecidableEq, Repr

def System.live (system : System) : List Nat := system.workers.map Worker.token

def System.worker (system : System) (token : Nat) : Option Worker :=
  lookup Worker.token system.workers token

def System.become (system : System) (token : Nat) (phase : WorkerPhase) : List Worker :=
  system.workers.map fun worker =>
    if worker.token = token then { worker with phase := phase } else worker

def Worker.holds (worker : Worker) (family : Nat) : Bool :=
  (worker.phase = .running || worker.phase = .completed) && worker.kind.family = family

/-- The worker's own `complete` is behind it. -/
def Worker.done (worker : Worker) : Bool := worker.phase = .completed || worker.phase = .released

/-- What the history keeps of a claim's answer. -/
def History.answered (history : History) (claiming : Claiming) (verdict : Verdict) : History :=
  { history with answers := history.answers ++ [⟨claiming.invocation, claiming.kind, verdict⟩] }

def History.commits (history : History) (boot : String) (live : List Nat) (store : Actions) :
    History :=
  { history with committed := history.committed ++
    [⟨boot, live, store.actions.filter fun action => action.finishedAt.isNone⟩] }

section
variable (platform : Platform)

/-- The claim's transaction commits: what it wrote is stored, and it still has to forget. -/
def commit (system : System) (claiming : Claiming) : Option System :=
  match claiming.phase with
  | .reused abandoned store saved => some { system with
      store := store
      writer := none
      forgetting := system.forgetting ++ [abandoned]
      history := (system.history.answered claiming (.reused saved.actionId)).commits
        system.owners.boot claiming.live store }
  | .fresh abandoned store actionId token => some { system with
      store := store
      writer := none
      workers := system.workers ++
        [⟨token, actionId, claiming.kind, claiming.invocation, .claimed abandoned⟩]
      history := { (system.history.answered claiming (.fresh actionId)).commits
        system.owners.boot (token :: claiming.live) store with
        granted := system.history.granted ++ [(actionId, token)] } }
  | _ => none

/-- The claim answers from its swept tables; a fresh action gets its lease before the commit. -/
def answer (system : System) (claiming : Claiming) (now : Timestamp) : Option System :=
  match claiming.phase with
  | .swept abandoned store =>
    match claiming.invocation.answer platform claiming.kind claiming.before system.owners.boot now
        store with
    | .error _ => some { system with writer := none }
    | .ok .conflict => some { system with
        writer := none, history := system.history.answered claiming .conflict }
    | .ok (.reused next saved) => some { system with
        writer := some { claiming with phase := .reused abandoned next saved } }
    | .ok (.fresh next actionId) => some { system with
        writer := some { claiming with phase := .fresh abandoned next actionId system.tokens }
        owners := system.owners.claim actionId system.tokens
        tokens := system.tokens + 1 }
  | _ => none

def step (system : System) : Event → Option System
  | .begin invocation kind before =>
    if system.writer.isSome then none else
      some { system with writer := some ⟨invocation, kind, before, system.live, .begun⟩ }
  | .sweep now => system.writer.bind fun claiming =>
    match claiming.phase with
    | .begun =>
      let abandoned := system.owners.abandoned system.live
      let store := system.store.sweep platform system.owners.boot abandoned now
      some { system with writer := some { claiming with phase := .swept abandoned store } }
    | _ => none
  | .answer now => system.writer.bind fun claiming => answer platform system claiming now
  | .commit => system.writer.bind fun claiming => commit system claiming
  | .rollback => system.writer.bind fun _ => some { system with writer := none }
  | .forget turn => system.forgetting[turn]?.bind fun ids =>
    some { system with
      owners := system.owners.forget ids, forgetting := system.forgetting.eraseIdx turn }
  | .settle token => (system.worker token).bind fun worker =>
    match worker.phase with
    | .claimed abandoned => some { system with
        owners := system.owners.forget abandoned, workers := system.become token .queued }
    | _ => none
  | .acquire token => (system.worker token).bind fun worker =>
    if worker.phase = .queued ∧ ∀ other ∈ system.workers, other.holds worker.kind.family = false then
      some { system with workers := system.become token .running }
    else none
  | .complete token status body now persisted => (system.worker token).bind fun worker =>
    let next := { system with workers := system.become token .completed }
    if worker.phase ≠ .running ∨ persisted ∧ system.writer.isSome then none
    else if persisted then
      match system.store.complete platform worker.invocation worker.actionId status body now with
      | .ok store => some { next with store := store }
      | .error _ => some next
    else some next
  | .saveAfter token after => (system.worker token).bind fun worker =>
    if worker.phase = .completed ∧ system.writer.isNone then
      some { system with store := system.store.saveAfter worker.actionId after }
    else none
  | .release token => (system.worker token).bind fun worker =>
    if worker.phase = .completed then
      some { system with workers := system.become token .released }
    else none
  | .drop token => (system.worker token).bind fun worker =>
    match worker.phase with
    | .claimed _ => none
    | _ => some { system with workers := system.workers.filter fun other => other.token ≠ token }
  | .reconcile token accountId now => (system.worker token).bind fun worker =>
    if worker.phase = .running ∧ worker.kind = .hardRefresh ∧ system.writer.isNone ∧
        (worker.invocation.accountId = none ∨
          worker.invocation.accountId = some (encode accountId)) then
      some { system with store := system.store.reconcile platform accountId now }
    else none
  | .reject kind invocation status body now =>
    if system.writer.isSome then none else
      match system.store.reject platform kind invocation status body now with
      | .ok store => some { system with store := store }
      | .error _ => some system
  | .restart boot =>
    if boot ∈ system.history.boots then none else
      some { system with
        owners := ActionOwners.new boot
        writer := none
        forgetting := []
        workers := []
        history := { system.history with boots := boot :: system.history.boots } }

/-- What each event can do, with the guards that let it. -/
inductive Stepped (system : System) : Event → System → Prop where
  | begin (invocation : Invocation) (kind : ActionKind) (before : String)
      (free : system.writer = none) :
      Stepped system (.begin invocation kind before)
        { system with writer := some ⟨invocation, kind, before, system.live, .begun⟩ }
  | sweep (claiming : Claiming) (now : Timestamp) (writes : system.writer = some claiming)
      (phase : claiming.phase = .begun) :
      Stepped system (.sweep now) { system with
        writer := some { claiming with
          phase := .swept (system.owners.abandoned system.live)
            (system.store.sweep platform system.owners.boot (system.owners.abandoned system.live)
              now) } }
  | failed (now : Timestamp) : Stepped system (.answer now) { system with writer := none }
  | conflict (claiming : Claiming) (now : Timestamp) (abandoned : List Nat) (store : Actions)
      (writes : system.writer = some claiming) (phase : claiming.phase = .swept abandoned store)
      (answered : Answers platform claiming.invocation claiming.kind claiming.before
        system.owners.boot store .conflict) :
      Stepped system (.answer now) { system with
        writer := none, history := system.history.answered claiming .conflict }
  | reused (claiming : Claiming) (now : Timestamp) (abandoned : List Nat) (store next : Actions)
      (saved : QuotaAction) (writes : system.writer = some claiming)
      (phase : claiming.phase = .swept abandoned store)
      (answered : Answers platform claiming.invocation claiming.kind claiming.before
        system.owners.boot store (.reused next saved)) :
      Stepped system (.answer now) { system with
        writer := some { claiming with phase := .reused abandoned next saved } }
  | fresh (claiming : Claiming) (now : Timestamp) (abandoned : List Nat) (store next : Actions)
      (actionId : Nat) (writes : system.writer = some claiming)
      (phase : claiming.phase = .swept abandoned store)
      (answered : Answers platform claiming.invocation claiming.kind claiming.before
        system.owners.boot store (.fresh next actionId)) :
      Stepped system (.answer now) { system with
        writer := some { claiming with phase := .fresh abandoned next actionId system.tokens }
        owners := system.owners.claim actionId system.tokens
        tokens := system.tokens + 1 }
  | commit (claiming : Claiming) (next : System) (writes : system.writer = some claiming)
      (commits : commit system claiming = some next) : Stepped system .commit next
  | rollback : Stepped system .rollback { system with writer := none }
  | forget (turn : Nat) (ids : List Nat) (waits : system.forgetting[turn]? = some ids) :
      Stepped system (.forget turn) { system with
        owners := system.owners.forget ids, forgetting := system.forgetting.eraseIdx turn }
  | settle (worker : Worker) (abandoned : List Nat) (member : worker ∈ system.workers)
      (phase : worker.phase = .claimed abandoned) :
      Stepped system (.settle worker.token) { system with
        owners := system.owners.forget abandoned, workers := system.become worker.token .queued }
  | acquire (worker : Worker) (member : worker ∈ system.workers) (phase : worker.phase = .queued) :
      Stepped system (.acquire worker.token)
        { system with workers := system.become worker.token .running }
  | completed (worker : Worker) (status : Nat) (body : String) (now : Timestamp) (store : Actions)
      (member : worker ∈ system.workers) (phase : worker.phase = .running)
      (free : system.writer = none)
      (wrote : system.store.complete platform worker.invocation worker.actionId status body now =
        .ok store) :
      Stepped system (.complete worker.token status body now true)
        { system with workers := system.become worker.token .completed, store := store }
  | lost (worker : Worker) (status : Nat) (body : String) (now : Timestamp) (persisted : Bool)
      (member : worker ∈ system.workers) (phase : worker.phase = .running) :
      Stepped system (.complete worker.token status body now persisted)
        { system with workers := system.become worker.token .completed }
  | saveAfter (worker : Worker) (after : String) (member : worker ∈ system.workers)
      (free : system.writer = none) :
      Stepped system (.saveAfter worker.token after)
        { system with store := system.store.saveAfter worker.actionId after }
  | release (worker : Worker) (member : worker ∈ system.workers) (phase : worker.phase = .completed) :
      Stepped system (.release worker.token)
        { system with workers := system.become worker.token .released }
  | drop (token : Nat) : Stepped system (.drop token)
      { system with workers := system.workers.filter fun other => other.token ≠ token }
  | reconcile (worker : Worker) (accountId : AccountId) (now : Timestamp)
      (member : worker ∈ system.workers) (free : system.writer = none) :
      Stepped system (.reconcile worker.token accountId now)
        { system with store := system.store.reconcile platform accountId now }
  | reject (kind : ActionKind) (invocation : Invocation) (status : Nat) (body : String)
      (now : Timestamp) (store : Actions) (free : system.writer = none)
      (wrote : system.store.reject platform kind invocation status body now = .ok store) :
      Stepped system (.reject kind invocation status body now) { system with store := store }
  | unrejected (kind : ActionKind) (invocation : Invocation) (status : Nat) (body : String)
      (now : Timestamp) : Stepped system (.reject kind invocation status body now) system
  | restart (boot : String) (unused : boot ∉ system.history.boots) :
      Stepped system (.restart boot) { system with
        owners := ActionOwners.new boot
        writer := none
        forgetting := []
        workers := []
        history := { system.history with boots := boot :: system.history.boots } }

theorem answered_of_answer {system next : System} {claiming : Claiming} {now : Timestamp}
    (writes : system.writer = some claiming)
    (taken : answer platform system claiming now = some next) :
    Stepped platform system (.answer now) next := by
  simp only [answer] at taken
  split at taken
  · rename_i abandoned store phase
    split at taken
    · cases taken
      exact .failed now
    · rename_i answered
      cases taken
      exact .conflict claiming now abandoned store writes phase (answers_of_answer platform answered)
    · rename_i answered
      cases taken
      exact .reused claiming now abandoned store _ _ writes phase
        (answers_of_answer platform answered)
    · rename_i answered
      cases taken
      exact .fresh claiming now abandoned store _ _ writes phase
        (answers_of_answer platform answered)
  · cases taken

theorem worker_bind {system next : System} {token : Nat} {change : Worker → Option System}
    (taken : (system.worker token).bind change = some next) :
    ∃ worker ∈ system.workers, worker.token = token ∧ change worker = some next := by
  obtain ⟨worker, found, changed⟩ := Option.bind_eq_some_iff.mp taken
  obtain ⟨member, named⟩ := lookup_mem found
  exact ⟨worker, member, named, changed⟩

theorem stepped_sweep {system next : System} {now : Timestamp}
    (taken : step platform system (.sweep now) = some next) : Stepped platform system (.sweep now) next := by
  simp only [step, Option.bind_eq_some_iff] at taken
  obtain ⟨claiming, writes, taken⟩ := taken
  split at taken
  next phase =>
    cases taken
    exact .sweep claiming now writes phase
  next => cases taken

theorem stepped_settle {system next : System} {token : Nat}
    (taken : step platform system (.settle token) = some next) : Stepped platform system (.settle token) next := by
  obtain ⟨worker, member, rfl, changed⟩ := worker_bind taken
  split at changed
  next abandoned phase =>
    cases changed
    exact .settle worker abandoned member phase
  next => cases changed

theorem stepped_complete {system next : System} {token status : Nat} {body : String} {now : Timestamp}
    {persisted : Bool} (taken : step platform system (.complete token status body now persisted) = some next) :
    Stepped platform system (.complete token status body now persisted) next := by
  obtain ⟨worker, member, rfl, changed⟩ := worker_bind taken
  simp only [Option.ite_none_left_eq_some, not_or, not_not] at changed
  obtain ⟨⟨phase, free⟩, changed⟩ := changed
  split at changed
  next persists =>
    subst persists
    split at changed
    next wrote =>
      cases changed
      exact .completed worker status body now _ member phase (by simpa using free) wrote
    next =>
      cases changed
      exact .lost worker status body now true member phase
  next =>
    cases changed
    exact .lost worker status body now persisted member phase

theorem stepped_reconcile {system next : System} {token : Nat} {accountId : AccountId} {now : Timestamp}
    (taken : step platform system (.reconcile token accountId now) = some next) :
    Stepped platform system (.reconcile token accountId now) next := by
  obtain ⟨worker, member, rfl, changed⟩ := worker_bind taken
  simp only [Option.ite_none_right_eq_some] at changed
  obtain ⟨⟨-, -, free, -⟩, changed⟩ := changed
  cases changed
  exact .reconcile worker accountId now member (by simpa using free)

theorem stepped_reject {system next : System} {kind : ActionKind} {invocation : Invocation} {status : Nat}
    {body : String} {now : Timestamp} (taken : step platform system (.reject kind invocation status body now) = some next) :
    Stepped platform system (.reject kind invocation status body now) next := by
  simp only [step, Option.ite_none_left_eq_some] at taken
  obtain ⟨free, taken⟩ := taken
  split at taken
  next wrote =>
    cases taken
    exact .reject kind invocation status body now _ (by simpa using free) wrote
  next =>
    cases taken
    exact .unrejected kind invocation status body now

theorem stepped_of_step {system next : System} {event : Event}
    (taken : step platform system event = some next) : Stepped platform system event next := by
  cases event with
  | begin invocation kind before =>
    simp only [step, Option.ite_none_left_eq_some, Option.isSome_iff_ne_none, not_not] at taken
    obtain ⟨free, taken⟩ := taken
    cases taken
    exact .begin invocation kind before free
  | sweep now => exact stepped_sweep platform taken
  | answer now =>
    obtain ⟨claiming, writes, taken⟩ := Option.bind_eq_some_iff.mp taken
    exact answered_of_answer platform writes taken
  | commit =>
    obtain ⟨claiming, writes, taken⟩ := Option.bind_eq_some_iff.mp taken
    exact .commit claiming next writes taken
  | rollback =>
    obtain ⟨claiming, -, taken⟩ := Option.bind_eq_some_iff.mp taken
    cases taken
    exact .rollback
  | forget turn =>
    obtain ⟨ids, waits, taken⟩ := Option.bind_eq_some_iff.mp taken
    cases taken
    exact .forget turn ids waits
  | settle token => exact stepped_settle platform taken
  | acquire token =>
    obtain ⟨worker, member, rfl, changed⟩ := worker_bind taken
    simp only [Option.ite_none_right_eq_some] at changed
    obtain ⟨⟨phase, -⟩, changed⟩ := changed
    cases changed
    exact .acquire worker member phase
  | complete token status body now persisted => exact stepped_complete platform taken
  | saveAfter token after =>
    obtain ⟨worker, member, rfl, changed⟩ := worker_bind taken
    simp only [Option.ite_none_right_eq_some] at changed
    obtain ⟨⟨-, free⟩, changed⟩ := changed
    cases changed
    exact .saveAfter worker after member (by simpa using free)
  | release token =>
    obtain ⟨worker, member, rfl, changed⟩ := worker_bind taken
    simp only [Option.ite_none_right_eq_some] at changed
    obtain ⟨phase, changed⟩ := changed
    cases changed
    exact .release worker member phase
  | drop token =>
    obtain ⟨worker, member, rfl, changed⟩ := worker_bind taken
    split at changed
    · cases changed
    · cases changed
      exact .drop worker.token
  | reconcile token accountId now => exact stepped_reconcile platform taken
  | reject kind invocation status body now => exact stepped_reject platform taken
  | restart boot =>
    simp only [step, Option.ite_none_left_eq_some] at taken
    obtain ⟨unused, taken⟩ := taken
    cases taken
    exact .restart boot unused

end

/-- A platform for runs at the first minute of the epoch whose bodies list nothing. -/
def firstMinute : Platform where
  display := fun instant =>
    if instant = 0 then "1970-01-01T00:00:00Z" else "1970-01-01T00:01:00Z"
  listed := fun _ => []
  sharedActions := fun _ => []
  failed := fun _ => none
  sourceFailures := fun _ => none

/-- The steps of one claim up to its commit. -/
def claimed (accountId : Option String) (kind : ActionKind) (key : Option String) : List Event :=
  [.begin ⟨accountId, none, "dashboard", seconds 60, "admin", "session", key⟩ kind "{}",
    .sweep (seconds 60), .answer (seconds 60), .commit]

end MeteredUsage.QuotaActions.Service

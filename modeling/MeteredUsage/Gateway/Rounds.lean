import MeteredUsage.Gateway.Reported
import MeteredUsage.Gateway.ResetGrants
import MeteredUsage.Gateway.Spending
import MeteredUsage.Store.Backoff

/-! Hard refreshes and spends call by call: every request an adapter sends, every answer it gets and
every write that follows, under the lock they share. The log keeps what went out and what was
stored; the rest of the service writes beside it. -/

namespace MeteredUsage.Gateway.Rounds
open MeteredUsage.Values MeteredUsage.Store MeteredUsage.Store.Schema MeteredUsage.Store.Credentials
open MeteredUsage.Store.Quota MeteredUsage.Store.Validity MeteredUsage.Store.Commands
open MeteredUsage.Store.Statements MeteredUsage.Store.Upkeep MeteredUsage.Store.Registered
open MeteredUsage.Library.Interaction MeteredUsage.Library.Transaction
open MeteredUsage.Library.Untouched
open MeteredUsage.Gateway.Adapters
open MeteredUsage.Gateway.Spending (Config Target Resolves sources sourceOf listed targets choose indexOf
  unexpiredCount isOpen stays_open answered_of_listed)

/-- A credential's fetch under way. -/
structure Fetching where
  target : Target
  course : Course Answer (Except RefreshError Observation)

/-- A hard refresh: the sources it has still to list, the fetches of one source it has still to begin
and those it polls. -/
structure Round where
  only : Option AccountId
  automatic : Bool
  rest : List SourceId
  waiting : List Target
  running : List Fetching

/-- What holds `manual_reset_lock`. -/
inductive Work where
  | idle
  | refreshing (round : Round)
  /-- A spend has still to list the source of its account. -/
  | listing (accountId : AccountId) (source : SourceId)
  | chosen (target : Target)
  | counted (target : Target)
  /-- The stored grants are cleared. -/
  | consuming (target : Target) (course : Course Answer (Except RefreshError Unit))
  | following (fetching : Fetching)

inductive Logged where
  /-- The deadline of the account was claimed. -/
  | due (accountId : AccountId)
  | listed (source : SourceId) (listing : AuthFiles)
  | asked (target : Target) (question : Question)
  | told (target : Target) (reply : Reply Answer)
  | stored (accountId : AccountId) (grants : List Grant)
  | counted (accountId : AccountId) (now : Timestamp)
  | cleared (accountId : AccountId)
  /-- A consume call goes out, beside what is stored of the account's grants. -/
  | spent (target : Target) (question : Question) (left : List Credit)

/-- The service with its log, the last entry first, and the accounts whose deadlines were claimed. -/
structure Service where
  tables : Tables
  work : Work
  due : List AccountId
  log : List Logged

def Service.start (tables : Tables) : Service := ⟨tables, .idle, [], []⟩

/-- `HARD_REFRESH_CONCURRENCY`. -/
def concurrency : Nat := 4

inductive Event where
  /-- A write that does not wait for the lock. -/
  | write (command : Command) (world : World)
  /-- `Recovery::claim_due`, before an automatic refresh. -/
  | recover (accountId : AccountId) (now : Timestamp) (world : World)
  | refresh (only : Option AccountId) (automatic : Bool)
  /-- The next source of a refresh answers its credential list, which is stored. -/
  | list (listing : AuthFiles) (shared : AccountId → Bool) (world : World)
  | unreachable
  /-- The refresh begins to poll one more fetch. -/
  | begin
  | ask (index : Nat)
  | hear (index : Nat) (answers : ∀ question, Answer question)
  | record (index : Nat) (refreshedAt : Timestamp) (world : World)
  | spend (accountId : AccountId)
  | choose (listing : AuthFiles) (world : World)
  | count (now : Timestamp)
  | clear (redeemRequest : String) (world : World)
  | consume
  | confirm (answers : ∀ question, Answer question)
  /-- The consume call is confirmed, and CLIProxy is asked to end the credential's cooldown. -/
  | cool (outcome : Except ManagementError Unit)
  | askAfter
  | hearAfter (answers : ∀ question, Answer question)
  | recordAfter (refreshedAt : Timestamp) (world : World)
  /-- The lock is let go of: at the end, on an error, or as the task or the process dies. -/
  | stop

/-- The writes beside the lock: accounts are registered and merged, credentials listed, and markers
expire. -/
def isBeside : Command → Bool
  | .expire _ => true
  | command => isOpen command

/-- The grants a recorded refresh stores. -/
def stores : Except RefreshError Observation → Option (List Grant)
  | .ok ⟨_, _, .reported grants⟩ => some grants
  | _ => none

/-- What is stored of the account's grants. -/
def creditsOf (tables : Tables) (accountId : AccountId) : List Credit :=
  tables.credits.filter (·.accountId = accountId)

variable (config : Config) (runtime : Sql.Runtime) (reading : Reading)

def fetching (target : Target) : Fetching :=
  ⟨target, .start (fetch runtime reading target.provider target.file (indexOf target.file)).run⟩

/-- `record`, of what a fetch came to. -/
def recorded (service : Service) (target : Target) (result : Except RefreshError Observation)
    (refreshedAt : Timestamp) (world : World) : Option Service := do
  let next ← Commands.step runtime service.tables
    (.recordRefresh target.accountId result refreshedAt, world)
  return { service with
    tables := next
    log := (stores result).elim service.log fun grants => .stored target.accountId grants :: service.log }

def step (service : Service) : Event → Option Service
  | .write command world =>
    if isBeside command then
      (Commands.step runtime service.tables (command, world)).map fun next => { service with tables := next }
    else none
  | .recover accountId now world =>
    let (due, next) := Backoff.claimed runtime service.tables accountId now world
    if due = some true then some { service with
      tables := next, due := accountId :: service.due, log := .due accountId :: service.log }
    else some { service with tables := next }
  | .refresh only automatic =>
    match service.work with
    | .idle =>
      if automatic && !only.any (· ∈ service.due) then none
      else (sourceOf service.tables only).map fun source => { service with
        work := .refreshing ⟨only, automatic, sources config service.tables source, [], []⟩ }
    | _ => none
  | .list listing shared world =>
    match service.work with
    | .refreshing ⟨only, automatic, source :: rest, [], []⟩ =>
      (listed runtime source listing world service.tables).map fun answer =>
        { service with
          tables := answer.2
          log := .listed source listing :: service.log
          work := .refreshing ⟨only, automatic, rest, targets source only automatic shared answer.1, []⟩ }
    | _ => none
  | .unreachable =>
    match service.work with
    | .refreshing ⟨none, automatic, _ :: rest, [], []⟩ =>
      some { service with work := .refreshing ⟨none, automatic, rest, [], []⟩ }
    | _ => none
  | .begin =>
    match service.work with
    | .refreshing ⟨only, automatic, rest, target :: waiting, running⟩ =>
      if running.length < concurrency then some { service with
        work := .refreshing ⟨only, automatic, rest, waiting, running ++ [fetching runtime reading target]⟩ }
      else none
    | _ => none
  | .ask index =>
    match service.work with
    | .refreshing round => do
      let under ← round.running[index]?
      let (question, course) ← under.course.send
      return { service with
        log := .asked under.target question :: service.log
        work := .refreshing { round with running := round.running.set index ⟨under.target, course⟩ } }
    | _ => none
  | .hear index answers =>
    match service.work with
    | .refreshing round => do
      let under ← round.running[index]?
      let (reply, course) ← under.course.hear answers
      return { service with
        log := .told under.target reply :: service.log
        work := .refreshing { round with running := round.running.set index ⟨under.target, course⟩ } }
    | _ => none
  | .record index refreshedAt world =>
    match service.work with
    | .refreshing round => do
      let under ← round.running[index]?
      let result ← under.course.value
      let after ← recorded runtime service under.target result refreshedAt world
      return { after with work := .refreshing { round with running := round.running.eraseIdx index } }
    | _ => none
  | .spend accountId =>
    match service.work with
    | .idle => do
      let account ← Snapshots.accountOf service.tables accountId
      let source ← (sources config service.tables (some account.sourceId)).head?
      return { service with work := .listing accountId source }
    | _ => none
  | .choose listing world =>
    match service.work with
    | .listing accountId source =>
      (listed runtime source listing world service.tables).map fun answer =>
        { service with
          tables := answer.2
          log := .listed source listing :: service.log
          work := match choose source accountId answer.1 with
            | .chosen target => .chosen target
            | _ => .idle }
    | _ => none
  | .count now =>
    match service.work with
    | .chosen target => some { service with
        log := .counted target.accountId now :: service.log
        work := if unexpiredCount service.tables target.accountId now = 0 then .idle else .counted target }
    | _ => none
  | .clear redeemRequest world =>
    match service.work with
    | .counted target =>
      (Commands.step runtime service.tables (.clear target.accountId, world)).map fun next =>
        { service with
          tables := next
          log := .cleared target.accountId :: service.log
          work := .consuming target
            (.start (reset runtime target.provider redeemRequest (indexOf target.file)).run) }
    | _ => none
  | .consume =>
    match service.work with
    | .consuming target course => course.send.map fun sent =>
        { service with
          log := .spent target sent.1 (creditsOf service.tables target.accountId) :: service.log
          work := .consuming target sent.2 }
    | _ => none
  | .confirm answers =>
    match service.work with
    | .consuming target course => (course.hear answers).map fun heard =>
        { service with
          log := .told target heard.1 :: service.log
          work := .consuming target heard.2 }
    | _ => none
  | .cool outcome =>
    match service.work with
    | .consuming target course =>
      match course.value with
      | some (.ok ()) => some { service with
          work := .following (match outcome with
            | .ok () => fetching runtime reading target
            | .error error => ⟨target, .start (.done (.error (.management error)))⟩) }
      | _ => none
    | _ => none
  | .askAfter =>
    match service.work with
    | .following under => under.course.send.map fun sent =>
        { service with
          log := .asked under.target sent.1 :: service.log
          work := .following ⟨under.target, sent.2⟩ }
    | _ => none
  | .hearAfter answers =>
    match service.work with
    | .following under => (under.course.hear answers).map fun heard =>
        { service with
          log := .told under.target heard.1 :: service.log
          work := .following ⟨under.target, heard.2⟩ }
    | _ => none
  | .recordAfter refreshedAt world =>
    match service.work with
    | .following under => do
      let result ← under.course.value
      let after ← recorded runtime service under.target result refreshedAt world
      return { after with work := .idle }
    | _ => none
  | .stop => some { service with work := .idle }

section Steps
variable {config : Config} {runtime : Sql.Runtime} {reading : Reading} {service after : Service} {index : Nat}

/-- A claim is logged where it found the deadline due. -/
theorem step_recover {accountId : AccountId} {now : Timestamp} {world : World}
    (taken : step config runtime reading service (.recover accountId now world) = some after) :
    ∃ next, next = (Backoff.claimed runtime service.tables accountId now world).2 ∧
      (after = { service with
          tables := next, due := accountId :: service.due, log := .due accountId :: service.log } ∨
        after = { service with tables := next }) := by
  simp only [step] at taken
  refine ⟨_, rfl, ?_⟩
  split at taken
  next => exact .inl (Option.some.inj taken).symm
  next => exact .inr (Option.some.inj taken).symm

theorem step_refresh {only : Option AccountId} {automatic : Bool}
    (taken : step config runtime reading service (.refresh only automatic) = some after) :
    ¬(automatic && !only.any (· ∈ service.due)) = true ∧ ∃ source,
      after = { service with
        work := .refreshing ⟨only, automatic, sources config service.tables source, [], []⟩ } := by
  simp only [step] at taken
  split at taken
  next =>
    obtain ⟨claimed, taken⟩ := Option.ite_none_left_eq_some.mp taken
    obtain ⟨source, _, same⟩ := Option.map_eq_some_iff.mp taken
    exact ⟨claimed, source, same.symm⟩
  next => cases taken

theorem step_list {listing : AuthFiles} {shared : AccountId → Bool} {world : World}
    (taken : step config runtime reading service (.list listing shared world) = some after) :
    ∃ only automatic source rest stored next,
      service.work = .refreshing ⟨only, automatic, source :: rest, [], []⟩ ∧
      listed runtime source listing world service.tables = some (stored, next) ∧
      after = { service with
        tables := next
        log := .listed source listing :: service.log
        work := .refreshing ⟨only, automatic, rest, targets source only automatic shared stored, []⟩ } := by
  simp only [step] at taken
  split at taken
  next only automatic source rest under =>
    obtain ⟨⟨stored, next⟩, answer, same⟩ := Option.map_eq_some_iff.mp taken
    exact ⟨only, automatic, source, rest, stored, next, under, answer, same.symm⟩
  next => cases taken

theorem step_unreachable (taken : step config runtime reading service .unreachable = some after) :
    ∃ automatic source rest, service.work = .refreshing ⟨none, automatic, source :: rest, [], []⟩ ∧
      after = { service with work := .refreshing ⟨none, automatic, rest, [], []⟩ } := by
  simp only [step] at taken
  split at taken
  next automatic source rest under => exact ⟨automatic, source, rest, under, (Option.some.inj taken).symm⟩
  next => cases taken

theorem step_begin (taken : step config runtime reading service .begin = some after) :
    ∃ only automatic rest target waiting running,
      service.work = .refreshing ⟨only, automatic, rest, target :: waiting, running⟩ ∧
      after = { service with
        work := .refreshing ⟨only, automatic, rest, waiting, running ++ [fetching runtime reading target]⟩ } := by
  simp only [step] at taken
  split at taken
  next only automatic rest target waiting running under =>
    obtain ⟨_, taken⟩ := Option.ite_none_right_eq_some.mp taken
    exact ⟨only, automatic, rest, target, waiting, running, under, (Option.some.inj taken).symm⟩
  next => cases taken

/-- A fetch that is polled sends its next request. -/
theorem step_ask (taken : step config runtime reading service (.ask index) = some after) :
    ∃ round under question course, service.work = .refreshing round ∧ under ∈ round.running ∧
      under.course.send = some (question, course) ∧
      after = { service with
        log := .asked under.target question :: service.log
        work := .refreshing { round with running := round.running.set index ⟨under.target, course⟩ } } := by
  simp only [step] at taken
  split at taken
  next round refreshing =>
    obtain ⟨under, found, taken⟩ := Option.bind_eq_some_iff.mp taken
    obtain ⟨⟨question, course⟩, sent, same⟩ := Option.bind_eq_some_iff.mp taken
    exact ⟨round, under, question, course, refreshing, List.mem_of_getElem? found, sent, (Option.some.inj same).symm⟩
  next => cases taken

theorem step_hear {answers : ∀ question, Answer question}
    (taken : step config runtime reading service (.hear index answers) = some after) :
    ∃ round under reply course, service.work = .refreshing round ∧ under ∈ round.running ∧
      under.course.hear answers = some (reply, course) ∧
      after = { service with
        log := .told under.target reply :: service.log
        work := .refreshing { round with running := round.running.set index ⟨under.target, course⟩ } } := by
  simp only [step] at taken
  split at taken
  next round refreshing =>
    obtain ⟨under, found, taken⟩ := Option.bind_eq_some_iff.mp taken
    obtain ⟨⟨reply, course⟩, heard, same⟩ := Option.bind_eq_some_iff.mp taken
    exact ⟨round, under, reply, course, refreshing, List.mem_of_getElem? found, heard, (Option.some.inj same).symm⟩
  next => cases taken

theorem step_record {refreshedAt : Timestamp} {world : World}
    (taken : step config runtime reading service (.record index refreshedAt world) = some after) :
    ∃ round under result next, service.work = .refreshing round ∧ under ∈ round.running ∧
      under.course.value = some result ∧
      recorded runtime service under.target result refreshedAt world = some next ∧
      after = { next with work := .refreshing { round with running := round.running.eraseIdx index } } := by
  simp only [step] at taken
  split at taken
  next round refreshing =>
    obtain ⟨under, found, taken⟩ := Option.bind_eq_some_iff.mp taken
    obtain ⟨result, came, taken⟩ := Option.bind_eq_some_iff.mp taken
    obtain ⟨next, kept, same⟩ := Option.bind_eq_some_iff.mp taken
    exact ⟨round, under, result, next, refreshing, List.mem_of_getElem? found, came, kept,
      (Option.some.inj same).symm⟩
  next => cases taken

end Steps

section Writes
variable {runtime : Sql.Runtime} {service after : Service} {tables next : Tables} {accountId : AccountId}

/-- A claim touches nothing but the deadlines. -/
theorem holds_claim (accountId : AccountId) (now : Timestamp) :
    Leaves (fun tables : Tables => { tables with recoveries := [] })
      (Recovery.claimDue runtime accountId now) := by
  have later (delay : Int) : Leaves (fun tables : Tables => { tables with recoveries := [] })
      (Recovery.later runtime now delay) :=
    (Leaves.refuseIf _ _).bind fun _ => .pure _
  unfold Recovery.claimDue
  apply (Leaves.query _).bind
  intro credential
  split
  next =>
    apply (later _).bind
    intro first
    have inserted (row : Schema.Recovery) : Leaves (fun tables : Tables => { tables with recoveries := [] })
        (execute (Recovery.insertRecovery row)) := by
      apply Leaves.update
      intro data
      unfold Recovery.insertRecovery
      split <;> rfl
    apply (inserted _).bind
    intro _
    apply (Leaves.query _).bind
    intro recovery
    apply (Leaves.require _ _).bind
    intro recovery
    split
    next =>
      apply (later _).bind
      intro next
      refine Leaves.bind (fun shown => holds_attempt fun tables value next same taken => ?_) fun _ =>
        .commit _ _
      unfold Recovery.updateRecovery at taken
      split at taken <;> cases taken
      exact same
    next => exact .commit _ _
  next => exact .pure _

theorem claimed_eq (runtime : Sql.Runtime) (tables : Tables) (accountId : AccountId) (now : Timestamp)
    (world : World) : ∃ recoveries,
      (Backoff.claimed runtime tables accountId now world).2 = { tables with recoveries := recoveries } := by
  unfold Backoff.claimed
  split
  next due next ran =>
    have kept := (@holds_claim runtime accountId now { tables with recoveries := [] }).transact rfl ran
    exact ⟨next.recoveries, congrArg (fun rest : Tables => { rest with recoveries := next.recoveries }) kept⟩
  next outcome next uncommitted ran =>
    have kept : next = tables := by
      have unchanged := @transact_unchanged _ _ _ (Recovery.claimDue runtime accountId now) (world.session tables)
        fun due same => by
          rw [ran] at same
          exact uncommitted due same
      rwa [ran] at unchanged
    exact ⟨tables.recoveries, kept⟩

theorem stays_recover (valid : Valid False tables) (accountId : AccountId) (now : Timestamp) (world : World) :
    Stays False id tables (Backoff.claimed runtime tables accountId now world).2 := by
  obtain ⟨recoveries, same⟩ := claimed_eq runtime tables accountId now world
  rw [same]
  exact ⟨valid.recoveries recoveries, fun account member => ⟨account, member, rfl, rfl⟩, .refl _,
    fun _ _ _ owned => owned, rfl⟩

theorem stays_expire {now : Timestamp} {world : World} (valid : Valid False tables)
    (taken : Commands.step runtime tables (.expire now, world) = some next) : Stays False id tables next := by
  obtain ⟨_, expired⟩ := performed_holds (holds_expire valid now) rfl (step_iff.mp taken)
  have later := valid_expired valid expired
  obtain ⟨entries, rfl, _⟩ := expired
  exact ⟨later, fun account member => ⟨account, member, rfl, rfl⟩, .refl _, fun _ _ _ owned => owned, rfl⟩

/-- Every write beside the lock leaves the grants. -/
theorem stays_beside {command : Command} {world : World} (valid : Valid False tables)
    (admitted : isBeside command = true)
    (taken : Commands.step runtime tables (command, world) = some next) :
    ∃ move, Stays False move tables next := by
  cases command with
  | expire now => exact ⟨id, stays_expire valid taken⟩
  | ingest source records => exact stays_open valid rfl taken
  | merge old into requires => exact stays_open valid rfl taken
  | store source listing => exact stays_open valid rfl taken
  | _ => cases admitted

/-- What recording a fetch leaves of the accounts and the grants. -/
theorem recorded_eq {target : Target} {result : Except RefreshError Observation} {refreshedAt : Timestamp}
    {world : World} (valid : Valid False service.tables)
    (taken : recorded runtime service target result refreshedAt world = some after) :
    Valid False after.tables ∧ after.tables.accounts = service.tables.accounts ∧
      after.work = service.work ∧ after.due = service.due ∧
      ((∃ grants, stores result = some grants ∧
          after.log = .stored target.accountId grants :: service.log ∧
          after.tables.credits = service.tables.credits.filter (·.accountId ≠ target.accountId) ++
            grants.map (⟨target.accountId, ·⟩)) ∨
        after.log = service.log ∧ ∀ credit ∈ after.tables.credits, credit ∈ service.tables.credits) := by
  obtain ⟨next, performed, same⟩ := Option.bind_eq_some_iff.mp taken
  obtain rfl := (Option.some.inj same).symm
  obtain ⟨_, granted⟩ :=
    performed_holds (Registered.holds_recordRefresh result refreshedAt) rfl (step_iff.mp performed)
  refine ⟨Merged.valid_step valid False.elim performed, granted.accounts, rfl, rfl, ?_⟩
  have kept (unread : reports result = false) : ∀ credit ∈ next.credits, credit ∈ service.tables.credits := by
    intro credit member
    rcases granted.credits credit member with earlier | ⟨read, _⟩
    · exact earlier
    · rw [unread] at read
      cases read
  cases result with
  | error failure => exact .inr ⟨rfl, kept rfl⟩
  | ok observation =>
    obtain ⟨windows, plan, resets⟩ := observation
    cases resets with
    | unchanged => exact .inr ⟨rfl, kept rfl⟩
    | reported grants =>
      obtain ⟨_, stored⟩ := performed_holds (ResetGrants.holds_recordRefresh target.accountId _ refreshedAt
        service.tables) rfl (step_iff.mp performed)
      exact .inl ⟨grants, rfl, rfl, stored.credits⟩

end Writes

end MeteredUsage.Gateway.Rounds

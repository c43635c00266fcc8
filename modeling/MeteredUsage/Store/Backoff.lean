import MeteredUsage.Store.Deadlines

/-! How often an account is read to recover its expired sign-in, over every run of reservations,
writes and restarts. -/

namespace MeteredUsage.Store.Backoff
open MeteredUsage.Values MeteredUsage.Store.Schema MeteredUsage.Store.Commands
open MeteredUsage.Store.Recovery MeteredUsage.Store.Deadlines
open MeteredUsage.Library.Transaction MeteredUsage.Library.Execution

/-- The stored tables, and what happened to one account since its last successful observation. -/
structure History where
  tables : Tables
  /-- When the account was last asked about, before or after that observation. -/
  latest : Option Timestamp
  /-- When it was first asked about since. -/
  asked : Option Timestamp
  /-- When it was answered to be due since, the last answer first. -/
  dues : List Timestamp

def History.start (tables : Tables) : History := ⟨tables, none, none, []⟩

inductive Action where
  /-- A call whose answer is lost where the process stops after the commit. -/
  | claim (id : AccountId) (now : Timestamp) (world : World) (heard : Bool)
  | write (command : Command) (world : World)
  /-- Nothing but the tables outlives the process. -/
  | restart

/-- What a call answers where it commits, and the tables after it. -/
def claimed (runtime : Sql.Runtime) (tables : Tables) (id : AccountId) (now : Timestamp)
    (world : World) : Option Bool × Tables :=
  match transact (claimDue runtime id now) (world.session tables) with
  | (.ok (.committed due), after) => (some due, after)
  | (_, after) => (none, after)

def step (runtime : Sql.Runtime) (id : AccountId) (history : History) : Action → Option History
  | .claim other now world heard =>
    let (answer, tables) := claimed runtime history.tables other now world
    if other = id then
      some { tables
             latest := some now
             asked := history.asked.or (some now)
             dues := if answer = some true ∧ heard then now :: history.dues else history.dues }
    else some { history with tables }
  | .write command world =>
    let (landed, tables) := perform runtime history.tables world command
    if landed ∧ observedBy command = some id then some { history with tables, asked := none, dues := [] }
    else some { history with tables }
  | .restart => some history

/-- The account's calls come in the order of their instants. -/
def InOrder (id : AccountId) (history : History) : Action → Prop
  | .claim other now _ _ => other = id → ∀ earlier, history.latest = some earlier → earlier ≤ now
  | _ => True

/-- The seconds after the first due answers of this many until the next. -/
def wait (answered : Nat) : Int := min (180 * 2 ^ answered) 21600

/-- The instant is late enough for the answer after these. -/
def Follows (asked : Option Timestamp) (dues : List Timestamp) (instant : Timestamp) : Prop :=
  match dues with
  | [] => ∀ first, asked = some first → first + seconds 180 ≤ instant
  | last :: earlier => last + seconds (wait (earlier.length + 1)) ≤ instant

/-- Every due answer is late enough after those before it. -/
def Spaced (asked : Option Timestamp) : List Timestamp → Prop
  | [] => True
  | due :: earlier => Follows asked earlier due ∧ Spaced asked earlier

/-- The count of a stored row, and the shift and the product the next reservation computes. -/
structure Bounded (attempts : Nat) : Prop where
  few : attempts ≤ 8
  shift : min (attempts + 1) maxAttempts < 64 ∧ (2 : Int) ^ min (attempts + 1) maxAttempts < 2 ^ 63
  product : initialDelay * 2 ^ min (attempts + 1) maxAttempts < 2 ^ 63

/-- An account is read no more often than its backoff allows. -/
structure BacksOff (id : AccountId) (history : History) : Prop where
  asked : history.dues ≠ [] → history.asked.isSome
  spaced : Spaced history.asked history.dues
  bounded : ∀ row, recoveryOf id history.tables = some row → Bounded row.attempts

/-- An action is a successful observation of the account, which is committed. -/
def Observed (runtime : Sql.Runtime) (id : AccountId) (history : History) : Action → Prop
  | .write command world =>
    (perform runtime history.tables world command).1 = true ∧ observedBy command = some id
  | _ => False

variable {runtime : Sql.Runtime} {id : AccountId} {history next : History} {tables : Tables}

theorem wait_le {answered attempts : Nat} (counted : min answered maxAttempts ≤ attempts) :
    wait answered ≤ backoff attempts := by
  have doubled : wait answered ≤ backoff (min answered maxAttempts) := by
    unfold wait backoff
    rcases le_total answered maxAttempts with short | long
    · rw [min_eq_left short]
      rfl
    · rw [min_eq_right long]
      exact (min_le_right _ _).trans (by decide)
  have more : backoff (min answered maxAttempts) ≤ backoff attempts := by
    apply min_le_min_right
    have powers : (2 : Int) ^ min answered maxAttempts ≤ 2 ^ attempts :=
      pow_le_pow_right₀ (by decide) counted
    exact mul_le_mul_of_nonneg_left powers (by decide)
  exact doubled.trans more

theorem bounded_of_le {attempts : Nat} (few : attempts ≤ 8) : Bounded attempts := by
  have counted : min (attempts + 1) maxAttempts ≤ 8 := min_le_right _ _
  have shifted : (2 : Int) ^ min (attempts + 1) maxAttempts ≤ 2 ^ 8 :=
    pow_le_pow_right₀ (by decide) counted
  refine ⟨few, ⟨by omega, by omega⟩, ?_⟩
  unfold initialDelay
  omega

theorem Follows.mono {asked : Option Timestamp} {dues : List Timestamp} {instant later : Timestamp}
    (follows : Follows asked dues instant) (after : instant ≤ later) : Follows asked dues later := by
  cases dues with
  | nil => exact fun first same => (follows first same).trans after
  | cons last earlier => exact le_trans follows after

/-- The deadline is late enough for the next answer, and counts at least the answers given. -/
structure Deadline (history : History) (row : Recovery) : Prop where
  counted : min history.dues.length maxAttempts ≤ row.attempts
  few : row.attempts ≤ 8
  asked : history.asked.isSome
  follows : Follows history.asked history.dues row.nextAttemptAt

structure Backed (id : AccountId) (history : History) : Prop where
  ordered : ∀ first, history.asked = some first → ∃ last, history.latest = some last ∧ first ≤ last
  spaced : Spaced history.asked history.dues
  unasked : recoveryOf id history.tables = none → history.dues = []
  deadline : ∀ row, recoveryOf id history.tables = some row → Deadline history row

theorem claimed_cases (runtime : Sql.Runtime) (tables : Tables) (id : AccountId) (now : Timestamp)
    (world : World) :
    claimed runtime tables id now world = (none, tables) ∨
      ∃ due after, claimed runtime tables id now world = (some due, after) ∧
        Claimed id now tables due after := by
  unfold claimed
  split
  next due after ran =>
    have kept : OnClaim (Claimed id now tables) (.committed due) after :=
      (holds_claimDue id now).transact rfl ran
    exact .inr ⟨due, after, rfl, kept⟩
  next outcome after uncommitted ran =>
    have kept : (transact (claimDue runtime id now) (world.session tables)).2 = tables :=
      transact_unchanged fun value same => uncommitted value (by rw [ran] at same; exact same)
    rw [ran] at kept
    exact .inl (congrArg (Prod.mk none) kept)

/-- Only the account's own row matters. -/
theorem Backed.beside (backed : Backed id history)
    (same : recoveryOf id tables = recoveryOf id history.tables) :
    Backed id { history with tables := tables } where
  ordered := backed.ordered
  spaced := backed.spaced
  unasked missing := backed.unasked (same.symm.trans missing)
  deadline row stored :=
    have kept := backed.deadline row (same.symm.trans stored)
    ⟨kept.counted, kept.few, kept.asked, kept.follows⟩

/-- The account's history once it is asked about. -/
def asking (history : History) (now : Timestamp) : History :=
  { history with latest := some now, asked := history.asked.or (some now) }

theorem ordered_asking (backed : Backed id history) {now : Timestamp}
    (inOrder : ∀ earlier, history.latest = some earlier → earlier ≤ now) {first : Timestamp}
    (asked : (asking history now).asked = some first) : first ≤ now := by
  unfold asking at asked
  cases before : history.asked with
  | none =>
    rw [before] at asked
    exact (Option.some.inj asked).ge
  | some earlier =>
    rw [before] at asked
    obtain rfl := Option.some.inj asked
    obtain ⟨last, latest, order⟩ := backed.ordered _ before
    exact order.trans (inOrder last latest)

/-- The row a call looks at is late enough for the next answer. -/
theorem deadline_consulted (backed : Backed id history) {now : Timestamp}
    (inOrder : ∀ earlier, history.latest = some earlier → earlier ≤ now) :
    Deadline (asking history now) (consulted id now history.tables) := by
  unfold consulted
  cases stored : recoveryOf id history.tables with
  | none =>
    have unanswered : (asking history now).dues = [] := backed.unasked stored
    refine ⟨?_, Nat.zero_le 8, by simp [asking], ?_⟩
    · rw [unanswered]
      exact Nat.zero_le _
    · rw [unanswered]
      intro first asked
      exact add_le_add_left (ordered_asking backed inOrder asked) _
  | some row =>
    have deadline := backed.deadline row stored
    have same : (asking history now).asked = history.asked := Option.or_of_isSome deadline.asked
    exact ⟨deadline.counted, deadline.few, same ▸ deadline.asked, same ▸ deadline.follows⟩

theorem spaced_asking (backed : Backed id history) (now : Timestamp) :
    Spaced (asking history now).asked history.dues := by
  cases stored : recoveryOf id history.tables with
  | none =>
    rw [backed.unasked stored]
    trivial
  | some row =>
    have same : (asking history now).asked = history.asked :=
      Option.or_of_isSome (backed.deadline row stored).asked
    rw [same]
    exact backed.spaced

/-- A due answer that is heard joins the others. -/
def answered (now : Timestamp) (heard : Bool) (history : History) : History :=
  { history with dues := if heard then now :: history.dues else history.dues }

/-- A reservation waits long enough for the answer after it. -/
theorem deadline_reserved {row : Recovery} {now : Timestamp} (deadline : Deadline history row)
    (due : row.nextAttemptAt ≤ now) (heard : Bool) :
    Deadline (answered now heard history) (reserved now row) := by
  have counted : min (history.dues.length + 1) maxAttempts ≤ min (row.attempts + 1) maxAttempts := by
    have before := deadline.counted
    omega
  have waits : 0 ≤ backoff (min (row.attempts + 1) maxAttempts) :=
    le_min (mul_nonneg (by decide) (pow_nonneg (by decide) _)) (by decide)
  have later : row.nextAttemptAt ≤ now + seconds (backoff (min (row.attempts + 1) maxAttempts)) :=
    le_add_of_le_of_nonneg due (mul_nonneg waits (by decide))
  cases heard with
  | false =>
    exact ⟨(min_le_min_right _ (Nat.le_succ _)).trans counted, min_le_right _ _, deadline.asked,
      deadline.follows.mono later⟩
  | true =>
    refine ⟨counted, min_le_right _ _, deadline.asked, ?_⟩
    have waited : seconds (wait (history.dues.length + 1)) ≤
        seconds (backoff (min (row.attempts + 1) maxAttempts)) :=
      mul_le_mul_of_nonneg_right (wait_le counted) (by decide)
    exact add_le_add_right waited now

theorem spaced_answered {row : Recovery} {now : Timestamp} (deadline : Deadline history row)
    (due : row.nextAttemptAt ≤ now) (spaced : Spaced history.asked history.dues) (heard : Bool) :
    Spaced (answered now heard history).asked (answered now heard history).dues := by
  cases heard with
  | false => exact spaced
  | true => exact ⟨deadline.follows.mono due, spaced⟩

/-- What a call of the account leaves. -/
theorem backed_claimed (backed : Backed id history) {now : Timestamp}
    (inOrder : ∀ earlier, history.latest = some earlier → earlier ≤ now) {due : Bool}
    (left : Claimed id now history.tables due tables) (heard : Bool) :
    Backed id { answered now (due && heard) (asking history now) with tables := tables } := by
  have deadline := deadline_consulted backed inOrder
  have spaced := spaced_asking backed now
  have ordered : ∀ first, (asking history now).asked = some first →
      ∃ last, some now = some last ∧ first ≤ last := fun first asked =>
    ⟨now, rfl, ordered_asking backed inOrder asked⟩
  have present : recoveryOf id tables ≠ none := by
    rw [left.row]
    exact Option.some_ne_none _
  cases due with
  | false =>
    refine ⟨ordered, spaced, fun missing => absurd missing present, fun row stored => ?_⟩
    obtain rfl := Option.some.inj (left.row.symm.trans stored)
    exact ⟨deadline.counted, deadline.few, deadline.asked, deadline.follows⟩
  | true =>
    have reached := of_decide_eq_true left.answer.symm
    refine ⟨ordered, spaced_answered deadline reached spaced heard,
      fun missing => absurd missing present, fun row stored => ?_⟩
    obtain rfl := Option.some.inj (left.row.symm.trans stored)
    have kept := deadline_reserved deadline reached heard
    exact ⟨kept.counted, kept.few, kept.asked, kept.follows⟩

/-- A call of the account that did not commit. -/
theorem backed_asking (backed : Backed id history) {now : Timestamp}
    (inOrder : ∀ earlier, history.latest = some earlier → earlier ≤ now) :
    Backed id (asking history now) where
  ordered first asked := ⟨now, rfl, ordered_asking backed inOrder asked⟩
  spaced := spaced_asking backed now
  unasked := backed.unasked
  deadline row stored := by
    have deadline := deadline_consulted backed inOrder
    have consults : consulted id now history.tables = row :=
      congrArg (fun found => Option.getD found _) stored
    exact consults ▸ deadline

theorem backed_step {action : Action} (backed : Backed id history)
    (inOrder : InOrder id history action) (taken : step runtime id history action = some next) :
    Backed id next := by
  cases action with
  | claim other now world heard =>
    rcases claimed_cases runtime history.tables other now world with failed | ⟨due, after, ran, left⟩
    · simp only [step, failed] at taken
      split at taken
      next same =>
        cases taken
        exact backed_asking backed (inOrder same)
      next =>
        cases taken
        exact backed
    · simp only [step, ran] at taken
      split at taken
      next same =>
        subst same
        have kept := backed_claimed backed (inOrder rfl) left heard
        cases taken
        cases due <;> cases heard <;> exact kept
      next apart =>
        cases taken
        exact backed.beside (left.others id (Ne.symm apart))
  | write command world =>
    simp only [step] at taken
    split at taken
    next observed =>
      cases taken
      have gone : recoveryOf id (perform runtime history.tables world command).2 = _ :=
        recoveryOf_step (Prod.ext observed.1 rfl)
      rw [if_pos observed.2] at gone
      refine ⟨nofun, trivial, fun _ => rfl, fun row stored => ?_⟩
      rw [gone] at stored
      cases stored
    next unobserved =>
      cases taken
      apply backed.beside
      cases landed : (perform runtime history.tables world command).1 with
      | false => rw [perform_unchanged landed]
      | true =>
        have kept : recoveryOf id (perform runtime history.tables world command).2 = _ :=
          recoveryOf_step (Prod.ext landed rfl)
        rwa [if_neg fun observed => unobserved ⟨landed, observed⟩] at kept
  | restart =>
    cases taken
    exact backed

theorem backed_start (fresh : recoveryOf id tables = none) : Backed id (.start tables) where
  ordered := nofun
  spaced := trivial
  unasked _ := rfl
  deadline row stored := by
    rw [show recoveryOf id (History.start tables).tables = none from fresh] at stored
    cases stored

theorem Backed.backsOff (backed : Backed id history) : BacksOff id history where
  asked answered := by
    obtain ⟨row, stored⟩ := Option.ne_none_iff_exists'.mp (mt backed.unasked answered)
    exact (backed.deadline row stored).asked
  spaced := backed.spaced
  bounded row stored := bounded_of_le (backed.deadline row stored).few

/-- A call advances a deadline or leaves it. -/
theorem deadline_claimed {now : Timestamp} {due : Bool} {base : Tables}
    (left : Claimed id now base due tables) {row : Recovery} (stored : recoveryOf id base = some row) :
    ∃ later, recoveryOf id tables = some later ∧ row.nextAttemptAt ≤ later.nextAttemptAt := by
  have consults : consulted id now base = row := congrArg (fun found => Option.getD found _) stored
  have answer := left.answer
  have kept := left.row
  rw [consults] at answer kept
  cases due with
  | false => exact ⟨row, kept, le_rfl⟩
  | true =>
    have reached : row.nextAttemptAt ≤ now := of_decide_eq_true answer.symm
    have waits : 0 ≤ backoff (min (row.attempts + 1) maxAttempts) :=
      le_min (mul_nonneg (by decide) (pow_nonneg (by decide) _)) (by decide)
    exact ⟨_, kept, le_add_of_le_of_nonneg reached (mul_nonneg waits (by decide))⟩

theorem deadline_step {action : Action} (unobserved : ¬Observed runtime id history action)
    (taken : step runtime id history action = some next) {row : Recovery}
    (stored : recoveryOf id history.tables = some row) :
    ∃ later, recoveryOf id next.tables = some later ∧ row.nextAttemptAt ≤ later.nextAttemptAt := by
  cases action with
  | claim other now world heard =>
    rcases claimed_cases runtime history.tables other now world with failed | ⟨due, after, ran, left⟩
    · simp only [step, failed] at taken
      split at taken <;> cases taken <;> exact ⟨row, stored, le_rfl⟩
    · simp only [step, ran] at taken
      split at taken
      next same =>
        subst same
        cases taken
        exact deadline_claimed left stored
      next apart =>
        cases taken
        exact ⟨row, (left.others id (Ne.symm apart)).trans stored, le_rfl⟩
  | write command world =>
    simp only [step] at taken
    split at taken
    next observed => exact absurd observed unobserved
    cases taken
    cases landed : (perform runtime history.tables world command).1 with
    | false => exact ⟨row, (congrArg (recoveryOf id) (perform_unchanged landed)).trans stored, le_rfl⟩
    | true =>
      have kept : recoveryOf id (perform runtime history.tables world command).2 = _ :=
        recoveryOf_step (Prod.ext landed rfl)
      rw [if_neg fun observed => unobserved ⟨landed, observed⟩] at kept
      exact ⟨row, kept.trans stored, le_rfl⟩
  | restart =>
    cases taken
    exact ⟨row, stored, le_rfl⟩

/-- Between two successful observations an account is read no more often than its backoff allows,
and nothing but the observation shortens a stored deadline. -/
theorem recovery_backs_off (runtime : Sql.Runtime) (id : AccountId) {tables : Tables}
    (fresh : recoveryOf id tables = none) {actions : List Action}
    (inOrder : Meets (step runtime id) (InOrder id) (.start tables) actions) :
    Always (step runtime id) (BacksOff id) (.start tables) actions ∧
      ∀ history action next, ¬Observed runtime id history action →
        step runtime id history action = some next → ∀ row, recoveryOf id history.tables = some row →
          ∃ later, recoveryOf id next.tables = some later ∧ row.nextAttemptAt ≤ later.nextAttemptAt :=
  ⟨always_of_meets (fun _ => Backed.backsOff) (fun _ _ _ => backed_step) (backed_start fresh) inOrder,
    fun _ _ _ unobserved taken _ => deadline_step unobserved taken⟩

/-- An account of a gateway whose sign-in expired. -/
def expiredSignIn : Tables :=
  { Tables.empty with
    sources := [⟨1, "gateway", "gateway", .cliProxy, "gateway", true, 0⟩]
    accounts := [⟨2, 1, "claude", "key", .oauth, none, none, none, 0, 0⟩]
    states := [{
      accountId := 2
      status := none
      statusMessage := none
      disabled := false
      unavailable := false
      nextRetryAfter := none
      cooldowns := []
      accountType := none
      plan := none
      hardRefreshable := true
      softObservedAt := none
      hardRefreshedAt := none
      hardRefreshError := none
      removedAt := none
      signInError := some .expired }] }

/-- The account is asked about every three minutes, across a restart. -/
def asks : List Action :=
  [.claim 2 0 (.calm 0 (· + 1)) true, .claim 2 (seconds 180) (.calm 0 (· + 1)) true, .restart,
    .claim 2 (seconds 360) (.calm 0 (· + 1)) true, .claim 2 (seconds 540) (.calm 0 (· + 1)) true]

theorem asks_back_off :
    recoveryOf 2 expiredSignIn = none ∧
      Meets (step .inert 2) (InOrder 2) (.start expiredSignIn) asks ∧
      Always (step .inert 2) (BacksOff 2) (.start expiredSignIn) asks ∧
      (run (step .inert 2) (.start expiredSignIn) asks).map History.dues =
        some [seconds 540, seconds 180] := by
  have inOrder : Meets (step .inert 2) (InOrder 2) (.start expiredSignIn) asks := by
    rintro _ ⟨⟩
    refine ⟨nofun, ?_⟩
    rintro _ ⟨⟩
    refine ⟨fun _ => by rintro _ ⟨⟩; decide, ?_⟩
    rintro _ ⟨⟩
    refine ⟨trivial, ?_⟩
    rintro _ ⟨⟩
    refine ⟨fun _ => by rintro _ ⟨⟩; decide, ?_⟩
    rintro _ ⟨⟩
    exact ⟨fun _ => by rintro _ ⟨⟩; decide, trivial⟩
  exact ⟨rfl, inOrder, (recovery_backs_off .inert 2 rfl inOrder).1, by decide⟩

end MeteredUsage.Store.Backoff

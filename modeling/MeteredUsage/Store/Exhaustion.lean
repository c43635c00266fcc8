import MeteredUsage.Store.Commits
import MeteredUsage.Store.Evidence
import MeteredUsage.Store.Merged

/-! The evidence of exhausted quota as batches of requests arrive: what is stored of an account
follows the history of the requests in the order they were first delivered. -/

namespace MeteredUsage.Store.Exhaustion
open MeteredUsage.Values MeteredUsage.Store.Schema MeteredUsage.Store.Accounts
open MeteredUsage.Store.Events MeteredUsage.Store.Windows MeteredUsage.Store.Response
open MeteredUsage.Store.Ingest MeteredUsage.Store.Validity MeteredUsage.Store.Statements
open MeteredUsage.Store.Landing MeteredUsage.Store.Commands MeteredUsage.Store.Evidence
open MeteredUsage.Store.Intake MeteredUsage.Store.Commits
open MeteredUsage.Library.Execution MeteredUsage.Library.Keyed MeteredUsage.Library.Transaction

variable {runtime : Sql.Runtime} {account : AccountId} {source : SourceId}

/-- A record and the source that reports it. -/
abbrev Record := SourceId × NewUsageEvent

/-- What tells two records apart. -/
def recordKey (runtime : Sql.Runtime) (record : Record) : SourceId × String :=
  (record.1, record.2.recordHash runtime)

/-- The account a record is charged to. -/
def chargedTo (accounts : List Account) (record : Record) : Option AccountId :=
  ownerOf accounts record.1 (record.2.account.key record.2.provider)

/-- The reset a rejected request names, whether or not it is still to come. -/
def namedReset (runtime : Sql.Runtime) (event : NewUsageEvent) : Option Timestamp :=
  if event.failed ∧ event.statusCode = 429 then do
    let body ← event.errorMessage
    let error ← (runtime.parseJson body).bind readBody
    error.reset runtime
  else none

theorem resetOf_eq (event : NewUsageEvent) (now : Timestamp) :
    resetOf runtime event now = (namedReset runtime event).filter fun reset => now < reset := by
  unfold resetOf namedReset
  split
  next =>
    cases event.errorMessage with
    | none => rfl
    | some body =>
      change ((runtime.parseJson body).bind readBody).bind _ =
        (((runtime.parseJson body).bind readBody).bind _).filter _
      cases (runtime.parseJson body).bind readBody <;> rfl
  next => rfl

/-- What a stored request says of its account's subscription. -/
def sign (runtime : Sql.Runtime) (event : NewUsageEvent) : Sign where
  occurredAt := event.occurredAt
  report :=
    if isSuccess event.failed event.statusCode then .success (event.provider = "meta")
    else if event.provider = "meta" then (namedReset runtime event).elim .neither .exhausted
    else .neither

def signs (runtime : Sql.Runtime) (records : List Record) : List Sign :=
  records.map fun record => sign runtime record.2

/-- The stored evidence: the reset named, and when the request that names it happened. -/
def evidenceOf (account : AccountId) (tables : Tables) : List (Option Timestamp × Timestamp) :=
  (tables.windows.filter (isWindow account responseKey)).map fun window =>
    (window.resetsAt, window.observedAt)

/-- The tables have what the delivered records leave, in the order they were first delivered. -/
structure Tracks (runtime : Sql.Runtime) (account : AccountId) (records delivered : List Record)
    (tables : Tables) : Prop where
  stored : ∀ record ∈ records,
    tables.events.any (holdsHash record.1 (record.2.recordHash runtime)) = true ↔
      ∃ other ∈ delivered, recordKey runtime other = recordKey runtime record
  newer : ∀ occurredAt, hasNewerSuccess account occurredAt tables =
    (settle (signs runtime (firsts (recordKey runtime) delivered))).isPast occurredAt
  evidence : evidenceOf account tables =
    (settle (signs runtime (firsts (recordKey runtime) delivered))).evidence.toList.map fun kept =>
      (some kept.1, kept.2)

theorem hasNewerSuccess_append (tables : Tables) (row : UsageEvent) (occurredAt : Timestamp) :
    hasNewerSuccess account occurredAt { tables with events := tables.events ++ [row] } =
      (hasNewerSuccess account occurredAt tables ||
        (decide (row.accountId = account) && decide (occurredAt < row.occurredAt) &&
          isSuccess row.failed row.statusCode)) := by
  simp only [hasNewerSuccess, List.any_append, List.any_cons, List.any_nil, Bool.or_false]

theorem isPast_next (history : History) (event : NewUsageEvent) (occurredAt : Timestamp) :
    (history.next (sign runtime event)).isPast occurredAt =
      (history.isPast occurredAt ||
        (decide (occurredAt < event.occurredAt) && isSuccess event.failed event.statusCode)) := by
  cases succeeded : isSuccess event.failed event.statusCode with
  | true =>
    have report : (sign runtime event).report = .success (event.provider = "meta") := by
      simp [sign, succeeded]
    simp only [History.next, report, History.isPast, List.any_cons, Bool.and_true]
    exact Bool.or_comm _ _
  | false =>
    have unmoved : (history.next (sign runtime event)).successes = history.successes := by
      unfold History.next
      split
      next => split <;> rfl
      next isMeta report =>
        simp only [sign, succeeded, Bool.false_eq_true, if_false] at report
        split at report
        · cases named : namedReset runtime event <;> rw [named] at report <;> cases report
        · cases report
      next => rfl
    simp only [History.isPast, unmoved, Bool.and_false, Bool.or_false]

/-- The reset and the time of the evidence in a window. -/
def facts (window : QuotaWindow) : Option Timestamp × Timestamp :=
  (window.resetsAt, window.observedAt)

theorem evidenceOf_eq (tables : Tables) :
    evidenceOf account tables = (tables.windows.filter (isWindow account responseKey)).map facts := rfl

/-- The evidence after a rejected request's row. -/
theorem facts_marked {windows : List QuotaWindow} {kept : Option (Timestamp × Timestamp)}
    {reset occurredAt : Timestamp}
    (evident : (windows.filter (isWindow account responseKey)).map facts =
      kept.toList.map fun kept => (some kept.1, kept.2)) :
    ((marked (marker account reset occurredAt) windows).filter (isWindow account responseKey)).map
      facts = [(some (latest kept reset occurredAt).1, (latest kept reset occurredAt).2)] := by
  have named : isWindow account responseKey (marker account reset occurredAt) = true := by
    simp [isWindow, marker]
  cases kept with
  | none =>
    have absent : windows.filter (isWindow account responseKey) = [] := by simpa using evident
    have unstored : ¬windows.any (isWindow account responseKey) = true := by
      simpa [List.filter_eq_nil_iff] using absent
    have appended : marked (marker account reset occurredAt) windows =
        windows ++ [marker account reset occurredAt] := if_neg unstored
    rw [appended, List.filter_append, absent, List.filter_cons_of_pos named]
    rfl
  | some kept =>
    obtain ⟨window, stored, same⟩ : ∃ window,
        windows.filter (isWindow account responseKey) = [window] ∧
          facts window = (some kept.1, kept.2) := by
      simpa [List.map_eq_singleton_iff] using evident
    have mine : window ∈ windows.filter (isWindow account responseKey) := by simp [stored]
    obtain ⟨member, isMine⟩ := List.mem_filter.mp mine
    have present : windows.any (isWindow account responseKey) = true :=
      List.any_eq_true.mpr ⟨window, member, isMine⟩
    let raised (stored : QuotaWindow) : QuotaWindow :=
      if isWindow account responseKey stored ∧ stored.observedAt ≤ occurredAt then
        { stored with resetsAt := some reset, observedAt := occurredAt }
      else stored
    have updated : marked (marker account reset occurredAt) windows = windows.map raised :=
      if_pos present
    have unmoved : isWindow account responseKey ∘ raised = isWindow account responseKey := by
      funext stored
      simp only [Function.comp_apply, raised]
      split <;> rfl
    have observedAt : window.observedAt = kept.2 := congrArg Prod.snd same
    rw [updated, List.filter_map, unmoved, stored]
    by_cases earlier : kept.2 ≤ occurredAt
    · simp [raised, latest, earlier, isMine, observedAt, facts]
    · simp [raised, latest, earlier, isMine, observedAt, same]

/-- The evidence after a success. -/
theorem facts_cleared {windows : List QuotaWindow} {kept : Option (Timestamp × Timestamp)}
    {occurredAt : Timestamp}
    (evident : (windows.filter (isWindow account responseKey)).map facts =
      kept.toList.map fun kept => (some kept.1, kept.2)) :
    ((windows.filter fun window =>
        !(isWindow account responseKey window && window.observedAt ≤ occurredAt)).filter
      (isWindow account responseKey)).map facts =
        ((kept.filter fun kept => occurredAt < kept.2).toList.map fun kept => (some kept.1, kept.2)) := by
  have swapped : (windows.filter fun window =>
        !(isWindow account responseKey window && window.observedAt ≤ occurredAt)).filter
      (isWindow account responseKey) =
      (windows.filter (isWindow account responseKey)).filter fun window =>
        (occurredAt < (facts window).2) := by
    rw [List.filter_filter, List.filter_filter]
    refine List.filter_congr fun window _ => ?_
    have opposite : (!decide (window.observedAt ≤ occurredAt)) =
        decide (occurredAt < window.observedAt) := by
      rw [← decide_not]
      exact decide_eq_decide.mpr Int.not_le
    cases isWindow account responseKey window with
    | false => simp
    | true =>
      simp only [Bool.true_and, Bool.and_true, opposite]
      rfl
  have mapped : ((windows.filter (isWindow account responseKey)).filter fun window =>
        (occurredAt < (facts window).2)).map facts =
      ((windows.filter (isWindow account responseKey)).map facts).filter fun found =>
        occurredAt < found.2 := by
    rw [List.filter_map]
    rfl
  rw [swapped, mapped, evident]
  cases kept with
  | none => rfl
  | some kept => by_cases later : occurredAt < kept.2 <;> simp [Option.filter, later]

variable {records delivered : List Record} {tables : Tables}

/-- A record the tables already have adds nothing to the history. -/
theorem Tracks.again (tracks : Tracks runtime account records delivered tables) {record : Record}
    (known : ∃ other ∈ delivered, recordKey runtime other = recordKey runtime record)
    {accounts : List Account} :
    Tracks runtime account records (delivered ++ [record]) { tables with accounts := accounts } := by
  have first : firsts (recordKey runtime) (delivered ++ [record]) =
      firsts (recordKey runtime) delivered := by
    rw [firsts_append_singleton, if_pos]
    obtain ⟨other, member, same⟩ := exists_mem_firsts.mpr known
    exact List.any_eq_true.mpr ⟨other, member, decide_eq_true same⟩
  refine ⟨fun other member => (tracks.stored other member).trans ?_, ?_, ?_⟩
  · constructor
    · rintro ⟨earlier, stored, same⟩
      exact ⟨earlier, List.mem_append_left _ stored, same⟩
    · rintro ⟨earlier, stored, same⟩
      rcases List.mem_append.mp stored with before | here
      · exact ⟨earlier, before, same⟩
      · obtain ⟨first, stored, known⟩ := known
        rw [List.mem_singleton.mp here] at same
        exact ⟨first, stored, known.trans same⟩
  · rw [first]
    exact tracks.newer
  · rw [first]
    exact tracks.evidence

theorem resetOf_early {event : NewUsageEvent} {receivedAt : Timestamp}
    (early : ∀ reset ∈ namedReset runtime event, receivedAt < reset) :
    resetOf runtime event receivedAt = namedReset runtime event := by
  rw [resetOf_eq]
  cases named : namedReset runtime event with
  | none => rfl
  | some reset => simp [Option.filter, early reset (by simp [named])]

/-- A request that failed did not succeed. -/
theorem isSuccess_of_named {event : NewUsageEvent} {reset : Timestamp}
    (named : namedReset runtime event = some reset) : isSuccess event.failed event.statusCode = false := by
  unfold namedReset at named
  split at named
  next rejected => simp [isSuccess, rejected.1]
  next => cases named

/-- What a request leaves of the evidence: one that speaks of its subscription replaces or
clears it. -/
theorem evidence_next (history : History) (event : NewUsageEvent) :
    (history.next (sign runtime event)).evidence =
      if (event.provider = "meta" ∧
          (isSuccess event.failed event.statusCode ∨ (namedReset runtime event).isSome)) ∧
          history.isPast event.occurredAt = false then
        match namedReset runtime event with
        | some reset => some (latest history.evidence reset event.occurredAt)
        | none => history.evidence.filter fun kept => event.occurredAt < kept.2
      else history.evidence := by
  cases named : namedReset runtime event with
  | some reset =>
    have failed := isSuccess_of_named named
    by_cases isMeta : event.provider = "meta"
    · cases past : history.isPast event.occurredAt <;>
        simp [History.next, sign, failed, isMeta, named, past]
    · simp [History.next, sign, failed, isMeta]
  | none =>
    cases succeeded : isSuccess event.failed event.statusCode with
    | false => by_cases isMeta : event.provider = "meta" <;> simp [History.next, sign, succeeded, isMeta, named]
    | true =>
      by_cases isMeta : event.provider = "meta"
      · cases past : history.isPast event.occurredAt <;>
          simp [History.next, sign, succeeded, isMeta, past]
      · simp [History.next, sign, succeeded, isMeta]

/-- The windows after a new record are those of its history. -/
theorem evidence_observed (tracks : Tracks runtime account records delivered tables)
    {event : NewUsageEvent} {id : EventId} {accounts : List Account} {stored : Tables}
    {receivedAt : Timestamp} (early : ∀ reset ∈ namedReset runtime event, receivedAt < reset)
    (appended : stored = { tables with
      accounts := accounts, events := tables.events ++ [event.row runtime id source account] }) :
    ((observed runtime account event receivedAt stored).filter (isWindow account responseKey)).map
        facts =
      ((settle (signs runtime (firsts (recordKey runtime) delivered))).next
        (sign runtime event)).evidence.toList.map fun kept => (some kept.1, kept.2) := by
  have overtaken : hasNewerSuccess account event.occurredAt stored =
      (settle (signs runtime (firsts (recordKey runtime) delivered))).isPast event.occurredAt := by
    rw [← tracks.newer, appended]
    change hasNewerSuccess account event.occurredAt
      { tables with events := tables.events ++ [event.row runtime id source account] } = _
    rw [hasNewerSuccess_append]
    simp [NewUsageEvent.row]
  have evident := tracks.evidence
  have windows : stored.windows = tables.windows := by rw [appended]
  rw [evidenceOf_eq] at evident
  rw [evidence_next]
  unfold observed
  rw [windows, resetOf_early early]
  by_cases speaks : Speaks runtime account event receivedAt stored
  · have spoken := speaks
    rw [Speaks, resetOf_early early, overtaken] at spoken
    rw [if_pos speaks, if_pos spoken]
    cases namedReset runtime event with
    | some reset => exact facts_marked evident
    | none => exact facts_cleared evident
  · have silent := speaks
    rw [Speaks, resetOf_early early, overtaken] at silent
    rw [if_neg speaks, if_neg silent]
    exact evident

/-- A record the tables have not adds its sign to the history. -/
theorem Tracks.first (tracks : Tracks runtime account records delivered tables)
    {event : NewUsageEvent} {id : EventId} {accounts : List Account} {stored : Tables}
    {receivedAt : Timestamp}
    (unknown : ¬∃ other ∈ delivered, recordKey runtime other = recordKey runtime (source, event))
    (early : ∀ reset ∈ namedReset runtime event, receivedAt < reset)
    (appended : stored = { tables with
      accounts := accounts, events := tables.events ++ [event.row runtime id source account] }) :
    Tracks runtime account records (delivered ++ [(source, event)])
      { stored with windows := observed runtime account event receivedAt stored } := by
  have first : firsts (recordKey runtime) (delivered ++ [(source, event)]) =
      firsts (recordKey runtime) delivered ++ [(source, event)] := by
    rw [firsts_append_singleton, if_neg]
    rw [List.any_eq_true]
    rintro ⟨other, member, same⟩
    exact unknown ⟨other, mem_of_mem_firsts member, of_decide_eq_true same⟩
  have history : settle (signs runtime (firsts (recordKey runtime) (delivered ++ [(source, event)]))) =
      (settle (signs runtime (firsts (recordKey runtime) delivered))).next (sign runtime event) := by
    rw [first, signs, List.map_append]
    exact settle_append _ _
  refine ⟨fun other member => ?_, fun occurredAt => ?_, ?_⟩
  · subst appended
    rw [List.any_append, Bool.or_eq_true, tracks.stored other member]
    simp only [List.mem_append, List.mem_singleton, or_and_right, exists_or, exists_eq_left,
      List.any_cons, List.any_nil, Bool.or_false, holdsHash, Bool.and_eq_true, decide_eq_true_eq,
      recordKey, Prod.mk.injEq, NewUsageEvent.row]
  · subst appended
    rw [history, isPast_next, ← tracks.newer occurredAt]
    change hasNewerSuccess account occurredAt
      { tables with events := tables.events ++ [event.row runtime id source account] } = _
    rw [hasNewerSuccess_append]
    simp only [NewUsageEvent.row, decide_true, Bool.true_and]
    rfl
  · rw [history]
    exact evidence_observed tracks early appended

/-- The records of a batch that were read. -/
def recordsOf (source : SourceId) (batch : List Incoming) : List Record :=
  batch.filterMap fun
    | .record event => some (source, event)
    | .rejected _ _ => none

theorem recordsOf_append (source : SourceId) (first rest : List Incoming) :
    recordsOf source (first ++ rest) = recordsOf source first ++ recordsOf source rest :=
  List.filterMap_append

/-- Every delivered record has an owner, and where that is the account for all of them, the
tables track what they leave. -/
structure Follows (runtime : Sql.Runtime) (account : AccountId) (records delivered : List Record)
    (tables : Tables) : Prop where
  owned : ∀ record ∈ delivered, (chargedTo tables.accounts record).isSome = true
  tracks : (∀ record ∈ delivered, chargedTo tables.accounts record = some account) →
    Tracks runtime account records delivered tables

/-- Accounts with an owner for every key that had one. -/
theorem chargedTo_attributed {row : Account} {new : NewAccount} {seenAt : Timestamp}
    {accounts : List Account} {record : Record} (owned : (chargedTo accounts record).isSome = true) :
    chargedTo (attributed row new seenAt accounts) record = chargedTo accounts record := by
  unfold chargedTo at owned ⊢
  rw [ownerOf_attributed]
  cases found : ownerOf accounts record.1 (record.2.account.key record.2.provider) with
  | none =>
    rw [found] at owned
    cases owned
  | some owner => rfl

theorem follows_taken (follows : Follows runtime account records delivered tables)
    {record : Incoming} {receivedAt : Timestamp} {progress next : Progress} {after : Tables}
    (among : ∀ other ∈ recordsOf source [record], other ∈ records)
    (early : ∀ other ∈ recordsOf source [record], ∀ reset ∈ namedReset runtime other.2,
      receivedAt < reset)
    (taken : Taken runtime source receivedAt tables progress record next after) :
    Follows runtime account records (delivered ++ recordsOf source [record]) after := by
  -- The owners of earlier records stay, and the new one has the owner it is charged to.
  have owners {event : NewUsageEvent} {candidate owner : AccountId} {accounts : List Account}
      (charged : accounts = attributed (event.account.row candidate source event.provider
        event.occurredAt) event.account event.occurredAt tables.accounts)
      (owned : ownerOf accounts source (event.account.key event.provider) = some owner) :
      (∀ other ∈ delivered, chargedTo accounts other = chargedTo tables.accounts other) ∧
        ∀ other ∈ delivered ++ [(source, event)], (chargedTo accounts other).isSome = true := by
    have kept : ∀ other ∈ delivered, chargedTo accounts other = chargedTo tables.accounts other := by
      intro other member
      rw [charged]
      exact chargedTo_attributed (follows.owned other member)
    refine ⟨kept, fun other member => ?_⟩
    rcases List.mem_append.mp member with earlier | here
    · rw [kept other earlier]
      exact follows.owned other earlier
    · rw [List.mem_singleton.mp here]
      exact congrArg Option.isSome owned
  cases taken with
  | rejected error payload id =>
    rw [show recordsOf source [.rejected error payload] = [] from rfl, List.append_nil]
    exact ⟨follows.owned, fun mine =>
      ⟨(follows.tracks mine).stored, (follows.tracks mine).newer, (follows.tracks mine).evidence⟩⟩
  | duplicate event candidate owner isNewCredential accounts charged owned known =>
    obtain ⟨kept, all⟩ := owners charged owned
    refine ⟨all, fun mine => ?_⟩
    have tracks := follows.tracks fun other member =>
      (kept other member).symm.trans (mine other (List.mem_append_left _ member))
    exact tracks.again ((tracks.stored (source, event) (among _ (by simp [recordsOf]))).mp known)
  | accepted event candidate owner isNewCredential accounts id arrival stored charged owned unknown
      fresh appended =>
    obtain ⟨kept, all⟩ := owners charged owned
    rw [appended]
    refine ⟨all, fun mine => ?_⟩
    have tracks := follows.tracks fun other member =>
      (kept other member).symm.trans (mine other (List.mem_append_left _ member))
    have charges := mine (source, event) (by simp [recordsOf])
    obtain rfl := Option.some.inj (owned.symm.trans charges)
    have absent := (tracks.stored (source, event) (among _ (by simp [recordsOf]))).not.mp
      (Bool.eq_false_iff.mp unknown)
    exact tracks.first absent (early (source, event) (by simp [recordsOf])) rfl

/-- A batch and the world its transaction meets. -/
structure Batch where
  source : SourceId
  incoming : List Incoming
  world : World

def Batch.action (batch : Batch) : Command × World := (.ingest batch.source batch.incoming, batch.world)

def Batch.delivers (batch : Batch) : List Record := recordsOf batch.source batch.incoming

theorem follows_ignores {done : List Record} :
    IgnoresFeed (Follows runtime account records done) := fun _ _ follows =>
  ⟨follows.owned, fun mine =>
    ⟨(follows.tracks mine).stored, (follows.tracks mine).newer, (follows.tracks mine).evidence⟩⟩

theorem follows_batch (follows : Follows runtime account records delivered tables) {batch : Batch}
    {next : Tables} (among : ∀ record ∈ batch.delivers, record ∈ records)
    (early : ∀ record ∈ batch.delivers, ∀ reset ∈ namedReset runtime record.2,
      batch.world.clock 0 < reset)
    (taken : step runtime tables batch.action = some next) :
    Follows runtime account records (delivered ++ batch.delivers) next := by
  have landed := step_iff.mp taken
  simp only [Batch.action, perform, ingest_eq, performed_reading] at landed
  have kept : Holds (Follows runtime account records (delivered ++ recordsOf batch.source []))
      (ingesting runtime batch.source batch.incoming (batch.world.clock 0) (batch.world.clock 1))
      fun ending tables => ∀ progress, ending = .committed progress →
        Follows runtime account records (delivered ++ batch.delivers) tables := by
    apply @holds_ingesting_taken runtime batch.source
      fun done _ => Follows runtime account records (delivered ++ recordsOf batch.source done)
    · exact fun _ _ => follows_ignores
    · intro done record rest whole progress tables next after follows taken
      have part : ∀ other ∈ recordsOf batch.source [record], other ∈ batch.delivers := by
        intro other member
        rw [Batch.delivers, ← whole, ← List.singleton_append, recordsOf_append, recordsOf_append]
        exact List.mem_append_right _ (List.mem_append_left _ member)
      rw [recordsOf_append, ← List.append_assoc]
      exact follows_taken follows (fun other member => among other (part other member))
        (fun other member => early other (part other member)) taken
  have initial : Follows runtime account records (delivered ++ recordsOf batch.source []) tables := by
    rw [show recordsOf batch.source [] = [] from rfl, List.append_nil]
    exact follows
  obtain ⟨progress, final⟩ := performed_holds kept initial landed
  exact final progress rfl

/-- What some batches deliver, in order. -/
def delivery (batches : List Batch) : List Record := batches.flatMap Batch.delivers

/-- Every record is ingested before the reset it names. -/
def InTime (runtime : Sql.Runtime) (batches : List Batch) : Prop :=
  ∀ batch ∈ batches, ∀ record ∈ batch.delivers, ∀ reset ∈ namedReset runtime record.2,
    batch.world.clock 0 < reset

theorem follows_run {finish : Tables} {batches : List Batch}
    (follows : Follows runtime account records delivered tables)
    (among : ∀ record ∈ delivery batches, record ∈ records) (inTime : InTime runtime batches)
    (reached : run (step runtime) tables (batches.map Batch.action) = some finish) :
    Follows runtime account records (delivered ++ delivery batches) finish := by
  induction batches generalizing tables delivered with
  | nil =>
    cases reached
    rw [show delivery [] = [] from rfl, List.append_nil]
    exact follows
  | cons batch rest ih =>
    obtain ⟨next, taken, later⟩ := (run_cons _ _ _ _ _).mp reached
    have first := follows_batch follows
      (fun record member => among record (List.mem_append_left _ member))
      (inTime batch (by simp)) taken
    have final := ih first (fun record member => among record (List.mem_append_right _ member))
      (fun other member => inTime other (List.mem_cons_of_mem _ member)) later
    rw [List.append_assoc] at final
    exact final

/-- Nothing is stored of the account, nor of the records. -/
structure Untouched (runtime : Sql.Runtime) (account : AccountId) (records : List Record)
    (tables : Tables) : Prop where
  events : ∀ event ∈ tables.events, event.accountId ≠ account
  windows : ∀ window ∈ tables.windows, window.accountId ≠ account
  records : ∀ record ∈ records,
    tables.events.any (holdsHash record.1 (record.2.recordHash runtime)) = false

theorem follows_start (untouched : Untouched runtime account records tables) :
    Follows runtime account records [] tables where
  owned := by simp
  tracks := by
    refine fun _ => ⟨fun record member => ?_, fun occurredAt => ?_, ?_⟩
    · simp [untouched.records record member]
    · have none_of : ∀ event ∈ tables.events, ¬event.accountId = account := untouched.events
      change hasNewerSuccess account occurredAt tables = false
      rw [hasNewerSuccess, List.any_eq_false]
      intro event member
      simp [none_of event member]
    · have none_of : tables.windows.filter (isWindow account responseKey) = [] := by
        rw [List.filter_eq_nil_iff]
        intro window member
        simp [isWindow, untouched.windows window member]
      rw [evidenceOf_eq, none_of]
      rfl

/-- A record that has an owner keeps it. -/
theorem chargedTo_step {batch : Batch} {next : Tables} {record : Record}
    (owned : chargedTo tables.accounts record = some account)
    (taken : step runtime tables batch.action = some next) :
    chargedTo next.accounts record = some account := by
  have landed := step_iff.mp taken
  simp only [Batch.action, perform, ingest_eq, performed_reading] at landed
  have kept : Holds (fun tables => chargedTo tables.accounts record = some account)
      (ingesting runtime batch.source batch.incoming (batch.world.clock 0) (batch.world.clock 1))
      fun ending tables => ∀ progress, ending = .committed progress →
        chargedTo tables.accounts record = some account := by
    apply @holds_ingesting_taken runtime batch.source
      fun _ _ tables => chargedTo tables.accounts record = some account
    · exact fun _ _ _ _ owned => owned
    · intro done incoming rest whole progress tables next after owned taken
      have some_owner : (chargedTo tables.accounts record).isSome = true := by rw [owned]; rfl
      cases taken with
      | rejected => exact owned
      | duplicate event candidate owner isNewCredential accounts charged =>
        rw [charged]
        exact (chargedTo_attributed some_owner).trans owned
      | accepted event candidate owner isNewCredential accounts id arrival stored charged _ _ _
          appended =>
        rw [appended, charged]
        exact (chargedTo_attributed some_owner).trans owned
  obtain ⟨progress, final⟩ := performed_holds kept owned landed
  exact final progress rfl

theorem known_source (valid : Valid False tables) {record : Record}
    (owned : (chargedTo tables.accounts record).isSome = true) :
    ∃ stored ∈ tables.sources, stored.id = record.1 := by
  unfold chargedTo ownerOf at owned
  rw [Option.isSome_map, List.find?_isSome] at owned
  obtain ⟨row, member, named⟩ := owned
  obtain ⟨stored, present, same⟩ := valid.accountSources row member
  exact ⟨stored, present, same.trans (holdsKey_iff.mp named).1⟩

/-- Records of known accounts can be delivered one by one, in any order and at any time. -/
theorem exists_run (valid : Valid False tables) (order : List Record)
    (owned : ∀ record ∈ order, chargedTo tables.accounts record = some account) (now : Timestamp) :
    ∃ batches finish, delivery batches = order ∧
      (∀ batch ∈ batches, batch.world.clock 0 = now) ∧
      run (step runtime) tables (batches.map Batch.action) = some finish ∧
      ∀ record, chargedTo tables.accounts record = some account →
        chargedTo finish.accounts record = some account := by
  induction order generalizing tables with
  | nil => exact ⟨[], tables, rfl, by simp, rfl, fun _ kept => kept⟩
  | cons record rest ih =>
    obtain ⟨bound, below⟩ := exists_below tables
    have mine : (chargedTo tables.accounts record).isSome = true := by
      rw [owned record (by simp)]
      rfl
    have known := known_source valid mine
    obtain ⟨next, taken⟩ := @ingest_commits runtime False record.1 tables valid known bound below
      [.record record.2] now
    let batch : Batch := ⟨record.1, [.record record.2], World.calm now fun next => bound + next⟩
    have kept (other : Record) (mine : chargedTo tables.accounts other = some account) :
        chargedTo next.accounts other = some account :=
      @chargedTo_step runtime account tables batch next other mine taken
    obtain ⟨batches, finish, delivered, times, reached, last⟩ :=
      ih (Merged.valid_step valid nofun taken)
        fun other member => kept other (owned other (List.mem_cons_of_mem _ member))
    refine ⟨batch :: batches, finish, ?_, ?_, ?_, fun other mine => last other (kept other mine)⟩
    · change recordsOf record.1 [.record record.2] ++ delivery batches = _
      rw [delivered]
      rfl
    · intro other member
      rcases List.mem_cons.mp member with rfl | later
      · rfl
      · exact times other later
    · exact (run_cons _ _ _ _ _).mpr ⟨next, taken, reached⟩

theorem exists_early (records : List Record) :
    ∃ now : Timestamp, ∀ record ∈ records, ∀ reset ∈ namedReset runtime record.2, now < reset := by
  induction records with
  | nil => exact ⟨0, by simp⟩
  | cons record rest ih =>
    obtain ⟨now, early⟩ := ih
    refine ⟨min now ((namedReset runtime record.2).getD 0 - 1), fun other member reset named => ?_⟩
    rcases List.mem_cons.mp member with rfl | later
    · rw [Option.mem_def.mp named, Option.getD_some]
      exact lt_of_le_of_lt (min_le_right _ _) (Int.sub_lt_self reset (by decide))
    · exact lt_of_le_of_lt (min_le_left _ _) (early other later reset named)

/-- Batches that deliver just these records to an account nothing is stored of, each before the
reset it names, can end with this evidence. -/
def Leaves (runtime : Sql.Runtime) (records : List Record)
    (evidence : List (Option Timestamp × Timestamp)) : Prop :=
  ∃ start finish account batches, Valid False start ∧ Untouched runtime account records start ∧
    InTime runtime batches ∧ (∀ record, record ∈ delivery batches ↔ record ∈ records) ∧
    run (step runtime) start (batches.map Batch.action) = some finish ∧
    (∀ record ∈ records, chargedTo finish.accounts record = some account) ∧
    evidenceOf account finish = evidence

/-- Some account nothing is stored of is the one they all are charged to. -/
def OfOneAccount (runtime : Sql.Runtime) (records : List Record) : Prop :=
  ∃ start account, Valid False start ∧ Untouched runtime account records start ∧
    ∀ record ∈ records, chargedTo start.accounts record = some account

/-- The evidence in the window of a history. -/
def shown (history : History) : List (Option Timestamp × Timestamp) :=
  history.evidence.toList.map fun kept => (some kept.1, kept.2)

/-- Evidence is left by the order in which the records were first delivered. -/
theorem exists_order {evidence : List (Option Timestamp × Timestamp)}
    (leaves : Leaves runtime records evidence) :
    ∃ order, (∀ record, record ∈ order ↔ record ∈ records) ∧
      evidence = shown (settle (signs runtime (firsts (recordKey runtime) order))) := by
  obtain ⟨start, finish, account, batches, valid, untouched, inTime, same, reached, owned, rfl⟩ :=
    leaves
  have follows := follows_run (follows_start untouched) (fun record => (same record).mp) inTime reached
  have tracks := follows.tracks fun record member => owned record ((same record).mp member)
  exact ⟨delivery batches, same, tracks.evidence⟩

theorem leaves_order (one : OfOneAccount runtime records) {order : List Record}
    (same : ∀ record, record ∈ order ↔ record ∈ records) :
    Leaves runtime records (shown (settle (signs runtime (firsts (recordKey runtime) order)))) := by
  obtain ⟨start, account, valid, untouched, owned⟩ := one
  obtain ⟨now, early⟩ := @exists_early runtime records
  obtain ⟨batches, finish, rfl, times, reached, kept⟩ := @exists_run runtime account start valid order
    (fun record member => owned record ((same record).mp member)) now
  have inTime : InTime runtime batches := by
    intro batch member record delivered reset named
    rw [times batch member]
    exact early record ((same record).mp (List.mem_flatMap.mpr ⟨batch, member, delivered⟩)) reset named
  have owners : ∀ record ∈ records, chargedTo finish.accounts record = some account :=
    fun record member => kept record (owned record member)
  have follows := follows_run (follows_start untouched) (fun record => (same record).mp) inTime reached
  have tracks := follows.tracks fun record member => owners record ((same record).mp member)
  exact ⟨start, finish, account, batches, valid, untouched, inTime, same, reached, owners,
    tracks.evidence⟩

theorem shown_injective {first second : History} (same : shown first = shown second) :
    first.evidence = second.evidence := by
  unfold shown at same
  cases left : first.evidence with
  | none =>
    cases right : second.evidence with
    | none => rfl
    | some kept => simp [left, right] at same
  | some kept =>
    cases right : second.evidence with
    | none => simp [left, right] at same
    | some other =>
      simp only [left, right, Option.toList_some, List.map_cons, List.map_nil, List.cons.injEq,
        Prod.mk.injEq, Option.some.injEq, and_true] at same
      exact congrArg some (Prod.ext same.1 same.2)

theorem shown_ne_nil {history : History} : shown history ≠ [] ↔ history.evidence.isSome = true := by
  unfold shown
  cases history.evidence <;> simp

theorem mem_firsts (apart : Distinct (recordKey runtime) records) {order : List Record}
    (same : ∀ record, record ∈ order ↔ record ∈ records) (record : Record) :
    record ∈ firsts (recordKey runtime) order ↔ record ∈ records := by
  refine ⟨fun member => (same record).mp (mem_of_mem_firsts member), fun member => ?_⟩
  have found : ∃ first ∈ firsts (recordKey runtime) order,
      recordKey runtime first = recordKey runtime record :=
    exists_mem_firsts.mpr ⟨record, (same record).mpr member, rfl⟩
  obtain ⟨first, stored, equal⟩ := found
  exact apart.eq_of_key ((same first).mp (mem_of_mem_firsts stored)) member equal ▸ stored

theorem mem_signs {order : List Record} (same : ∀ record, record ∈ order ↔ record ∈ records)
    (mark : Sign) : mark ∈ signs runtime order ↔ mark ∈ signs runtime records := by
  simp only [signs, List.mem_map, same]

/-- A runtime that reads every body as a quota exhausted for nine seconds from the epoch, and
sums bytes for their hash. -/
def exhaustedRuntime : Sql.Runtime := { Sql.Runtime.inert with
  parseJson := fun _ => some (.object
    [("error", .object [("code", .string "quota"), ("resets_at", .number "9")])])
  blake3 := fun bytes => toString (bytes.map UInt8.toNat).sum }

/-- A request of Meta's, rejected or not. -/
def answered (occurredAt : Timestamp) (rejected : Bool) : Record :=
  (1, { NewUsageEvent.idle "key" occurredAt with
    provider := "meta", failed := rejected, statusCode := if rejected then 429 else 200,
    errorMessage := some "" })

/-- One source with one account. -/
def oneAccount : Tables := { Tables.empty with
  sources := [⟨1, "", "", .cliProxy, "", true, 0⟩]
  accounts := [⟨2, 1, "meta", "key", .oauth, none, none, none, 0, 0⟩] }

theorem valid_oneAccount : Valid False oneAccount := by
  constructor <;> simp [oneAccount, Tables.empty, Distinct]

theorem ofOneAccount_answered (happened : List (Timestamp × Bool)) :
    OfOneAccount exhaustedRuntime (happened.map fun request => answered request.1 request.2) := by
  refine ⟨oneAccount, 2, valid_oneAccount, ⟨by simp [oneAccount, Tables.empty],
    by simp [oneAccount, Tables.empty], by simp [oneAccount, Tables.empty]⟩, ?_⟩
  intro record member
  obtain ⟨request, -, rfl⟩ := List.mem_map.mp member
  simp [chargedTo, ownerOf, oneAccount, answered, NewUsageEvent.idle, NewAccount.key, holdsKey, root]

end MeteredUsage.Store.Exhaustion

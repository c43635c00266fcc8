import MeteredUsage.Library.Replay
import MeteredUsage.Store.Intake

/-! Records that come in again: their events are stored already, and the accounts they are
charged to are as they leave them. -/

namespace MeteredUsage.Store.Redelivery
open MeteredUsage.Values MeteredUsage.Store.Schema MeteredUsage.Store.Accounts
open MeteredUsage.Store.Events MeteredUsage.Store.Ingest MeteredUsage.Store.Validity
open MeteredUsage.Store.Statements MeteredUsage.Store.Landing MeteredUsage.Store.Intake
open MeteredUsage.Library.Replay MeteredUsage.Library.Transaction

variable {runtime : Sql.Runtime} {source : SourceId}

/-- The account a key's row is merged into. -/
def targetOf (accounts : List Account) (source : SourceId) (key : String) : Option AccountId :=
  (accounts.find? (holdsKey source key)).bind Account.mergedInto

/-- A row after a request through its own key, or charged to it through any key. -/
def touch (own charged : Bool) (event : NewUsageEvent) (account : Account) : Account :=
  let account := if own then
    { account with
      authKind := event.account.authKind
      label := event.account.label.or account.label }
    else account
  if charged then widen event.occurredAt event.occurredAt account else account

theorem or_or_self (later stored : Option String) : later.or (later.or stored) = later.or stored := by
  rw [← Option.or_assoc, Option.or_self]

theorem touch_touch (own charged : Bool) (event : NewUsageEvent) (account : Account) :
    touch own charged event (touch own charged event account) = touch own charged event account := by
  cases own <;> cases charged <;> simp [touch, widen, or_or_self]

theorem touch_between (own charged own' charged' : Bool) (event other : NewUsageEvent)
    (account : Account) :
    touch own charged event (touch own' charged' other (touch own charged event account)) =
      touch own charged event (touch own' charged' other account) := by
  have label (later earlier stored : Option String) :
      later.or (earlier.or (later.or stored)) = later.or (earlier.or stored) := by
    cases later <;> cases earlier <;> rfl
  cases own <;> cases charged <;> cases own' <;> cases charged' <;>
    simp [touch, widen, label, or_or_self, min_comm event.occurredAt, max_comm event.occurredAt]

/-- A row after a request through a key that is known. -/
def touched (source : SourceId) (target : String → Option AccountId) (account : Account)
    (event : NewUsageEvent) : Account :=
  let key := event.account.key event.provider
  touch (holdsKey source key account)
    (holdsKey source key account || target key = some account.id) event account

theorem touch_keeps (own charged : Bool) (event : NewUsageEvent) :
    KeepsIdentity (touch own charged event) := by
  cases own <;> cases charged <;> exact ⟨fun _ => rfl, fun _ => rfl, fun _ => rfl, fun _ => rfl⟩

theorem touched_keeps (target : String → Option AccountId) (event : NewUsageEvent) :
    KeepsIdentity fun account => touched source target account event where
  id := fun account => (touch_keeps _ _ event).id account
  sourceId := fun account => (touch_keeps _ _ event).sourceId account
  upstreamKey := fun account => (touch_keeps _ _ event).upstreamKey account
  mergedInto := fun account => (touch_keeps _ _ event).mergedInto account

/-- A row with the key and the id of another is touched as that one is. -/
theorem touched_alike (target : String → Option AccountId) {account next : Account}
    (sourceId : next.sourceId = account.sourceId)
    (upstreamKey : next.upstreamKey = account.upstreamKey) (id : next.id = account.id)
    (event : NewUsageEvent) :
    touched source target next event =
      touch (holdsKey source (event.account.key event.provider) account)
        (holdsKey source (event.account.key event.provider) account ||
          target (event.account.key event.provider) = some account.id) event next := by
  unfold touched holdsKey
  rw [sourceId, upstreamKey, id]

/-- Of two requests through a key the last one counts, but for the window it was seen in. -/
theorem touched_overwrites (target : String → Option AccountId) :
    Overwrites (touched source target) := by
  constructor
  · intro account event
    have keeps := @touched_keeps source target event
    rw [touched_alike target (keeps.sourceId account) (keeps.upstreamKey account) (keeps.id account)]
    exact touch_touch _ _ event account
  · intro account event other
    have keeps := @touched_keeps source target event
    have keeps' := @touched_keeps source target other
    have first := @touched_alike source target account _ (keeps.sourceId account) (keeps.upstreamKey account)
      (keeps.id account) other
    have second := @touched_alike source target account _ (keeps'.sourceId account) (keeps'.upstreamKey account)
      (keeps'.id account) event
    have third := @touched_alike source target account _
      ((keeps'.sourceId (touched source target account event)).trans (keeps.sourceId account))
      ((keeps'.upstreamKey (touched source target account event)).trans (keeps.upstreamKey account))
      ((keeps'.id (touched source target account event)).trans (keeps.id account)) event
    rw [third, first, second]
    exact touch_between _ _ _ _ event other account

/-- A request through a key that is known touches every row. -/
theorem attributed_known {accounts : List Account} {row : Account} {event : NewUsageEvent}
    (named : row.upstreamKey = event.account.key event.provider)
    (known : (accounts.find? (holdsKey row.sourceId row.upstreamKey)).isSome = true) :
    attributed row event.account event.occurredAt accounts =
      accounts.map fun account =>
        touched row.sourceId (targetOf accounts row.sourceId) account event := by
  obtain ⟨stored, found⟩ := Option.isSome_iff_exists.mp known
  have target : targetOf accounts row.sourceId row.upstreamKey = stored.mergedInto := by
    rw [targetOf, found, Option.bind_some]
  simp only [attributed, found, touched, ← named, target]
  cases stored.mergedInto with
  | none =>
    apply List.map_congr_left
    intro account _
    by_cases own : holdsKey row.sourceId row.upstreamKey account = true <;> simp [own, touch, seen]
  | some into =>
    simp only [List.map_map]
    apply List.map_congr_left
    intro account _
    by_cases own : holdsKey row.sourceId row.upstreamKey account = true <;>
      by_cases same : account.id = into <;>
      simp [own, same, eq_comm (a := into) (b := account.id), touch, seen, widen]

theorem targetOf_map {change : Account → Account} (keeps : KeepsIdentity change)
    (accounts : List Account) : targetOf (accounts.map change) source = targetOf accounts source := by
  funext key
  have same : Account.mergedInto ∘ change = Account.mergedInto := funext keeps.mergedInto
  rw [targetOf, find_map keeps, Option.bind_map, same, targetOf]

/-- Every account is as these requests leave it, and doing them again would change none. -/
structure Steady (source : SourceId) (done : List NewUsageEvent) (accounts : List Account) : Prop where
  known : ∀ event ∈ done,
    (accounts.find? (holdsKey source (event.account.key event.provider))).isSome = true
  fixed : ∀ account ∈ accounts,
    done.foldl (touched source (targetOf accounts source)) account = account
  targets : ∀ account ∈ accounts, ∀ target, account.mergedInto = some target →
    HasAccount accounts target

variable {done : List NewUsageEvent} {accounts : List Account}

theorem Steady.again (steady : Steady source done accounts) {event : NewUsageEvent}
    (known : (accounts.find? (holdsKey source (event.account.key event.provider))).isSome = true) :
    Steady source (done ++ [event])
      (accounts.map fun account => touched source (targetOf accounts source) account event) := by
  have keeps := @touched_keeps source (targetOf accounts source) event
  have target := @targetOf_map source _ keeps accounts
  constructor
  · intro other member
    rw [find_map keeps, Option.isSome_map]
    rcases List.mem_append.mp member with earlier | here
    · exact steady.known other earlier
    · rw [List.mem_singleton.mp here]
      exact known
  · intro next member
    obtain ⟨account, stored, rfl⟩ := List.mem_map.mp member
    rw [target]
    exact (touched_overwrites _).settled (steady.fixed account stored) event
  · intro next member into merged
    obtain ⟨account, stored, rfl⟩ := List.mem_map.mp member
    obtain ⟨found, present, same⟩ := steady.targets account stored into
      ((keeps.mergedInto account).symm.trans merged)
    exact ⟨_, List.mem_map_of_mem present, (keeps.id found).trans same⟩

theorem Steady.start (targets : ∀ account ∈ accounts, ∀ target, account.mergedInto = some target →
    HasAccount accounts target) : Steady source [] accounts :=
  ⟨by simp, fun _ _ => rfl, targets⟩

/-- A key's first request adds the row it finds when it comes again. -/
theorem Steady.first (steady : Steady source done accounts) {event : NewUsageEvent}
    {row : Account} (absent : accounts.find? (holdsKey source row.upstreamKey) = none)
    (unused : ∀ account ∈ accounts, account.id ≠ row.id) (inSource : row.sourceId = source)
    (named : row.upstreamKey = event.account.key event.provider) (unmerged : row.mergedInto = none)
    (new : seen event.account event.occurredAt row = row) :
    Steady source (done ++ [event]) (accounts ++ [row]) := by
  have owned : holdsKey source (event.account.key event.provider) row = true :=
    holdsKey_iff.mpr ⟨inSource, named⟩
  rw [named] at absent
  have missing : ∀ account ∈ accounts,
      holdsKey source (event.account.key event.provider) account = false := fun account member =>
    Bool.eq_false_iff.mpr (List.find?_eq_none.mp absent account member)
  have earlier : ∀ other ∈ done, targetOf (accounts ++ [row]) source (other.account.key other.provider) =
      targetOf accounts source (other.account.key other.provider) := by
    intro other member
    obtain ⟨stored, found⟩ := Option.isSome_iff_exists.mp (steady.known other member)
    rw [targetOf, List.find?_append, found, Option.some_or, targetOf, found]
  have here : targetOf (accounts ++ [row]) source (event.account.key event.provider) = none := by
    rw [targetOf, List.find?_append, absent, Option.none_or, List.find?_cons_of_pos owned,
      Option.bind_some, unmerged]
  have replayed (account : Account) :
      done.foldl (touched source (targetOf (accounts ++ [row]) source)) account =
        done.foldl (touched source (targetOf accounts source)) account := by
    apply List.foldl_ext
    intro state other member
    simp only [touched, earlier other member]
  constructor
  · intro other member
    rw [List.find?_append]
    rcases List.mem_append.mp member with before | now
    · rw [Option.isSome_or, steady.known other before, Bool.true_or]
    · rw [List.mem_singleton.mp now, List.find?_cons_of_pos owned, Option.isSome_or,
        Option.isSome_some, Bool.or_true]
  · intro account member
    rw [List.foldl_append, replayed, List.foldl_cons, List.foldl_nil, touched, here]
    rcases List.mem_append.mp member with before | now
    · rw [steady.fixed account before]
      simp [missing account before, touch]
    · rw [List.mem_singleton.mp now]
      -- No earlier request is of the new row's key or charged to it.
      have untouched : done.foldl (touched source (targetOf accounts source)) row = row := by
        apply foldl_unmoved
        intro other before
        obtain ⟨stored, found⟩ := Option.isSome_iff_exists.mp (steady.known other before)
        have another : holdsKey source (other.account.key other.provider) row = false := by
          refine Bool.eq_false_iff.mpr fun same => ?_
          rw [← (holdsKey_iff.mp same).2, named, absent] at found
          cases found
        have elsewhere : targetOf accounts source (other.account.key other.provider) ≠ some row.id := by
          rw [targetOf, found, Option.bind_some]
          intro merged
          obtain ⟨account, present, same⟩ :=
            steady.targets stored (List.mem_of_find?_eq_some found) row.id merged
          exact unused account present same
        simp [touched, another, elsewhere, touch]
      rw [untouched]
      simpa [owned, touch, seen] using new
  · intro account member target merged
    rcases List.mem_append.mp member with before | now
    · obtain ⟨found, present, same⟩ := steady.targets account before target merged
      exact ⟨found, List.mem_append_left _ present, same⟩
    · rw [List.mem_singleton.mp now, unmerged] at merged
      cases merged

theorem Steady.attributed (steady : Steady source done accounts) {event : NewUsageEvent}
    {candidate : AccountId} (unused : ∀ account ∈ accounts, account.id ≠ candidate) :
    Steady source (done ++ [event]) (attributed
      (event.account.row candidate source event.provider event.occurredAt) event.account
      event.occurredAt accounts) := by
  let row := event.account.row candidate source event.provider event.occurredAt
  cases found : accounts.find? (holdsKey source (event.account.key event.provider)) with
  | none =>
    have added : Intake.attributed row event.account event.occurredAt accounts = accounts ++ [row] := by
      rw [Intake.attributed, show accounts.find? (holdsKey row.sourceId row.upstreamKey) = none from found]
    rw [added]
    have new : seen event.account event.occurredAt row = row := by
      simp [seen, widen, row, NewAccount.row]
    exact steady.first found unused rfl rfl rfl new
  | some stored =>
    have known : (accounts.find?
        (holdsKey source (event.account.key event.provider))).isSome = true := by rw [found]; rfl
    rw [@attributed_known accounts row event rfl known]
    exact steady.again known

/-- All of these records are stored, but for those that are rejected. -/
structure Settled (runtime : Sql.Runtime) (source : SourceId) (records : List Incoming)
    (tables : Tables) : Prop where
  stored : ∀ event ∈ requestsIn records,
    tables.events.any (holdsHash source (event.recordHash runtime)) = true
  steady : Steady source (requestsIn records) tables.accounts

theorem Settled.start {charged : Prop} {tables : Tables} (valid : Valid charged tables) :
    Settled runtime source [] tables := by
  refine ⟨by simp [requestsIn], Steady.start fun account member target merged => ?_⟩
  exact (valid.merges account member target merged).unmerged.hasAccount

theorem settled_ignores {records : List Incoming} :
    IgnoresFeed (Settled runtime source records) := fun _ _ settled => ⟨settled.stored, settled.steady⟩

variable {records : List Incoming} {receivedAt : Timestamp} {progress next : Progress}
  {tables base after : Tables} {record : Incoming}

theorem Settled.taken (settled : Settled runtime source records tables)
    (taken : Taken runtime source receivedAt tables progress record next after) :
    Settled runtime source (records ++ [record]) after := by
  cases taken with
  | rejected error payload id =>
    have same := @requestsIn_append_rejected records error payload
    exact ⟨same ▸ settled.stored, same ▸ settled.steady⟩
  | duplicate event candidate accountId isNewCredential accounts charged owner known unused =>
    have same := @requestsIn_append_record records event
    refine ⟨same ▸ fun other member => ?_, same ▸ charged ▸ settled.steady.attributed unused⟩
    rcases List.mem_append.mp member with before | now
    · exact settled.stored other before
    · rw [List.mem_singleton.mp now]
      exact known
  | accepted event candidate accountId isNewCredential accounts id arrival stored charged owner
      unknown fresh appended unused =>
    have same := @requestsIn_append_record records event
    rw [appended]
    refine ⟨same ▸ fun other member => ?_, same ▸ charged ▸ settled.steady.attributed unused⟩
    rw [List.any_append]
    rcases List.mem_append.mp member with before | now
    · rw [settled.stored other before, Bool.true_or]
    · rw [List.mem_singleton.mp now]
      simp [NewUsageEvent.row, holdsHash]

theorem holds_settled (batch : List Incoming) :
    Holds (Settled runtime source records) (ingest runtime source batch)
      fun ending tables => ∀ progress, ending = .committed progress →
        Settled runtime source (records ++ batch) tables := by
  rw [ingest_eq]
  apply Holds.reading_then
  intro receivedAt
  apply Holds.reading_then
  intro now
  apply (@holds_ingesting_taken runtime source
    (fun done _ tables => Settled runtime source (records ++ done) tables)
    (fun _ _ => settled_ignores) batch receivedAt now ?_).weaken
  · intro tables settled
    rw [List.append_nil]
    exact settled
  · exact fun _ _ final => final
  · intro done record rest whole progress tables next after settled taken
    rw [← List.append_assoc]
    exact settled.taken taken

/-- The events after records came in: those from before, and new ones that are theirs. -/
structure Grown (runtime : Sql.Runtime) (source : SourceId) (base : Tables)
    (records : List Incoming) (tables : Tables) : Prop where
  sources : tables.sources = base.sources
  kept : ∀ event ∈ base.events, event ∈ tables.events
  new : ∀ event ∈ tables.events, event ∈ base.events ∨ ∃ request ∈ requestsIn records,
    event.sourceId = source ∧ event.occurredAt = request.occurredAt ∧
      event.recordHash = request.recordHash runtime
  stored : ∀ event ∈ requestsIn records,
    tables.events.any (holdsHash source (event.recordHash runtime)) = true

theorem Grown.start : Grown runtime source base [] base :=
  ⟨rfl, fun _ member => member, fun _ member => .inl member, by simp [requestsIn]⟩

theorem Grown.taken (grown : Grown runtime source base records tables)
    (taken : Taken runtime source receivedAt tables progress record next after) :
    Grown runtime source base (records ++ [record]) after := by
  have before {event : UsageEvent} (member : event ∈ tables.events) :
      event ∈ base.events ∨ ∃ request ∈ requestsIn (records ++ [record]),
        event.sourceId = source ∧ event.occurredAt = request.occurredAt ∧
          event.recordHash = request.recordHash runtime := by
    refine (grown.new event member).imp_right ?_
    rintro ⟨request, present, same⟩
    refine ⟨request, ?_, same⟩
    rw [requestsIn, List.filterMap_append]
    exact List.mem_append_left _ present
  cases taken with
  | rejected error payload id =>
    have same := @requestsIn_append_rejected records error payload
    exact ⟨grown.sources, grown.kept, fun event => before, same ▸ grown.stored⟩
  | duplicate event candidate accountId isNewCredential accounts charged owner known unused =>
    refine ⟨grown.sources, grown.kept, fun event => before, fun other member => ?_⟩
    rw [requestsIn_append_record] at member
    rcases List.mem_append.mp member with earlier | now
    · exact grown.stored other earlier
    · rw [List.mem_singleton.mp now]
      exact known
  | accepted event candidate accountId isNewCredential accounts id arrival stored charged owner
      unknown fresh appended unused =>
    rw [appended]
    refine ⟨grown.sources, fun other member => List.mem_append_left _ (grown.kept other member),
      fun other member => ?_, fun other member => ?_⟩
    · rcases List.mem_append.mp member with earlier | now
      · exact before earlier
      · rw [List.mem_singleton.mp now]
        refine .inr ⟨event, ?_, rfl, rfl, rfl⟩
        simp [requestsIn]
    · rw [requestsIn_append_record] at member
      rw [List.any_append]
      rcases List.mem_append.mp member with earlier | now
      · rw [grown.stored other earlier, Bool.true_or]
      · rw [List.mem_singleton.mp now]
        simp [NewUsageEvent.row, holdsHash]

theorem grown_ignores : IgnoresFeed (Grown runtime source base records) := fun _ _ grown =>
  ⟨grown.sources, grown.kept, grown.new, grown.stored⟩

theorem holds_grown (batch : List Incoming) :
    Holds (fun tables => tables = base) (ingest runtime source batch)
      fun ending tables => ∀ progress, ending = .committed progress →
        Grown runtime source base batch tables := by
  rw [ingest_eq]
  apply Holds.reading_then
  intro receivedAt
  apply Holds.reading_then
  intro now
  apply (@holds_ingesting_taken runtime source (fun done _ => Grown runtime source base done)
    (fun _ _ => grown_ignores) batch receivedAt now ?_).weaken
  · rintro tables rfl
    exact Grown.start
  · exact fun _ _ final => final
  · exact fun done record rest whole progress tables next after grown taken => grown.taken taken

def isRejected : Incoming → Bool
  | .rejected _ _ => true
  | .record _ => false

/-- The tables as records leave them that are all settled already: each account touched by those
done so far, and a dead letter more for each of them that is rejected. -/
structure Again (source : SourceId) (base : Tables) (done : List Incoming) (tables : Tables) :
    Prop where
  events : tables.events = base.events
  accounts : tables.accounts = base.accounts.map fun account =>
    (requestsIn done).foldl (touched source (targetOf base.accounts source)) account
  letters : ∃ letters, tables.deadLetters = base.deadLetters ++ letters ∧
    letters.length = done.countP isRejected

theorem Again.start : Again source base [] base := by
  refine ⟨rfl, ?_, [], (List.append_nil _).symm, rfl⟩
  exact (List.map_id _).symm

theorem again_ignores : IgnoresFeed (Again source base records) := fun _ _ again =>
  ⟨again.events, again.accounts, again.letters⟩

theorem foldl_touched_keeps (target : String → Option AccountId) (events : List NewUsageEvent) :
    KeepsIdentity fun account => events.foldl (touched source target) account := by
  induction events with
  | nil => exact ⟨fun _ => rfl, fun _ => rfl, fun _ => rfl, fun _ => rfl⟩
  | cons event rest ih =>
    have keeps := @touched_keeps source target event
    exact ⟨fun account => (ih.id _).trans (keeps.id account),
      fun account => (ih.sourceId _).trans (keeps.sourceId account),
      fun account => (ih.upstreamKey _).trans (keeps.upstreamKey account),
      fun account => (ih.mergedInto _).trans (keeps.mergedInto account)⟩

/-- What a batch of settled records reports. -/
structure Reported (done : List Incoming) (report : IngestReport) : Prop where
  accepted : report.accepted = 0
  rejected : report.rejected = done.countP isRejected

theorem Again.taken (again : Again source base records tables)
    (settled : ∀ event, record = .record event →
      base.events.any (holdsHash source (event.recordHash runtime)) = true ∧
        (base.accounts.find? (holdsKey source (event.account.key event.provider))).isSome = true)
    (taken : Taken runtime source receivedAt tables progress record next after) :
    Again source base (records ++ [record]) after ∧
      ∀ done, Reported done progress.report → Reported (done ++ [record]) next.report := by
  cases taken with
  | rejected error payload id =>
    obtain ⟨letters, stored, count⟩ := again.letters
    have same := @requestsIn_append_rejected records error payload
    refine ⟨⟨again.events, same ▸ again.accounts, letters ++ [⟨id, source, receivedAt, error, payload⟩],
      ?_, ?_⟩, fun done reported => ⟨reported.accepted, ?_⟩⟩
    · rw [stored, List.append_assoc]
    · simp [count, isRejected]
    · simp [Progress.reject, reported.rejected, isRejected]
  | duplicate event candidate accountId isNewCredential accounts charged owner known unused =>
    have same := @requestsIn_append_record records event
    have keeps := @foldl_touched_keeps source (targetOf base.accounts source) (requestsIn records)
    have present : (tables.accounts.find?
        (holdsKey source (event.account.key event.provider))).isSome = true := by
      rw [again.accounts, find_map keeps, Option.isSome_map]
      exact (settled event rfl).2
    have target : targetOf tables.accounts source = targetOf base.accounts source := by
      rw [again.accounts, targetOf_map keeps]
    refine ⟨⟨again.events, ?_, ?_⟩, fun done reported => ⟨reported.accepted, ?_⟩⟩
    · have replayed := @attributed_known tables.accounts
        (event.account.row candidate source event.provider event.occurredAt) event rfl present
      rw [charged, replayed, same]
      simp only [List.foldl_append, List.foldl_cons, List.foldl_nil]
      conv_lhs => rw [show (event.account.row candidate source event.provider event.occurredAt).sourceId
        = source from rfl, target, again.accounts, List.map_map]
      rfl
    · simpa [isRejected] using again.letters
    · simpa [Progress.duplicate, isRejected] using reported.rejected
  | accepted event candidate accountId isNewCredential accounts id arrival stored charged owner
      unknown =>
    rw [again.events, (settled event rfl).1] at unknown
    cases unknown

/-- A batch of settled records commits with nothing accepted. -/
theorem holds_again {batch whole : List Incoming} (settled : Settled runtime source whole base)
    (part : ∀ record ∈ batch, record ∈ whole) :
    Holds (Again source base records) (ingest runtime source batch)
      fun ending tables => ∀ progress, ending = .committed progress →
        Again source base (records ++ batch) tables ∧ Reported batch progress.report := by
  rw [ingest_eq]
  apply Holds.reading_then
  intro receivedAt
  apply Holds.reading_then
  intro now
  apply (@holds_ingesting_taken runtime source
    (fun done progress tables => Again source base (records ++ done) tables ∧
      Reported done progress.report) ?_ batch receivedAt now ?_).weaken
  · intro tables again
    rw [List.append_nil]
    exact ⟨again, rfl, rfl⟩
  · exact fun _ _ final => final
  · exact fun _ _ _ _ kept => ⟨again_ignores _ _ kept.1, kept.2⟩
  · rintro done record rest rfl progress tables next after ⟨again, reported⟩ taken
    have known : ∀ event, record = .record event →
        base.events.any (holdsHash source (event.recordHash runtime)) = true ∧
          (base.accounts.find?
            (holdsKey source (event.account.key event.provider))).isSome = true := by
      rintro event rfl
      have member := mem_requestsIn.mpr (part (.record event) (by simp))
      exact ⟨settled.stored event member, settled.steady.known event member⟩
    obtain ⟨final, reports⟩ := again.taken known taken
    rw [← List.append_assoc]
    exact ⟨final, reports done reported⟩

/-- Records that come in again after all others leave every account as it was. -/
theorem Again.unchanged {earlier later : List Incoming}
    (settled : Settled runtime source (earlier ++ later) base)
    (again : Again source base later tables) : tables.accounts = base.accounts := by
  rw [again.accounts]
  apply (List.map_congr_left fun account member => ?_).trans (List.map_id _)
  have fixed := settled.steady.fixed account member
  rw [requestsIn, List.filterMap_append] at fixed
  exact (touched_overwrites _).settled_suffix fixed

end MeteredUsage.Store.Redelivery

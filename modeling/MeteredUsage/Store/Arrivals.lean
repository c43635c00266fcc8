import MeteredUsage.Store.Announcements
import MeteredUsage.Store.Sparing

/-! What the change feed tells of stored usage: one invalidation for each transaction that stores,
moves or prices events, and one arrival for each new event that is not older than a day. -/

namespace MeteredUsage.Store.Arrivals
open MeteredUsage.Values MeteredUsage.Store.Schema MeteredUsage.Store.Accounts
open MeteredUsage.Store.Events MeteredUsage.Store.Snapshots MeteredUsage.Store.Ingest
open MeteredUsage.Store.Validity MeteredUsage.Store.Frames MeteredUsage.Store.Statements
open MeteredUsage.Store.Landing MeteredUsage.Store.Commands MeteredUsage.Library.Keyed
open MeteredUsage.Library.Transaction
open MeteredUsage.Store.Continuations (inOrder)
open MeteredUsage.Store.Intake (root attributed)
open MeteredUsage.Changes.Table (Subject Feed)

variable {charged : Prop} {runtime : Sql.Runtime} {source : SourceId} {base tables after : Tables}
  {receivedAt now : Timestamp}

/-- An event is not older, by the time its batch is received, than an arrival may be. -/
def isRecent (receivedAt : Timestamp) (event : UsageEvent) : Bool :=
  decide (receivedAt - arrivalWindow ≤ event.occurredAt)

/-- The account and outcome a change says a request arrived with. -/
def arrivalOf : Subject → Option (AccountId × Bool)
  | .arrival accountId failed => some (accountId, failed)
  | _ => none

/-- What the feed tells between two states. -/
def told (before after : Tables) : List Subject := after.feed.since before.feed

/-- The arrivals between two states, oldest first. -/
def arrivals (before after : Tables) : List (AccountId × Bool) := (told before after).filterMap arrivalOf

/-- What an event's arrival says of it. -/
def arrivalFor (event : UsageEvent) : AccountId × Bool := (event.accountId, event.failed)

/-- The events a transaction stored, as they are once it commits. -/
def added (before after : Tables) : List UsageEvent := after.events.drop before.events.length

theorem visible_seen {scope : Scope} {parts : Parts} {entry : Subject × Seen}
    (member : entry ∈ (snapshotOf runtime scope parts now tables).seen) : isHidden entry.1 = false := by
  simp only [snapshotOf, List.mem_append] at member
  rcases member with (account | plan) | quota
  · obtain ⟨_, _, shown⟩ := List.mem_filterMap.mp account
    obtain ⟨_, _, rfl⟩ := Option.map_eq_some_iff.mp shown
    rfl
  · obtain ⟨_, _, rfl⟩ := List.mem_map.mp plan
    rfl
  · cases parts with
    | accounts => cases quota
    | quota =>
      rcases List.mem_append.mp quota with window | reset
      · obtain ⟨_, _, rfl⟩ := List.mem_map.mp window
        rfl
      · obtain ⟨_, _, rfl⟩ := List.mem_map.mp reset
        rfl

/-- A comparison of two snapshots tells nothing of usage. -/
theorem visible_changed {before later : List (Subject × Seen)}
    (left : ∀ entry ∈ before, isHidden entry.1 = false)
    (right : ∀ entry ∈ later, isHidden entry.1 = false) :
    ∀ subject ∈ inOrder (changedSubjects before later), isHidden subject = false := by
  intro subject member
  have listed : subject ∈ changedSubjects before later := by
    rw [inOrder, List.mem_insertionSort] at member
    exact List.mem_dedup.mp member
  obtain ⟨entry, inside, rfl⟩ := List.mem_map.mp listed
  rcases List.mem_append.mp inside with earlier | later
  · exact left entry (List.mem_filter.mp earlier).1
  · exact right entry (List.mem_filter.mp later).1

theorem arrivals_visible {subjects : List Subject}
    (visible : ∀ subject ∈ subjects, isHidden subject = false) :
    subjects.filterMap arrivalOf = [] ∧ subjects.count .usage = 0 := by
  constructor
  · rw [List.filterMap_eq_nil_iff]
    intro subject member
    have shown := visible subject member
    cases subject with
    | arrival => cases shown
    | _ => rfl
  · apply List.count_eq_zero.mpr
    intro member
    cases visible .usage member

/-- Every account is still there, and what it resolves to has moved. -/
def Carried (move : AccountId → AccountId) (before after : List Account) : Prop :=
  ∀ account ∈ before, ∃ later ∈ after, later.id = account.id ∧ root later = move (root account)

theorem Carried.refl (accounts : List Account) : Carried id accounts accounts :=
  fun account member => ⟨account, member, rfl, rfl⟩

theorem Carried.trans {first second : AccountId → AccountId} {before middle after : List Account}
    (left : Carried first before middle) (right : Carried second middle after) :
    Carried (second ∘ first) before after := by
  intro account member
  obtain ⟨next, stays, named, moved⟩ := left account member
  obtain ⟨later, remains, same, movedOn⟩ := right next stays
  exact ⟨later, remains, same.trans named, movedOn.trans (congrArg second moved)⟩

theorem carried_map {change : Account → Account} (keeps : KeepsIdentity change) (accounts : List Account) :
    Carried id accounts (accounts.map change) := by
  intro account member
  refine ⟨change account, List.mem_map_of_mem member, keeps.id account, ?_⟩
  rw [root, root, keeps.id, keeps.mergedInto]
  rfl

/-- A request leaves every account where it was. -/
theorem carried_attributed (row : Account) (new : NewAccount) (seenAt : Timestamp)
    (accounts : List Account) : Carried id accounts (attributed row new seenAt accounts) := by
  unfold attributed
  split
  next => exact fun account member => ⟨account, List.mem_append_left _ member, rfl, rfl⟩
  next known _ =>
    have seenAs := carried_map ((keeps_seen new seenAt).onlyWhere fun account =>
      holdsKey row.sourceId row.upstreamKey account = true) accounts
    cases known.mergedInto with
    | none => exact seenAs
    | some target =>
      exact seenAs.trans (carried_map ((keeps_widen seenAt seenAt).onlyWhere fun account =>
        account.id = target) _)

/-- What one record leaves of the events, of the progress of its batch and of the feed. -/
structure Extends (receivedAt : Timestamp) (base : Tables) (progress : Progress) (added : List UsageEvent)
    (next : Progress) (tables : Tables) : Prop where
  events : tables.events = base.events ++ added
  feed : tables.feed = base.feed
  accounts : Carried id base.accounts tables.accounts
  accepted : next.report.accepted = progress.report.accepted + added.length
  arrivals : next.arrivals = progress.arrivals ++ (added.filter (isRecent receivedAt)).map arrivalFor

theorem holds_ingestNext (progress : Progress) (record : Incoming) :
    Holds (fun tables => tables = base) (ingestNext runtime source receivedAt progress record)
      fun next tables => ∃ added, Extends receivedAt base progress added next tables := by
  cases record with
  | rejected error payload =>
    apply Holds.nextId_then
    intro id
    apply attempt_at
    intro _ middle inserted
    apply Holds.pure
    rintro tables rfl
    rw [Intake.insertDeadLetter_eq inserted]
    exact ⟨[], (List.append_nil _).symm, rfl, .refl _, rfl, (List.append_nil _).symm⟩
  | record event =>
    apply Holds.nextId_then
    intro candidate
    apply (Intake.holds_resolve candidate event.provider event.account event.occurredAt).bind
    intro accountId
    apply Holds.given
    intro _
    apply Holds.nextId_then
    intro id
    apply attempt_at
    intro isNew middle inserted
    rcases Intake.insertEvent_eq inserted with ⟨rfl, _, rfl⟩ | ⟨rfl, _, _, rfl⟩
    · apply Holds.pure
      rintro tables rfl
      exact ⟨[], (List.append_nil _).symm, rfl, carried_attributed _ _ _ _, rfl,
        (List.append_nil _).symm⟩
    · apply (Intake.holds_observe accountId event receivedAt).bind
      intro _
      apply Holds.pure
      rintro tables rfl
      refine ⟨[event.row runtime id source accountId], rfl, rfl, carried_attributed _ _ _ _, rfl, ?_⟩
      by_cases recent : receivedAt - arrivalWindow ≤ event.occurredAt
      · have isNew : isRecent receivedAt (event.row runtime id source accountId) = true :=
          decide_eq_true recent
        rw [List.filter_singleton, isNew]
        simp only [Progress.accept, if_pos recent]
        rfl
      · have isOld : isRecent receivedAt (event.row runtime id source accountId) = false :=
          decide_eq_false recent
        rw [List.filter_singleton, isOld]
        simp only [Progress.accept, if_neg recent]
        rfl

theorem Extends.trans {progress next later : Progress} {first second : List UsageEvent}
    {middle : Tables} (left : Extends receivedAt base progress first next middle)
    (right : Extends receivedAt middle next second later tables) :
    Extends receivedAt base progress (first ++ second) later tables where
  events := by rw [right.events, left.events, List.append_assoc]
  feed := right.feed.trans left.feed
  accounts := left.accounts.trans right.accounts
  accepted := by rw [right.accepted, left.accepted, List.length_append, Nat.add_assoc]
  arrivals := by rw [right.arrivals, left.arrivals, List.filter_append, List.map_append, List.append_assoc]

theorem holds_ingestAll (records : List Incoming) :
    Holds (fun tables => tables = base) (records.foldlM (ingestNext runtime source receivedAt) .start)
      fun next tables => ∃ added, Extends receivedAt base .start added next tables := by
  have folded : Holds (fun tables => ∃ added, Extends receivedAt base .start added .start tables)
      (records.foldlM (ingestNext runtime source receivedAt) .start)
      fun next tables => ∃ added, Extends receivedAt base .start added next tables := by
    apply @Holds.foldlM _ _ _ _
      (fun _ progress tables => ∃ added, Extends receivedAt base .start added progress tables)
    intro done record rest progress _
    constructor
    rintro session next finish ⟨added, extended⟩ ran
    obtain ⟨more, extends_⟩ := (holds_ingestNext progress record).ends session next finish rfl ran
    exact ⟨added ++ more, extended.trans extends_⟩
  apply folded.weaken
  · rintro _ rfl
    exact ⟨[], (List.append_nil _).symm, rfl, .refl _, rfl, rfl⟩
  · exact fun _ _ extended => extended

/-- The change of an arrival. -/
def arrived (arrival : AccountId × Bool) : Subject := .arrival arrival.1 arrival.2

/-- What a batch stores, and what the feed tells of it: the accounts it changed, the arrivals of its
new events in the order of its records, and the usage. -/
structure Batched (receivedAt : Timestamp) (base middle : Tables) (added : List UsageEvent)
    (changes : List Subject) (after : Tables) : Prop where
  events : middle.events = base.events ++ added
  feed : middle.feed = base.feed
  accounts : Carried id base.accounts middle.accounts
  visible : ∀ subject ∈ changes, isHidden subject = false
  recorded : Recorded middle (changes ++ (((added.filter (isRecent receivedAt)).map arrivalFor).map arrived ++
    if added = [] then [] else [.usage])) after

theorem holds_recordArrivals {middle : Tables} {done : List Subject} (arrivals : List (AccountId × Bool)) :
    Holds (Recorded middle done) (forM arrivals fun arrival => record (.arrival arrival.1 arrival.2))
      fun _ => Recorded middle (done ++ arrivals.map arrived) := by
  induction arrivals generalizing done with
  | nil => exact Holds.pure fun _ recorded => (List.append_nil done).symm ▸ recorded
  | cons arrival rest ih =>
    rw [List.forM_cons]
    apply (holds_record_one _).bind
    intro _
    have assoc : done ++ (arrival :: rest).map arrived = done ++ [arrived arrival] ++ rest.map arrived := by
      simp
    rw [assoc]
    exact ih

theorem holds_recordUsage {middle : Tables} {done : List Subject} (condition : Prop)
    [Decidable condition] :
    Holds (Recorded middle done) (onlyIf condition (record .usage))
      fun _ => Recorded middle (done ++ if condition then [.usage] else []) := by
  apply Holds.onlyIf
  · intro taken
    rw [if_pos taken]
    exact holds_record_one .usage
  · intro skipped tables recorded
    rw [if_neg skipped, List.append_nil]
    exact recorded

/-- A comparison of the state a write started from tells only of what it compares. -/
theorem holds_compared_visible {middle : Tables} {done : List Subject} {scope : Scope} {parts : Parts} :
    Holds (Recorded middle done) (recordChanges runtime (snapshotOf runtime scope parts now base))
      fun _ tables => ∃ changes, Recorded middle (done ++ changes) tables ∧
        ∀ subject ∈ changes, isHidden subject = false := by
  apply (holds_compared _).weaken fun _ recorded => recorded
  intro _ tables recorded
  exact ⟨_, recorded, visible_changed (fun _ => visible_seen) fun _ => visible_seen⟩

theorem holds_ingesting_told (records : List Incoming) :
    Holds (fun tables => tables = base) (ingesting runtime source records receivedAt now)
      (OnCommit fun after => ∃ middle added changes,
        Batched receivedAt base middle added changes after) := by
  apply read_at
  apply (holds_ingestAll records).bind
  intro progress
  apply Holds.each
  rintro middle ⟨added, extended⟩
  apply holds_compared_visible.bind
  intro _
  apply Holds.of_exists
  intro changes
  apply Holds.given
  intro visible
  apply (holds_recordArrivals _).bind
  intro _
  apply (holds_recordUsage _).bind
  intro _
  apply Holds.commit
  intro tables recorded
  refine ⟨middle, added, changes, extended.events, extended.feed, extended.accounts, visible, ?_⟩
  rw [extended.arrivals, extended.accepted] at recorded
  cases added with
  | nil => simpa [Progress.start] using recorded
  | cons event rest => simpa [Progress.start] using recorded

/-- Every account that is told of comes before every arrival. -/
def AccountsFirst (subjects : List Subject) : Prop :=
  ∀ before arrival rest, subjects = before ++ arrived arrival :: rest →
    ∀ accountId, .account accountId ∈ subjects → .account accountId ∈ before

theorem accountsFirst_of_quiet {subjects : List Subject} (quiet : subjects.filterMap arrivalOf = []) :
    AccountsFirst subjects := by
  rintro before arrival rest rfl
  have none_arrives := List.filterMap_eq_nil_iff.mp quiet (arrived arrival) (by simp)
  cases none_arrives

/-- What a committed write leaves of usage, and what the feed tells of it: the accounts of its
events may have moved, new events follow the stored ones, an arrival is told of each new one that
is recent, and the usage at most once, and once where any event is another. -/
structure Tells (receivedAt : Timestamp) (base middle : Tables) (move : AccountId → AccountId)
    (kept added : List UsageEvent) (subjects : List Subject) : Prop where
  feed : middle.feed = base.feed
  accounts : Carried move base.accounts middle.accounts
  events : middle.events = kept ++ added
  moved : kept.map arrivalFor = base.events.map fun event => (move event.accountId, event.failed)
  arrivals : subjects.filterMap arrivalOf = (added.filter (isRecent receivedAt)).map arrivalFor
  first : AccountsFirst subjects
  usage : subjects.count .usage ≤ 1
  changed : middle.events ≠ base.events → subjects.count .usage = 1

theorem Batched.tells {middle : Tables} {added : List UsageEvent} {changes : List Subject}
    (batched : Batched receivedAt base middle added changes after) :
    ∃ subjects, Tells receivedAt base middle id base.events added subjects ∧
      Recorded middle subjects after := by
  obtain ⟨quiet, silent⟩ := arrivals_visible batched.visible
  have arriving (recent : List (AccountId × Bool)) :
      (recent.map arrived).filterMap arrivalOf = recent ∧ (recent.map arrived).count .usage = 0 := by
    constructor
    · rw [List.filterMap_map]
      exact List.filterMap_some
    · apply List.count_eq_zero.mpr
      intro member
      obtain ⟨_, _, same⟩ := List.mem_map.mp member
      cases same
  refine ⟨_, ⟨batched.feed, batched.accounts, batched.events, rfl, ?_, ?_, ?_, ?_⟩, batched.recorded⟩
  · rw [List.filterMap_append, List.filterMap_append, quiet, (arriving _).1, List.nil_append]
    split <;> exact List.append_nil _
  · intro before arrival rest same accountId listed
    -- The first arrival comes after everything the comparison told of.
    have changed : .account accountId ∈ changes := by
      rcases List.mem_append.mp listed with inside | later
      · exact inside
      · rcases List.mem_append.mp later with arriving | ending
        · obtain ⟨_, _, other⟩ := List.mem_map.mp arriving
          cases other
        · split at ending
          next => cases ending
          next => cases List.mem_singleton.mp ending
    rcases List.append_eq_append_iff.mp same with ⟨more, rfl, _⟩ | ⟨more, whole, tail⟩
    · exact List.mem_append_left _ changed
    · cases more with
      | nil =>
        rw [List.append_nil] at whole
        exact whole ▸ changed
      | cons head others =>
        have arrives : arrived arrival ∈ changes := by
          rw [whole, ← (List.cons.inj tail).1]
          simp
        cases batched.visible _ arrives
  · rw [List.count_append, List.count_append, silent, (arriving _).2]
    split <;> decide
  · intro changed
    have stored : added ≠ [] := by
      rintro rfl
      exact changed (batched.events.trans (List.append_nil _))
    rw [List.count_append, List.count_append, silent, (arriving _).2, if_neg stored]
    rfl

theorem tells_rewritten {events : List UsageEvent} {rewrites : Prop} [Decidable rewrites]
    {middle : Tables} (same : middle = { base with events := events })
    (moved : events.map arrivalFor = base.events.map arrivalFor)
    (unchanged : ¬rewrites → events = base.events) :
    Tells receivedAt base middle id events [] (if rewrites then [.usage] else []) := by
  subst same
  refine ⟨rfl, .refl _, (List.append_nil _).symm, moved, ?_, accountsFirst_of_quiet ?_, ?_,
    fun changed => ?_⟩
  · split <;> rfl
  · split <;> rfl
  · split <;> decide
  · rw [if_pos (not_not.mp fun kept => changed (unchanged kept))]
    rfl

/-- What a pricing leaves of the events it has no price for. -/
theorem fillTables_unchanged {pricedAs : Cost.PricedAs}
    (filled : (Cost.fillTables runtime pricedAs base).1 = []) :
    (Cost.fillTables runtime pricedAs base).2.events = base.events := by
  have unpriced := List.filter_eq_nil_iff.mp (List.map_eq_nil_iff.mp filled)
  refine (List.map_congr_left fun event member => ?_).trans (List.map_id _)
  have free := unpriced event member
  rw [Option.not_isSome_iff_eq_none] at free
  rw [free]
  rfl

theorem fillTables_moved (pricedAs : Cost.PricedAs) (tables : Tables) :
    (Cost.fillTables runtime pricedAs tables).2.events.map arrivalFor = tables.events.map arrivalFor := by
  refine List.map_map.trans (List.map_congr_left fun event _ => ?_)
  dsimp only [Function.comp_apply]
  split <;> rfl

theorem holds_fill_told (pricedAs : Cost.PricedAs) :
    Holds (fun tables => tables = base) (Cost.fill runtime pricedAs) (OnCommit fun after =>
      ∃ middle kept subjects, Tells receivedAt base middle id kept [] subjects ∧
        Recorded middle subjects after) := by
  apply attempt_at
  rintro filled middle ⟨⟩
  apply Holds.each
  rintro _ rfl
  apply (holds_recordUsage _).bind
  intro _
  apply Holds.commit
  intro tables recorded
  exact ⟨_, _, _, tells_rewritten rfl (fillTables_moved pricedAs base) fun unfilled =>
    fillTables_unchanged (not_not.mp unfilled), recorded⟩

theorem forgetTables_unchanged {start finish : Option Timestamp}
    (cleared : (Cost.forgetTables start finish base).1 = 0) :
    (Cost.forgetTables start finish base).2 = base := by
  have outside := List.filter_eq_nil_iff.mp (List.length_eq_zero_iff.mp cleared)
  have same : base.events.map (fun event =>
      if Cost.inRange start finish event then Cost.forgotten base event else event) = base.events :=
    (List.map_congr_left fun event member => if_neg (outside event member)).trans (List.map_id _)
  simp only [Cost.forgetTables, same]

theorem forgetTables_moved (start finish : Option Timestamp) :
    (Cost.forgetTables start finish base).2.events.map arrivalFor = base.events.map arrivalFor := by
  refine List.map_map.trans (List.map_congr_left fun event _ => ?_)
  dsimp only [Function.comp_apply]
  split <;> rfl

theorem holds_reprice_told (pricedAs : Cost.PricedAs) (start finish : Option Timestamp) :
    Holds (fun tables => tables = base) (Cost.reprice runtime pricedAs start finish)
      (OnCommit fun after => ∃ middle kept subjects, Tells receivedAt base middle id kept [] subjects ∧
        Recorded middle subjects after) := by
  apply attempt_at
  rintro cleared cleanup ⟨⟩
  apply attempt_at
  rintro filled middle ⟨⟩
  apply Holds.each
  rintro _ rfl
  apply (holds_recordUsage _).bind
  intro _
  apply Holds.commit
  intro tables recorded
  refine ⟨_, _, _, tells_rewritten rfl ?_ fun unchanged => ?_, recorded⟩
  · exact (fillTables_moved pricedAs _).trans (forgetTables_moved start finish)
  · obtain ⟨uncleared, unfilled⟩ := not_or.mp unchanged
    exact (fillTables_unchanged (not_not.mp unfilled)).trans
      (congrArg Tables.events (forgetTables_unchanged (Nat.eq_zero_of_not_pos uncleared)))

/-- The tables once an account's events, plans and merged accounts are another's. -/
def combined (id into : AccountId) (merged : Account) (tables : Tables) : Tables :=
  updateAccount into (widen merged.firstSeenAt merged.lastSeenAt)
    (AccountWrites.pointAt id into (AccountWrites.movePlans id into (AccountWrites.moveEvents id into tables)))

theorem holds_combine_told (id into : AccountId) (merged : Account) :
    Holds (fun tables => tables = base) (AccountWrites.combine id into merged) fun _ =>
      Recorded (combined id into merged base)
        (if base.events.any (fun event => event.accountId = id) = true then [.usage] else []) := by
  -- The other statements of the merge leave what is recorded as it is.
  have through (change : Tables → Tables) {middle : Tables} {subjects : List Subject}
      (apart : ∀ tables feed, change { tables with feed := feed } = { change tables with feed := feed })
      (same : ∀ tables, (change tables).feed = tables.feed) :
      Holds (Recorded middle subjects) (execute change) fun _ => Recorded (change middle) subjects := by
    apply holds_execute
    rintro tables ⟨entries, rfl, named⟩
    exact ⟨entries, by rw [apart, same], named⟩
  apply fetch_at
  apply execute_at
  apply Holds.each
  rintro _ rfl
  apply (holds_recordUsage _).bind
  intro _
  rw [List.nil_append]
  apply (through (AccountWrites.movePlans id into) (fun _ _ => rfl) fun _ => rfl).bind
  intro _
  apply (through (AccountWrites.pointAt id into) (fun _ _ => rfl) fun _ => rfl).bind
  intro _
  exact through (updateAccount into (widen merged.firstSeenAt merged.lastSeenAt)) (fun _ _ => rfl)
    fun _ => rfl

/-- Whoever is merged into an account resolves where that account does. -/
theorem carried_combined {id into : AccountId} {merged : Account}
    (unmerged : ∀ account ∈ base.accounts, account.id = id → account.mergedInto = none) :
    Carried (Sparing.moved id into) base.accounts (combined id into merged base).accounts := by
  have pointed : Carried (Sparing.moved id into) base.accounts
      (AccountWrites.pointAt id into base).accounts := by
    intro account member
    refine ⟨_, List.mem_map_of_mem member, ?_, ?_⟩
    · split <;> rfl
    · by_cases named : account.id = id
      · have alone := unmerged account member named
        simp [root, Sparing.moved, named, alone]
      · cases target : account.mergedInto with
        | none => simp [root, Sparing.moved, named, target]
        | some other => by_cases points : other = id <;> simp [root, Sparing.moved, named, target, points]
  exact pointed.trans (carried_map ((keeps_widen merged.firstSeenAt merged.lastSeenAt).onlyWhere
    fun account => account.id = into) _)

/-- What a merge finds: two accounts of one source, neither of them merged, and the continuation
where it is required. -/
structure Joins (base : Tables) (id into : AccountId) (requires : Bool) (merged target : Account) : Prop where
  differs : id ≠ into
  mergedFound : Snapshots.accountOf base id = some merged
  targetFound : Snapshots.accountOf base into = some target
  oneSource : merged.sourceId = target.sourceId
  mergedRoot : merged.mergedInto = none
  targetRoot : target.mergedInto = none
  continues : requires = true → (Continuations.load base id into).isSome = true

/-- What a merge finds and leaves. -/
theorem holds_merge_combined (id into : AccountId) (requires : Bool) :
    Holds (fun tables => tables = base) (AccountWrites.merge runtime id into requires)
      (OnCommit fun after => ∃ merged target changes, Joins base id into requires merged target ∧
        (∀ subject ∈ changes, isHidden subject = false) ∧
        Recorded (combined id into merged base)
          ((if base.events.any (fun event => event.accountId = id) = true then [.usage] else []) ++
            changes) after) := by
  apply Holds.refuseIf_then
  intro differs
  apply fetch_at
  apply Holds.require_then
  intro merged mergedFound
  apply fetch_at
  apply Holds.require_then
  intro target targetFound
  apply Holds.refuseIf_then
  intro oneSource
  apply Holds.refuseIf_then
  intro mergedRoot
  apply Holds.refuseIf_then
  intro targetRoot
  have rechecked : Holds (fun tables => tables = base)
      (onlyIf requires do
        let continuation ← fetch (Continuations.load · id into)
        refuseIf continuation.isNone (.merge .continuationChanged))
      fun _ tables => tables = base ∧
        (requires = true → (Continuations.load base id into).isSome = true) := by
    apply Holds.onlyIf
    · intro _
      apply fetch_at
      apply Holds.refuseIf
      intro continues _ same
      refine ⟨same, fun _ => ?_⟩
      rwa [Option.isNone_iff_eq_none, ← Option.not_isSome_iff_eq_none, not_not] at continues
    · exact fun skipped _ same => ⟨same, fun required => absurd required skipped⟩
  apply rechecked.bind
  intro _
  apply Holds.given
  intro continues
  apply read_then
  intro now
  apply (holds_combine_told id into merged).bind
  intro _
  apply holds_compared_visible.bind
  intro _
  apply Holds.of_exists
  intro changes
  apply Holds.given
  intro visible
  apply Holds.commit
  intro tables recorded
  exact ⟨merged, target, changes, ⟨differs, mergedFound, targetFound, not_not.mp oneSource,
    by simpa using mergedRoot, by simpa using targetRoot, continues⟩, visible, recorded⟩

theorem holds_merge_told (valid : Valid charged base) (id into : AccountId) (requires : Bool) :
    Holds (fun tables => tables = base) (AccountWrites.merge runtime id into requires)
      (OnCommit fun after => ∃ middle kept subjects,
        Tells receivedAt base middle (Sparing.moved id into) kept [] subjects ∧
          Recorded middle subjects after) := by
  apply (holds_merge_combined id into requires).weaken fun _ same => same
  intro ending tables committed
  cases ending with
  | dropped _ => trivial
  | committed _ =>
    obtain ⟨merged, target, changes, joins, visible, recorded⟩ := committed
    obtain ⟨mergedStored, mergedId⟩ := (accountOf_eq_some valid).mp joins.mergedFound
    have unmerged : ∀ account ∈ base.accounts, account.id = id → account.mergedInto = none := by
      intro account member named
      rw [valid.sameAccount member mergedStored (named.trans mergedId.symm)]
      exact joins.mergedRoot
    obtain ⟨quiet, silent⟩ := arrivals_visible visible
    have events : (combined id into merged base).events = base.events.map (Sparing.movedEvent id into) :=
      Sparing.moveEvents_eq into base
    refine ⟨combined id into merged base, base.events.map (Sparing.movedEvent id into), _,
      ⟨rfl, carried_combined unmerged, events.trans (List.append_nil _).symm, ?_, ?_,
        accountsFirst_of_quiet ?_, ?_, ?_⟩, recorded⟩
    · rw [List.map_map]
      rfl
    · rw [List.filterMap_append, quiet, List.append_nil]
      split <;> rfl
    · rw [List.filterMap_append, quiet, List.append_nil]
      split <;> rfl
    · rw [List.count_append, silent]
      split <;> decide
    · intro changed
      have moves : (base.events.any fun event => event.accountId = id) = true := by
        by_contra still
        apply changed
        rw [events]
        refine (List.map_congr_left fun event member => ?_).trans (List.map_id _)
        have apart : ¬event.accountId = id := fun same =>
          still (List.any_eq_true.mpr ⟨event, member, decide_eq_true same⟩)
        simp [Sparing.movedEvent, Sparing.moved, apart]
      rw [List.count_append, silent, if_pos moves]
      rfl

/-- The writes that store, move or price events. -/
def writesUsage : Command → Bool
  | .ingest _ _ | .fill _ | .reprice _ _ _ | .merge _ _ _ => true
  | _ => false

/-- The tables after a write that commits, is refused or fails. -/
def settle (runtime : Sql.Runtime) (tables : Tables) (action : Command × World) : Tables :=
  (perform runtime tables action.2 action.1).2

def settled (runtime : Sql.Runtime) (base : Tables) (actions : List (Command × World)) : Tables :=
  actions.foldl (settle runtime) base

/-- The events each write of a run stored, as they are once it commits, each with the instant its
batch was received at. -/
def storedAlong (runtime : Sql.Runtime) : Tables → List (Command × World) → List (UsageEvent × Timestamp)
  | _, [] => []
  | tables, action :: rest =>
    (added tables (settle runtime tables action)).map (·, action.2.clock 0) ++
      storedAlong runtime (settle runtime tables action) rest

theorem valid_settle (valid : Valid False base) (action : Command × World) :
    Valid False (settle runtime base action) := by
  cases committed : (perform runtime base action.2 action.1).1 with
  | false =>
    rw [settle, perform_unchanged committed]
    exact valid
  | true =>
    have taken : step runtime base action = some (settle runtime base action) :=
      step_iff.mpr (Prod.ext committed rfl)
    exact Merged.valid_step valid False.elim taken

theorem told_settle (valid : Valid False base) {action : Command × World}
    (usage : writesUsage action.1 = true) :
    ∃ middle move kept added subjects,
      Tells (action.2.clock 0) base middle move kept added subjects ∧
        Recorded middle subjects (settle runtime base action) := by
  cases committed : (perform runtime base action.2 action.1).1 with
  | false =>
    rw [settle, perform_unchanged committed]
    exact ⟨base, id, base.events, [], [], ⟨rfl, .refl _, (List.append_nil _).symm, rfl, rfl,
      accountsFirst_of_quiet rfl, by simp, fun changed => absurd rfl changed⟩, recorded_self base⟩
  | true =>
    obtain ⟨command, world⟩ := action
    have ended : perform runtime base world command = (true, settle runtime base (command, world)) :=
      Prod.ext committed rfl
    cases command with
    | ingest source records =>
      simp only [perform, ingest_eq, performed_reading] at ended
      obtain ⟨_, middle, added, changes, batched⟩ :=
        performed_holds (holds_ingesting_told records) rfl ended
      obtain ⟨subjects, tells, recorded⟩ := batched.tells
      exact ⟨middle, id, base.events, added, subjects, tells, recorded⟩
    | fill pricedAs =>
      obtain ⟨_, middle, kept, subjects, tells, recorded⟩ :=
        performed_holds (holds_fill_told pricedAs) rfl ended
      exact ⟨middle, id, kept, [], subjects, tells, recorded⟩
    | reprice pricedAs start finish =>
      obtain ⟨_, middle, kept, subjects, tells, recorded⟩ :=
        performed_holds (holds_reprice_told pricedAs start finish) rfl ended
      exact ⟨middle, id, kept, [], subjects, tells, recorded⟩
    | merge old into requires =>
      obtain ⟨_, middle, kept, subjects, tells, recorded⟩ :=
        performed_holds (holds_merge_told valid old into requires) rfl ended
      exact ⟨middle, _, kept, [], subjects, tells, recorded⟩
    | _ => cases usage

/-- A feed that goes on from another. -/
def Continues (base tables : Tables) : Prop := ∃ entries, tables.feed = base.feed.recordAll entries

theorem told_eq {entries : List (Subject × Timestamp)}
    (continues : tables.feed = base.feed.recordAll entries) : told base tables = entries.map Prod.fst := by
  have here : base.feed.sequence ≤ base.feed.sequence := le_rfl
  rw [told, continues, Feed.since_recordAll here, Feed.since_self, List.nil_append]

theorem told_recorded {middle : Tables} {subjects : List Subject} (recorded : Recorded middle subjects tables)
    (same : middle.feed = base.feed) : Continues base tables ∧ told base tables = subjects := by
  obtain ⟨entries, rfl, rfl⟩ := recorded
  have continues : middle.feed.recordAll entries = base.feed.recordAll entries := by rw [same]
  exact ⟨⟨entries, continues⟩, told_eq continues⟩

theorem told_trans {middle : Tables} (first : Continues base middle) (second : Continues middle tables) :
    Continues base tables ∧ told base tables = told base middle ++ told middle tables := by
  obtain ⟨entries, same⟩ := first
  obtain ⟨more, later⟩ := second
  have whole : tables.feed = base.feed.recordAll (entries ++ more) := by
    rw [later, same, Feed.recordAll_append]
  refine ⟨⟨_, whole⟩, ?_⟩
  rw [told_eq whole, told_eq same, told_eq later, List.map_append]

theorem Tells.added_eq {middle : Tables} {move : AccountId → AccountId} {kept stored : List UsageEvent}
    {subjects : List Subject} (tells : Tells receivedAt base middle move kept stored subjects)
    (recorded : Recorded middle subjects after) :
    after.events = kept ++ stored ∧ added base after = stored := by
  have events : after.events = kept ++ stored := by
    obtain ⟨entries, rfl, _⟩ := recorded
    exact tells.events
  have length : kept.length = base.events.length := by
    have lengths := congrArg List.length tells.moved
    rwa [List.length_map, List.length_map] at lengths
  refine ⟨events, ?_⟩
  rw [added, events, ← length, List.drop_left]

section Run

variable {actions : List (Command × World)}

/-- Every account of a run is still there at its end, and the feed has gone on. -/
theorem carried_settled (valid : Valid False base)
    (usage : ∀ action ∈ actions, writesUsage action.1 = true) :
    Valid False (settled runtime base actions) ∧ Continues base (settled runtime base actions) ∧
      ∃ move, Carried move base.accounts (settled runtime base actions).accounts := by
  induction actions generalizing base with
  | nil => exact ⟨valid, ⟨[], rfl⟩, id, .refl _⟩
  | cons action rest ih =>
    obtain ⟨middle, move, kept, added, subjects, tells, recorded⟩ :=
      @told_settle runtime base valid action (usage action List.mem_cons_self)
    have carried : Carried move base.accounts (settle runtime base action).accounts := by
      obtain ⟨entries, same, _⟩ := recorded
      rw [same]
      exact tells.accounts
    obtain ⟨lastValid, continues, moveOn, carriedOn⟩ :=
      ih (valid_settle valid action) fun other member => usage other (List.mem_cons_of_mem _ member)
    exact ⟨lastValid, (told_trans (told_recorded recorded tells.feed).1 continues).1, _,
      carried.trans carriedOn⟩

/-- The arrivals of a run are those of the recent events it stored, in order and one for each. -/
theorem arrivals_settled (valid : Valid False base)
    (usage : ∀ action ∈ actions, writesUsage action.1 = true) :
    arrivals base (settled runtime base actions) =
      ((storedAlong runtime base actions).filter fun stored => isRecent stored.2 stored.1).map
        fun stored => arrivalFor stored.1 := by
  induction actions generalizing base with
  | nil =>
    have nothing : told base base = [] := Feed.since_self _
    rw [settled, List.foldl_nil, arrivals, nothing]
    rfl
  | cons action rest ih =>
    obtain ⟨middle, move, kept, stored, subjects, tells, recorded⟩ :=
      @told_settle runtime base valid action (usage action List.mem_cons_self)
    have lastUsage : ∀ other ∈ rest, writesUsage other.1 = true := fun other member =>
      usage other (List.mem_cons_of_mem _ member)
    have nextValid : Valid False (settle runtime base action) := valid_settle valid action
    obtain ⟨continues, toldNow⟩ := told_recorded recorded tells.feed
    have goesOn : Continues (settle runtime base action) (settled runtime (settle runtime base action) rest) :=
      (carried_settled nextValid lastUsage).2.1
    have toldLater := (told_trans continues goesOn).2
    have later := ih nextValid lastUsage
    rw [arrivals] at later
    rw [arrivals, settled, List.foldl_cons]
    rw [settled] at toldLater later
    rw [toldLater, toldNow, List.filterMap_append, later, tells.arrivals, storedAlong,
      (tells.added_eq recorded).2, List.filter_append, List.map_append, List.filter_map, List.map_map]
    rfl

/-- The account an account's usage is charged to: itself, or the one that absorbed it. -/
def chargedTo (tables : Tables) (id : AccountId) : AccountId :=
  ((lookup Account.id tables.accounts id).map root).getD id

/-- An account and outcome as they are counted in a later state. -/
def countedIn (tables : Tables) (arrival : AccountId × Bool) : AccountId × Bool :=
  (chargedTo tables arrival.1, arrival.2)

theorem chargedTo_eq (valid : Valid charged tables) {account : Account}
    (member : account ∈ tables.accounts) : chargedTo tables account.id = root account := by
  have found : lookup Account.id tables.accounts account.id = some account :=
    (lookup_eq_some valid.accountIds).mpr ⟨member, rfl⟩
  rw [chargedTo, found]
  rfl

theorem chargedTo_carried (valid : Valid charged tables) {move : AccountId → AccountId}
    (carried : Carried move base.accounts tables.accounts) {account : Account}
    (member : account ∈ base.accounts) : chargedTo tables account.id = move (root account) := by
  obtain ⟨later, stays, same, moved⟩ := carried account member
  rw [← same, chargedTo_eq valid stays, moved]

/-- Where an account's usage went is where the usage of the account that absorbed it goes. -/
theorem chargedTo_root (valid : Valid charged tables) (last : Valid charged after)
    {move : AccountId → AccountId} (carried : Carried move tables.accounts after.accounts)
    {account : Account} (member : account ∈ tables.accounts) :
    chargedTo after (root account) = chargedTo after account.id := by
  cases merged : account.mergedInto with
  | none => rw [root, merged, Option.getD_none]
  | some target =>
    obtain ⟨into, known, named, _, alone⟩ := valid.merges account member target merged
    have direct : root into = root account := by
      rw [root, alone, Option.getD_none, named, root, merged, Option.getD_some]
    rw [chargedTo_carried last carried member, ← direct, root, alone, Option.getD_none,
      chargedTo_carried last carried known, root, alone, Option.getD_none]

theorem counted_events (valid : Valid charged tables) :
    tables.events.map arrivalFor = tables.events.map fun event => countedIn tables (arrivalFor event) := by
  apply List.map_congr_left
  intro event member
  obtain ⟨account, known, same, _, alone⟩ := valid.eventAccounts event member
  have own : chargedTo tables event.accountId = event.accountId := by
    rw [← same, chargedTo_eq valid known, root, alone, Option.getD_none]
  rw [countedIn, arrivalFor, own]

/-- The events at the end of a run are those it started with and those it stored, each on the
account that its own was merged into. -/
theorem events_settled (valid : Valid False base)
    (usage : ∀ action ∈ actions, writesUsage action.1 = true) :
    (settled runtime base actions).events.map arrivalFor =
      (base.events.map arrivalFor ++ (storedAlong runtime base actions).map fun stored =>
        arrivalFor stored.1).map (countedIn (settled runtime base actions)) := by
  induction actions generalizing base with
  | nil =>
    rw [storedAlong, List.map_nil, List.append_nil, List.map_map]
    exact counted_events valid
  | cons action rest ih =>
    obtain ⟨middle, move, kept, stored, subjects, tells, recorded⟩ :=
      @told_settle runtime base valid action (usage action List.mem_cons_self)
    have lastUsage : ∀ other ∈ rest, writesUsage other.1 = true := fun other member =>
      usage other (List.mem_cons_of_mem _ member)
    have nextValid : Valid False (settle runtime base action) := valid_settle valid action
    have later := ih nextValid lastUsage
    obtain ⟨lastValid, _, moveOn, carriedOn⟩ :
        Valid False (settled runtime (settle runtime base action) rest) ∧ _ ∧ ∃ move, _ :=
      carried_settled nextValid lastUsage
    have carried : Carried move base.accounts (settle runtime base action).accounts := by
      obtain ⟨entries, same, _⟩ := recorded
      rw [same]
      exact tells.accounts
    let finish := settled runtime (settle runtime base action) rest
    have moved : (base.events.map fun event => (move event.accountId, event.failed)).map (countedIn finish) =
        (base.events.map arrivalFor).map (countedIn finish) := by
      rw [List.map_map, List.map_map]
      apply List.map_congr_left
      intro event member
      obtain ⟨account, known, same, _, alone⟩ := valid.eventAccounts event member
      obtain ⟨next, stays, named, movedTo⟩ := carried account known
      have one := chargedTo_root nextValid lastValid carriedOn stays
      rw [movedTo, named, root, alone, Option.getD_none, same] at one
      exact congrArg (·, event.failed) one
    obtain ⟨events, addedNow⟩ := tells.added_eq recorded
    have stays : (kept ++ stored).map arrivalFor =
        (base.events.map fun event => (move event.accountId, event.failed)) ++ stored.map arrivalFor := by
      rw [List.map_append, tells.moved]
    rw [events, stays] at later
    change finish.events.map arrivalFor = _
    rw [later, storedAlong, addedNow]
    simp only [List.map_append, List.append_assoc, List.map_map] at moved ⊢
    exact congrArg (· ++ _) moved

/-- A stored account shows in the account list. -/
theorem view_account (valid : Valid charged tables) {account : Account}
    (member : account ∈ tables.accounts) :
    Views.view runtime tables now (.account account.id) ≠ none := by
  obtain ⟨stored, known, same⟩ := valid.accountSources account member
  have row : (accountRow tables account).isSome = true := by
    rw [accountRow, Option.isSome_map, lookup_isSome]
    exact ⟨stored, known, same⟩
  obtain ⟨shown, drawn⟩ := Option.isSome_iff_exists.mp row
  have found : Snapshots.accountOf tables account.id = some account :=
    (accountOf_eq_some valid).mpr ⟨member, rfl⟩
  simp [Views.view, found, drawn]

theorem account_precedes (valid : Valid False base) {action : Command × World}
    (usage : writesUsage action.1 = true) {before rest : List Subject} {accountId : AccountId}
    {failed : Bool}
    (split : told base (settle runtime base action) = before ++ .arrival accountId failed :: rest)
    (created : ∀ account ∈ base.accounts, account.id ≠ accountId) : .account accountId ∈ before := by
  obtain ⟨middle, move, kept, stored, subjects, tells, recorded⟩ :=
    @told_settle runtime base valid action usage
  have toldNow := (told_recorded recorded tells.feed).2
  rw [toldNow] at split
  have arrives : (accountId, failed) ∈ subjects.filterMap arrivalOf :=
    List.mem_filterMap.mpr ⟨.arrival accountId failed, by simp [split], rfl⟩
  rw [tells.arrivals] at arrives
  obtain ⟨event, isNew, same⟩ := List.mem_map.mp arrives
  obtain ⟨rfl, rfl⟩ := Prod.mk.inj same
  have member : event ∈ (settle runtime base action).events := by
    rw [(tells.added_eq recorded).1]
    exact List.mem_append_right _ (List.mem_filter.mp isNew).1
  have nextValid : Valid False (settle runtime base action) := valid_settle valid action
  obtain ⟨account, known, named, _⟩ := nextValid.eventAccounts event member
  refine tells.first before (event.accountId, event.failed) rest split event.accountId ?_
  cases committed : (perform runtime base action.2 action.1).1 with
  | false =>
    rw [settle, perform_unchanged committed] at known
    exact absurd named (created account known)
  | true =>
    have ended : perform runtime base action.2 action.1 = (true, settle runtime base action) :=
      Prod.ext committed rfl
    obtain ⟨reading, announced⟩ :=
      Announcements.announced_performed ⟨base, valid⟩ runtime action.2 action.1 ended
    have absent : Views.view runtime base (action.2.clock reading) (.account event.accountId) = none := by
      have unknown : Snapshots.accountOf base event.accountId = none := lookup_eq_none.mpr created
      simp [Views.view, unknown]
    have shown : Views.view runtime (settle runtime base action) (action.2.clock reading)
        (.account event.accountId) ≠ none := named ▸ view_account nextValid known
    have once := (announced (.account event.accountId) rfl).1 (by rw [absent]; exact shown.symm)
    rw [← toldNow]
    apply List.count_pos_iff.mp
    exact Nat.lt_of_lt_of_eq Nat.one_pos once.symm

/-- What the feed promises of usage, along a run. -/
structure Announces (runtime : Sql.Runtime) (base : Tables) (actions : List (Command × World)) : Prop where
  /-- One invalidation for each transaction that changes an event, and never two. -/
  once : ∀ done action rest, done ++ action :: rest = actions →
    let start := settled runtime base done
    let next := settle runtime start action
    (told start next).count .usage ≤ 1 ∧
      (next.events ≠ start.events → (told start next).count .usage = 1)
  /-- The arrivals are those of the recent events stored, in order and one for each. -/
  arrivals : arrivals base (settled runtime base actions) =
    ((storedAlong runtime base actions).filter fun stored => isRecent stored.2 stored.1).map
      fun stored => arrivalFor stored.1
  /-- What was counted and what arrived, with the older events stored since, is what is counted. -/
  counts : ∀ counted,
    let finish := settled runtime base actions
    (finish.events.map arrivalFor).count counted =
      ((base.events.map arrivalFor).map (countedIn finish)).count counted +
        ((Arrivals.arrivals base finish).map (countedIn finish)).count counted +
        ((((storedAlong runtime base actions).filter fun stored => !isRecent stored.2 stored.1).map
          fun stored => arrivalFor stored.1).map (countedIn finish)).count counted
  /-- An account a batch creates is told of before the arrivals on it. -/
  accounts : ∀ done action rest, done ++ action :: rest = actions →
    let start := settled runtime base done
    ∀ before accountId failed after,
      told start (settle runtime start action) = before ++ .arrival accountId failed :: after →
      (∀ account ∈ start.accounts, account.id ≠ accountId) → .account accountId ∈ before

/-- Every run of writes of usage announces what it did to the stored events. -/
theorem usage_is_announced (valid : Valid False base)
    (usage : ∀ action ∈ actions, writesUsage action.1 = true) : Announces runtime base actions := by
  have validAt (done : List (Command × World)) : Valid False (settled runtime base done) := by
    induction done using List.reverseRecOn with
    | nil => exact valid
    | append_singleton done action ih =>
      rw [settled, List.foldl_append]
      exact valid_settle ih action
  refine ⟨?_, arrivals_settled valid usage, fun counted => ?_, ?_⟩
  · rintro done action rest whole start next
    obtain ⟨middle, move, kept, stored, subjects, tells, recorded⟩ :=
      @told_settle runtime start (validAt done) action (usage action (by simp [← whole]))
    rw [(told_recorded recorded tells.feed).2]
    refine ⟨tells.usage, fun changed => tells.changed fun same => changed ?_⟩
    obtain ⟨entries, ended, _⟩ := recorded
    exact (congrArg Tables.events ended).trans same
  · intro finish
    have split := (List.filter_append_perm (fun stored : UsageEvent × Timestamp =>
      isRecent stored.2 stored.1) (storedAlong runtime base actions)).map fun stored =>
        countedIn finish (arrivalFor stored.1)
    rw [events_settled valid usage, arrivals_settled valid usage, List.map_append, List.count_append,
      Nat.add_assoc]
    congr 1
    have counts := split.count_eq counted
    rw [List.map_append, List.count_append] at counts
    simp only [List.map_map]
    exact counts.symm
  · rintro done action rest whole start before accountId failed after split created
    exact account_precedes (validAt done) (usage action (by simp [← whole])) split created

end Run

/-- A source before its first batch. -/
def unused : Tables := { Tables.empty with sources := [⟨1, "", "", .cliProxy, "", true, 0⟩] }

theorem valid_unused : Valid False unused := by
  constructor <;> simp [unused, Tables.empty, Distinct]

/-- Two requests, the merge of their accounts and a repricing, and a replay of the batch. -/
def mergedBatch : List (Command × World) :=
  let records := [Incoming.record (.idle "old" 0), .record (.idle "new" 0)]
  [(.ingest 1 records, .calm 0 (· + 1)), (.merge 1 3 false, .calm 1 id),
    (.reprice [] none none, .calm 2 id), (.ingest 1 records, .calm 3 (· + 5))]

theorem merged_batch_is_announced : Announces .inert unused mergedBatch :=
  usage_is_announced valid_unused (by decide)

/-- A request dated after its batch was received. -/
def datedAhead : List (Command × World) := [(.ingest 1 [.record (.idle "key" 1)], .calm 0 (· + 1))]

/-- A request that did not happen in the day before its batch was received arrives as well. -/
theorem a_request_dated_ahead_arrives :
    arrivals unused (settled .inert unused datedAhead) ≠
      ((storedAlong .inert unused datedAhead).filter fun stored =>
        isRecent stored.2 stored.1 && decide (stored.1.occurredAt ≤ stored.2)).map
        fun stored => arrivalFor stored.1 := by
  decide +kernel

end MeteredUsage.Store.Arrivals

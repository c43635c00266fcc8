import MeteredUsage.Store.Intake

/-! An ingest commits where no statement fails on its own: the ids it takes are new, and every
row it names is there. -/

namespace MeteredUsage.Store.Commits
open MeteredUsage.Values MeteredUsage.Store.Schema MeteredUsage.Store.Accounts
open MeteredUsage.Store.Events MeteredUsage.Store.Snapshots MeteredUsage.Store.Windows
open MeteredUsage.Store.Response MeteredUsage.Store.Ingest MeteredUsage.Store.Validity
open MeteredUsage.Store.Frames MeteredUsage.Store.Landing MeteredUsage.Store.Commands
open MeteredUsage.Changes.Table (Subject)
open MeteredUsage.Library.Transaction

variable {runtime : Sql.Runtime} {charged : Prop} {source : SourceId} {base : Tables}

theorem succeeds_attempt {Value : Type} {before : Nat → Tables → Prop}
    {effect : Tables → Option (Value × Tables)} {after : Value → Nat → Tables → Prop}
    (succeeds : ∀ next tables, before next tables →
      ∃ value changed, effect tables = some (value, changed) ∧ after value next changed) :
    Succeeds before (attempt effect) after := by
  apply Succeeds.statement
  intro next tables initial
  obtain ⟨value, changed, taken, final⟩ := succeeds next tables initial
  exact ⟨value, changed, by rw [taken]; rfl, final⟩

/-- Every id an ingest hands out is above those stored. -/
structure Below (bound : Nat) (tables : Tables) : Prop where
  accounts : ∀ account ∈ tables.accounts, account.id < bound
  events : ∀ event ∈ tables.events, event.id < bound
  letters : ∀ letter ∈ tables.deadLetters, letter.id < bound

theorem Below.succ {bound : Nat} {tables : Tables} (below : Below bound tables) :
    Below (bound + 1) tables where
  accounts := fun account member => Nat.lt_succ_of_lt (below.accounts account member)
  events := fun event member => Nat.lt_succ_of_lt (below.events event member)
  letters := fun letter member => Nat.lt_succ_of_lt (below.letters letter member)

theorem Below.mapAccounts {bound : Nat} {tables : Tables} (below : Below bound tables)
    {change : Account → Account} (same : ∀ account, (change account).id = account.id) :
    Below bound { tables with accounts := tables.accounts.map change } where
  accounts := by
    intro next member
    obtain ⟨account, stored, rfl⟩ := List.mem_map.mp member
    rw [same]
    exact below.accounts account stored
  events := below.events
  letters := below.letters

theorem Below.appendAccount {bound : Nat} {tables : Tables} (below : Below bound tables)
    {row : Account} (fresh : row.id = bound) :
    Below (bound + 1) { tables with accounts := tables.accounts ++ [row] } where
  accounts := by
    intro account member
    rcases List.mem_append.mp member with stored | new
    · exact Nat.lt_succ_of_lt (below.accounts account stored)
    · rw [List.mem_singleton.mp new, fresh]
      exact Nat.lt_succ_self bound
  events := below.succ.events
  letters := below.succ.letters

/-- An upsert under a new id is accepted. -/
theorem upsert_accepted {bound : Nat} {tables : Tables} (below : Below bound tables) {row : Account}
    (fresh : row.id = bound) (known : ∃ stored ∈ tables.sources, stored.id = row.sourceId)
    {conflict : Account → Account} (same : ∀ account, (conflict account).id = account.id) :
    ∃ stored next, upsert row conflict tables = some (stored, next) ∧ Below (bound + 1) next ∧
      next.sources = tables.sources := by
  have unused : ¬tables.accounts.any (·.id = row.id) = true := by
    rw [List.any_eq_true]
    rintro ⟨account, member, equal⟩
    have lower := below.accounts account member
    rw [of_decide_eq_true equal, fresh] at lower
    exact lt_irrefl _ lower
  have present : tables.sources.any (·.id = row.sourceId) = true := by simpa using known
  unfold upsert
  rw [if_neg unused]
  split
  next stored found =>
    refine ⟨_, _, rfl, below.succ.mapAccounts fun account => ?_, rfl⟩
    split <;> simp [same]
  next =>
    rw [if_pos present]
    exact ⟨_, _, rfl, below.appendAccount fresh, rfl⟩

theorem exists_above (ids : List Nat) : ∃ bound, ∀ id ∈ ids, id < bound := by
  induction ids with
  | nil => exact ⟨0, by simp⟩
  | cons first rest ih =>
    obtain ⟨bound, above⟩ := ih
    refine ⟨max (first + 1) bound, fun id member => ?_⟩
    rcases List.mem_cons.mp member with rfl | later
    · exact Nat.lt_of_succ_le (Nat.le_max_left _ _)
    · exact (above id later).trans_le (Nat.le_max_right _ _)

theorem exists_below (tables : Tables) : ∃ bound, Below bound tables := by
  obtain ⟨bound, above⟩ := exists_above (tables.accounts.map Account.id ++
    tables.events.map UsageEvent.id ++ tables.deadLetters.map DeadLetter.id)
  refine ⟨bound, fun row member => above _ ?_, fun row member => above _ ?_,
    fun row member => above _ ?_⟩
  · exact List.mem_append_left _ (List.mem_append_left _ (List.mem_map_of_mem member))
  · exact List.mem_append_left _ (List.mem_append_right _ (List.mem_map_of_mem member))
  · exact List.mem_append_right _ (List.mem_map_of_mem member)

variable (known : ∃ stored ∈ base.sources, stored.id = source)
include known

/-- The rows of a source while an ingest of it runs. -/
structure Room (charged : Prop) (source : SourceId) (base : Tables) (bound : Nat) (tables : Tables) :
    Prop where
  frame : Frame charged .quota source base tables
  below : Below bound tables

theorem succeeds_resolve (candidate : AccountId) (provider : String) (account : NewAccount)
    (seenAt : Timestamp) :
    Succeeds (fun next tables => next = candidate + 1 ∧ Room charged source base candidate tables)
      (resolve candidate source provider account seenAt)
      fun id next tables => next = candidate + 1 ∧ Room charged source base (candidate + 1) tables ∧
        Absorbs tables.accounts source id := by
  have bounded : Succeeds
      (fun next tables => next = candidate + 1 ∧ Below candidate tables ∧
        tables.sources = base.sources)
      (resolve candidate source provider account seenAt)
      fun _ next tables => next = candidate + 1 ∧ Below (candidate + 1) tables := by
    have upserted : Succeeds
        (fun next tables => next = candidate + 1 ∧ Below candidate tables ∧
          tables.sources = base.sources)
        (attempt (upsert (account.row candidate source provider seenAt) (seen account seenAt)))
        fun _ next tables => next = candidate + 1 ∧ Below (candidate + 1) tables := by
      apply succeeds_attempt
      rintro next tables ⟨rfl, below, sources⟩
      have present : ∃ stored ∈ tables.sources, stored.id = source := sources ▸ known
      obtain ⟨stored, changed, taken, above, -⟩ := @upsert_accepted candidate tables below
        (account.row candidate source provider seenAt) rfl present (seen account seenAt)
        (keeps_seen account seenAt).id
      exact ⟨stored, changed, taken, rfl, above⟩
    apply upserted.bind
    intro row
    split
    next => exact Succeeds.pure fun _ _ initial => initial
    next target _ =>
      have widened : Succeeds
          (fun next tables => next = candidate + 1 ∧ Below (candidate + 1) tables)
          (execute (updateAccount target (widen seenAt seenAt)))
          fun _ next tables => next = candidate + 1 ∧ Below (candidate + 1) tables := by
        apply Succeeds.update
        rintro next tables ⟨rfl, below⟩
        refine ⟨rfl, below.mapAccounts fun account => ?_⟩
        split <;> rfl
      exact widened.bind fun _ => Succeeds.pure fun _ _ initial => initial
  have resolved : Holds (Frame charged .quota source base)
      (resolve candidate source provider account seenAt)
      fun id tables => Frame charged .quota source base tables ∧ Absorbs tables.accounts source id :=
    Locality.holds_resolve candidate provider account seenAt
  refine (bounded.and_holds resolved).weaken ?_ ?_
  · rintro next tables ⟨rfl, room⟩
    exact ⟨⟨rfl, room.below, room.frame.sources⟩, room.frame⟩
  · rintro id next tables ⟨⟨rfl, below⟩, frame, absorbs⟩
    exact ⟨rfl, ⟨frame, below⟩, absorbs⟩

theorem succeeds_insertEvent (event : NewUsageEvent) (id : EventId) (accountId : AccountId) :
    Succeeds (fun next tables => next = id + 1 ∧ Room charged source base id tables ∧
        Absorbs tables.accounts source accountId)
      (attempt (insertEvent (event.row runtime id source accountId)))
      fun _ next tables => next = id + 1 ∧ Room charged source base (id + 1) tables ∧
        Absorbs tables.accounts source accountId := by
  apply succeeds_attempt
  rintro next tables ⟨rfl, room, absorbs⟩
  let row := event.row runtime id source accountId
  have unused : ¬tables.events.any (·.id = row.id) = true := by
    rw [List.any_eq_true]
    rintro ⟨stored, member, equal⟩
    have lower := room.below.events stored member
    rw [of_decide_eq_true equal] at lower
    exact lt_irrefl _ lower
  have present : tables.sources.any (·.id = row.sourceId) = true ∧
      tables.accounts.any (·.id = row.accountId) = true := by
    obtain ⟨stored, member, same⟩ := known
    obtain ⟨account, there, mine, -⟩ := absorbs
    rw [room.frame.sources]
    exact ⟨List.any_eq_true.mpr ⟨stored, member, decide_eq_true same⟩,
      List.any_eq_true.mpr ⟨account, there, decide_eq_true mine⟩⟩
  have taken : ∃ isNew changed, insertEvent row tables = some (isNew, changed) ∧
      Below (id + 1) changed := by
    by_cases held : tables.events.any (holdsHash row.sourceId row.recordHash) = true
    · exact ⟨false, tables, if_pos held, room.below.succ⟩
    · rw [insertEvent, if_neg held, if_neg unused, if_pos present]
      refine ⟨true, _, rfl, room.below.succ.accounts, fun stored member => ?_,
        room.below.succ.letters⟩
      rcases List.mem_append.mp member with earlier | new
      · exact room.below.succ.events stored earlier
      · rw [List.mem_singleton.mp new]
        exact Nat.lt_succ_self id
  obtain ⟨isNew, changed, taken, below⟩ := taken
  obtain ⟨frame, accounts⟩ := Locality.insertEvent_frame room.frame rfl absorbs taken
  exact ⟨isNew, changed, taken, rfl, ⟨frame, below⟩, accounts ▸ absorbs⟩

omit known in
theorem succeeds_observe (event : NewUsageEvent) (accountId : AccountId) (now : Timestamp)
    (bound : Nat) :
    Succeeds (fun next tables => next = bound ∧ Room charged source base bound tables ∧
        Absorbs tables.accounts source accountId)
      (Response.observe runtime accountId event now)
      fun _ next tables => next = bound ∧ Room charged source base bound tables := by
  have bounded : Succeeds (fun next tables => next = bound ∧ Below bound tables ∧
        Absorbs tables.accounts source accountId)
      (Response.observe runtime accountId event now)
      fun _ next tables => next = bound ∧ Below bound tables := by
    apply Succeeds.onlyIf
    case skipped => exact fun _ _ _ initial => ⟨initial.1, initial.2.1⟩
    intro _
    have asked : Succeeds (fun next tables => next = bound ∧ Below bound tables ∧
          Absorbs tables.accounts source accountId)
        (fetch (hasNewerSuccess accountId event.occurredAt))
        fun _ next tables => next = bound ∧ Below bound tables ∧
          Absorbs tables.accounts source accountId := Succeeds.query fun _ _ initial => initial
    apply asked.bind
    intro newer
    apply Succeeds.onlyIf
    case skipped => exact fun _ _ _ initial => ⟨initial.1, initial.2.1⟩
    intro _
    split
    next reset _ =>
      apply succeeds_attempt
      rintro next tables ⟨rfl, below, account, member, mine, -⟩
      let row := marker accountId reset event.occurredAt
      have present : tables.accounts.any (·.id = row.accountId) = true :=
        List.any_eq_true.mpr ⟨account, member, decide_eq_true mine⟩
      by_cases held : tables.windows.any (isWindow row.accountId row.windowKey) = true
      · exact ⟨(), _, if_pos held, rfl, below.accounts, below.events, below.letters⟩
      · rw [upsertMarker, if_neg held, insertWindow, if_neg held, if_pos present]
        exact ⟨(), _, rfl, rfl, below.accounts, below.events, below.letters⟩
    next =>
      apply Succeeds.update
      rintro next tables ⟨rfl, below, -⟩
      exact ⟨rfl, below.accounts, below.events, below.letters⟩
  have framed : Holds (fun tables => Frame charged .quota source base tables ∧
        Absorbs tables.accounts source accountId)
      (Response.observe runtime accountId event now)
      fun _ => Frame charged .quota source base :=
    Locality.holds_observeResponse event now fun _ => rfl
  refine (bounded.and_holds framed).weaken ?_ ?_
  · rintro next tables ⟨rfl, room, absorbs⟩
    exact ⟨⟨rfl, room.below, absorbs⟩, room.frame, absorbs⟩
  · rintro _ next tables ⟨⟨rfl, below⟩, frame⟩
    exact ⟨rfl, frame, below⟩

omit known in
theorem succeeds_nextId :
    Succeeds (fun next tables => Room charged source base next tables) (nextId : Write Nat)
      fun id next tables => next = id + 1 ∧ Room charged source base id tables :=
  Succeeds.nextId fun _ _ room => ⟨rfl, room⟩

theorem succeeds_ingestNext (receivedAt : Timestamp) (progress : Progress) (record : Incoming) :
    Succeeds (fun next tables => Room charged source base next tables)
      (ingestNext runtime source receivedAt progress record)
      fun _ next tables => Room charged source base next tables := by
  cases record with
  | rejected error payload =>
    apply succeeds_nextId.bind
    intro id
    have inserted : Succeeds (fun next tables => next = id + 1 ∧ Room charged source base id tables)
        (attempt (insertDeadLetter ⟨id, source, receivedAt, error, payload⟩))
        fun _ next tables => Room charged source base next tables := by
      apply succeeds_attempt
      rintro next tables ⟨rfl, room⟩
      have unused : ¬tables.deadLetters.any (·.id = id) = true := by
        rw [List.any_eq_true]
        rintro ⟨stored, member, equal⟩
        have lower := room.below.letters stored member
        rw [of_decide_eq_true equal] at lower
        exact lt_irrefl _ lower
      have present : tables.sources.any (·.id = source) = true := by
        obtain ⟨stored, member, same⟩ := known
        rw [room.frame.sources]
        exact List.any_eq_true.mpr ⟨stored, member, decide_eq_true same⟩
      unfold insertDeadLetter
      rw [if_neg unused, if_pos present]
      refine ⟨(), _, rfl, { room.frame with valid := room.frame.valid.deadLetters _ },
        room.below.succ.accounts, room.below.succ.events, fun letter member => ?_⟩
      rcases List.mem_append.mp member with earlier | new
      · exact room.below.succ.letters letter earlier
      · rw [List.mem_singleton.mp new]
        exact Nat.lt_succ_self id
    exact inserted.bind fun _ => Succeeds.pure fun _ _ room => room
  | record event =>
    apply succeeds_nextId.bind
    intro candidate
    apply (succeeds_resolve known candidate event.provider event.account event.occurredAt).bind
    intro accountId
    have taken : Succeeds
        (fun next tables => next = candidate + 1 ∧ Room charged source base (candidate + 1) tables ∧
          Absorbs tables.accounts source accountId)
        (nextId : Write Nat)
        fun id next tables => next = id + 1 ∧ Room charged source base id tables ∧
          Absorbs tables.accounts source accountId := by
      apply Succeeds.nextId
      rintro next tables ⟨rfl, room, absorbs⟩
      exact ⟨rfl, room, absorbs⟩
    apply taken.bind
    intro id
    apply (succeeds_insertEvent known event id accountId).bind
    intro isNew
    split
    next =>
      apply (succeeds_observe event accountId receivedAt (id + 1)).bind
      intro _
      apply Succeeds.pure
      rintro next tables ⟨rfl, room⟩
      exact room
    next =>
      apply Succeeds.pure
      rintro next tables ⟨rfl, room, -⟩
      exact room

omit known in
theorem succeeds_record (subject : Subject) :
    Succeeds (fun _ _ => True) (record subject) fun _ _ _ => True :=
  (Succeeds.reading fun _ _ _ _ => trivial).bind fun _ => Succeeds.update fun _ _ _ => trivial

omit known in
theorem succeeds_fetch {Value : Type} {before : Nat → Tables → Prop} (read : Tables → Value) :
    Succeeds before (fetch read) fun _ => before := Succeeds.query fun _ _ initial => initial

omit known in
theorem succeeds_read {before : Nat → Tables → Prop} {scope : Snapshots.Scope} {parts : Parts}
    {now : Timestamp} :
    Succeeds before (Snapshots.read runtime scope parts now) fun _ => before := by
  apply (succeeds_fetch _).bind
  intro filter
  apply (succeeds_fetch _).bind
  intro accounts
  apply (succeeds_fetch _).bind
  intro plans
  have quota : Succeeds before (readQuota runtime filter now parts) fun _ => before := by
    cases parts with
    | accounts => exact Succeeds.pure fun _ _ initial => initial
    | quota =>
      apply (succeeds_fetch _).bind
      intro windows
      apply (succeeds_fetch _).bind
      exact fun _ => Succeeds.pure fun _ _ initial => initial
  exact quota.bind fun _ => Succeeds.pure fun _ _ initial => initial

theorem succeeds_ingest (incoming : List Incoming) :
    Succeeds (fun next tables => Room charged source base next tables)
      (Ingest.ingest runtime source incoming) fun ending _ _ => ∃ progress, ending = .committed progress := by
  rw [ingest_eq]
  apply (Succeeds.reading fun _ _ _ initial => initial).bind
  intro receivedAt
  apply (Succeeds.reading fun _ _ _ initial => initial).bind
  intro now
  apply succeeds_read.bind
  intro snapshot
  apply (Succeeds.foldlM fun record _ progress => succeeds_ingestNext known receivedAt progress record).bind
  intro progress
  have compared : Succeeds (fun _ _ => True) (recordChanges runtime snapshot) fun _ _ _ => True :=
    succeeds_read.bind fun _ => Succeeds.forM fun subject _ => succeeds_record subject
  apply (compared.weaken (fun _ _ _ => trivial) fun _ _ _ _ => trivial).bind
  intro _
  apply (Succeeds.forM fun arrival _ => succeeds_record _).bind
  intro _
  apply (Succeeds.onlyIf (fun _ => succeeds_record .usage) fun _ _ _ _ => trivial).bind
  exact fun _ => Succeeds.commit fun _ _ _ => ⟨progress, rfl⟩

omit known in
/-- A batch of a known source commits in a calm world whose ids are new. -/
theorem ingest_commits {tables : Tables} (valid : Valid charged tables)
    (known : ∃ stored ∈ tables.sources, stored.id = source) {bound : Nat} (below : Below bound tables)
    (incoming : List Incoming) (now : Timestamp) :
    ∃ next, step runtime tables
      (.ingest source incoming, World.calm now fun next => bound + next) = some next := by
  let session := (World.calm now fun next => bound + next).session tables
  have calm : Calm session := ⟨fun _ => rfl, fun _ => rfl⟩
  have room : Room charged source tables bound tables := ⟨Frame.start valid .quota source, below⟩
  have commits : Succeeds (fun next => Room charged source tables next)
      (Ingest.ingest runtime source incoming)
      fun ending _ _ => ∃ progress, ending = .committed progress := succeeds_ingest known incoming
  obtain ⟨_, finish, ran, -, progress, rfl⟩ := commits.runs session calm room
  have committed := transact_committed.mpr ⟨finish, ran, rfl⟩
  refine ⟨finish.data, step_iff.mpr ?_⟩
  change performed (Ingest.ingest runtime source incoming) session = _
  rw [performed, committed]

end MeteredUsage.Store.Commits

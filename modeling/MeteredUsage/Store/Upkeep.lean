import MeteredUsage.Store.Apart

/-! The writes no person asks for: expired evidence is deleted, the sources follow the
config, and events are priced. -/

namespace MeteredUsage.Store.Upkeep
open MeteredUsage.Values MeteredUsage.Store.Schema MeteredUsage.Store.Continuations
open MeteredUsage.Store.Snapshots MeteredUsage.Store.Validity MeteredUsage.Store.Frames
open MeteredUsage.Store.Statements MeteredUsage.Store.Views MeteredUsage.Store.Apart
open MeteredUsage.Library.Keyed MeteredUsage.Library.Transaction
open MeteredUsage.Changes.Table (Subject)

variable {charged : Prop} {base : Tables} {runtime : Sql.Runtime}

/-- An event without what it cost. -/
def uncosted (event : UsageEvent) : UsageEvent :=
  { event with priceId := none, listCostUsd := none, billedCostUsd := none }

/-- What pricing leaves: events that only cost something else, and changes that no reader of
accounts compares. -/
def Priced (base after : Tables) : Prop :=
  ∃ events subjects, events.map uncosted = base.events.map uncosted ∧
    (∀ subject ∈ subjects, isHidden subject = true) ∧
    Recorded { base with events := events } subjects after

theorem valid_priced {after : Tables} (valid : Valid charged base) (priced : Priced base after) :
    Valid charged after := by
  obtain ⟨events, subjects, same, _, entries, rfl, _⟩ := priced
  apply Valid.feed
  exact { valid with
    eventHashes := by
      have key : ∀ event, (fun event : UsageEvent => (event.sourceId, event.recordHash)) (uncosted event) =
          (event.sourceId, event.recordHash) := fun _ => rfl
      have left : Distinct (fun event : UsageEvent => (event.sourceId, event.recordHash))
          (events.map uncosted) := same ▸ valid.eventHashes.map key
      exact (List.pairwise_map.mp left).imp fun apart => apart
    eventAccounts := by
      intro event member
      obtain ⟨known, stored, equal⟩ := List.mem_map.mp (same ▸ List.mem_map_of_mem member)
      have absorbs := valid.eventAccounts known stored
      have source : known.sourceId = event.sourceId := (congrArg UsageEvent.sourceId equal :)
      have account : known.accountId = event.accountId := (congrArg UsageEvent.accountId equal :)
      exact source ▸ account ▸ absorbs }

/-- The events of a base as a pricing in progress has them. -/
def Repriced (base tables : Tables) : Prop :=
  ∃ events, tables = { base with events := events } ∧ events.map uncosted = base.events.map uncosted

theorem Repriced.map {tables : Tables} (repriced : Repriced base tables)
    {change : UsageEvent → UsageEvent} (same : ∀ event, uncosted (change event) = uncosted event) :
    Repriced base { tables with events := tables.events.map change } := by
  obtain ⟨events, rfl, equal⟩ := repriced
  refine ⟨events.map change, rfl, ?_⟩
  rw [List.map_map, ← equal]
  exact List.map_congr_left fun event _ => same event

theorem holds_fillTables (pricedAs : Cost.PricedAs) :
    Holds (Repriced base) (attempt fun tables => some (Cost.fillTables runtime pricedAs tables))
      fun _ => Repriced base := by
  apply holds_attempt
  rintro tables _ _ repriced ⟨⟩
  apply repriced.map
  intro event
  split <;> rfl

theorem holds_recordUsage (condition : Prop) [Decidable condition] :
    Holds (Repriced base) (onlyIf condition (record .usage)) fun _ => Priced base := by
  apply Holds.onlyIf
  case taken =>
    intro _
    apply Holds.each
    rintro _ ⟨events, rfl, equal⟩
    apply (holds_record_one .usage).weaken fun _ initial => initial
    intro _ tables recorded
    exact ⟨events, [.usage], equal, by simp [isHidden], recorded⟩
  case skipped =>
    rintro _ _ ⟨events, rfl, equal⟩
    exact ⟨events, [], equal, by simp, recorded_self _⟩

theorem repriced_self (tables : Tables) (same : tables = base) : Repriced base tables :=
  ⟨base.events, same, rfl⟩

theorem holds_fill (pricedAs : Cost.PricedAs) :
    Holds (fun tables => tables = base) (Cost.fill runtime pricedAs) (OnCommit (Priced base)) := by
  apply ((holds_fillTables pricedAs).weaken repriced_self fun _ _ repriced => repriced).bind
  intro filled
  apply (holds_recordUsage _).bind
  exact fun _ => holds_commit _

theorem holds_reprice (pricedAs : Cost.PricedAs) (start finish : Option Timestamp) :
    Holds (fun tables => tables = base) (Cost.reprice runtime pricedAs start finish)
      (OnCommit (Priced base)) := by
  have forgot : Holds (fun tables => tables = base)
      (attempt fun tables => some (Cost.forgetTables start finish tables))
      fun _ => Repriced base := by
    apply holds_attempt
    rintro tables _ _ same ⟨⟩
    apply (repriced_self tables same).map
    intro event
    split <;> rfl
  apply forgot.bind
  intro cleared
  apply (holds_fillTables pricedAs).bind
  intro filled
  apply (holds_recordUsage _).bind
  exact fun _ => holds_commit _

/-- Every stored source is still there under its id. -/
structure Configured (base : Tables) (sources : List Source) : Prop where
  ids : Distinct Source.id sources
  stays : ∀ source ∈ base.sources, ∃ next ∈ sources, next.id = source.id

/-- What following the config leaves: sources, and the changes of a comparison of every
account. -/
def Synced (runtime : Sql.Runtime) (base after : Tables) : Prop :=
  ∃ now sources, Configured base sources ∧
    Recorded { base with sources := sources }
      (inOrder (changedSubjects (snapshotOf runtime .all .accounts now base).seen
        (snapshotOf runtime .all .accounts now { base with sources := sources }).seen)) after

theorem Configured.map {sources : List Source} (configured : Configured base sources)
    {change : Source → Source} (same : ∀ source, (change source).id = source.id) :
    Configured base (sources.map change) where
  ids := configured.ids.map same
  stays := by
    intro source member
    obtain ⟨next, stored, named⟩ := configured.stays source member
    exact ⟨change next, List.mem_map_of_mem stored, (same next).trans named⟩

/-- A sync in progress. -/
def Syncing (base tables : Tables) : Prop :=
  ∃ sources, tables = { base with sources := sources } ∧ Configured base sources

theorem holds_upsertSource (id : SourceId) (createdAt : Timestamp) (config : Sources.SourceConfig) :
    Holds (Syncing base) (attempt (Sources.upsertSource id createdAt config))
      fun _ => Syncing base := by
  apply holds_attempt
  rintro _ _ next ⟨sources, rfl, configured⟩ taken
  unfold Sources.upsertSource at taken
  split at taken
  next => cases taken
  next fresh =>
    split at taken
    next =>
      cases taken
      refine ⟨_, rfl, configured.map fun source => ?_⟩
      split <;> rfl
    next =>
      cases taken
      refine ⟨_, rfl, ?_, ?_⟩
      · exact configured.ids.append_singleton (by simpa using fresh)
      · intro source member
        obtain ⟨next, stored, named⟩ := configured.stays source member
        exact ⟨next, List.mem_append_left _ stored, named⟩

theorem holds_sync (valid : Valid charged base) (configs : List Sources.SourceConfig) :
    Holds (fun tables => tables = base) (Sources.sync runtime configs)
      (OnCommit (Synced runtime base)) := by
  apply read_then
  intro now
  apply Holds.reading_then
  intro createdAt
  have upserted : Holds (Syncing base)
      (forM configs fun config => do
        let id ← nextId
        attempt (Sources.upsertSource id createdAt config))
      fun _ => Syncing base :=
    Holds.forM fun config _ => Holds.nextId_then fun id => holds_upsertSource id createdAt config
  have started : ∀ tables, tables = base → Syncing base tables := fun _ same =>
    ⟨base.sources, same, valid.sourceIds, fun source member => ⟨source, member, rfl⟩⟩
  apply (upserted.weaken started fun _ _ syncing => syncing).bind
  intro _
  have disabled : Holds (Syncing base) (execute (Sources.disableOthers configs))
      fun _ => Syncing base := by
    apply holds_execute
    rintro _ ⟨sources, rfl, configured⟩
    refine ⟨_, rfl, configured.map fun source => ?_⟩
    split <;> rfl
  apply disabled.bind
  intro _
  have compared : Holds (Syncing base)
      (recordChanges runtime (snapshotOf runtime .all .accounts now base))
      fun _ => Synced runtime base := by
    apply Holds.each
    rintro _ ⟨sources, rfl, configured⟩
    apply (holds_compared _).weaken fun _ initial => initial
    exact fun _ tables recorded => ⟨now, sources, configured, recorded⟩
  apply compared.bind
  exact fun _ => holds_commit _

theorem Configured.valid {sources : List Source} (configured : Configured base sources)
    (valid : Valid charged base) : Valid charged { base with sources := sources } :=
  { valid with
    sourceIds := configured.ids
    accountSources := by
      intro account member
      obtain ⟨source, stored, same⟩ := valid.accountSources account member
      obtain ⟨next, kept, named⟩ := configured.stays source stored
      exact ⟨next, kept, named.trans same⟩ }

theorem valid_synced {after : Tables} (valid : Valid charged base)
    (synced : Synced runtime base after) : Valid charged after := by
  obtain ⟨_, sources, configured, entries, rfl, _⟩ := synced
  exact (configured.valid valid).feed _

/-- Without the exhaustion evidence of the named accounts. -/
def without (ids : List AccountId) (tables : Tables) : Tables :=
  Windows.deleteWindows (fun window =>
    decide (window.accountId ∈ ids) && decide (window.windowKey = Windows.responseKey)) tables

/-- The change of each account whose evidence expired. -/
def evidence (ids : List AccountId) : List Subject := ids.map fun id => .window id Windows.responseKey

theorem inOrder_singleton {subjects : List Subject} {subject : Subject}
    (only : ∀ other, other ∈ subjects ↔ other = subject) : inOrder subjects = [subject] := by
  have one : (inOrder subjects).Perm [subject] := by
    apply (List.perm_insertionSort _ _).trans
    apply (List.perm_ext_iff_of_nodup (List.nodup_dedup _) (List.nodup_singleton _)).mpr
    intro other
    rw [List.mem_dedup, only, List.mem_singleton]
  exact List.perm_singleton.mp one

variable {tables : Tables} {id : AccountId} {now : Timestamp} {subject : Subject}

/-- Every named account has evidence of exhaustion. -/
def HasEvidence (ids : List AccountId) (tables : Tables) : Prop :=
  ∀ id ∈ ids, ∃ window ∈ tables.windows, window.accountId = id ∧ window.windowKey = Windows.responseKey

/-- Deleting evidence changes what is seen of that evidence alone. -/
theorem view_without (valid : Valid charged tables) {ids : List AccountId}
    (present : HasEvidence ids tables) :
    view runtime tables now subject ≠ view runtime (without ids tables) now subject ↔
      subject ∈ evidence ids := by
  have left : ∀ id windowKey, windowOf (without ids tables) id windowKey =
      (windowOf tables id windowKey).filter fun window =>
        !(decide (window.accountId ∈ ids) && decide (window.windowKey = Windows.responseKey)) := by
    intro id windowKey
    exact lookup_filter valid.windowKeys _ _
  cases subject with
  | window id windowKey =>
    simp only [view, left, evidence, List.mem_map, Subject.window.injEq]
    cases found : windowOf tables id windowKey with
    | none =>
      simp only [Option.filter_none, Option.map_none, ne_eq, not_true_eq_false, false_iff]
      rintro ⟨_, listed, rfl, rfl⟩
      obtain ⟨gone, stored, owned, named⟩ := present _ listed
      rw [(windowOf_eq_some valid).mpr ⟨stored, owned, named⟩] at found
      cases found
    | some window =>
      obtain ⟨_, rfl, rfl⟩ := (windowOf_eq_some valid).mp found
      by_cases listed : window.accountId ∈ ids
      · by_cases named : window.windowKey = Windows.responseKey
        · simp [listed, named]
        · simp [named, Ne.symm named]
      · simp only [listed, decide_false, Bool.false_and, Bool.not_false, Option.filter_some,
          if_true, ne_eq, not_true_eq_false, false_iff]
        rintro ⟨_, member, rfl, _⟩
        exact listed member
  | account id => simp [view, evidence]; rfl
  | plan id => simp [view, evidence]; rfl
  | resets id => simp [view, evidence]; rfl
  | usage | quotaAction | price _ | arrival _ _ => simp [view, evidence]

theorem without_append (ids : List AccountId) (id : AccountId) (tables : Tables) :
    Windows.deleteWindows (Windows.isWindow id Windows.responseKey) (without ids tables) =
      without (ids ++ [id]) tables := by
  simp only [without, Windows.deleteWindows, List.filter_filter, Tables.mk.injEq, true_and, and_true]
  apply List.filter_congr
  intro window _
  by_cases same : window.accountId = id
  · simpa [Windows.isWindow, same] using Or.inr
  · simp [Windows.isWindow, same]

theorem without_nil (tables : Tables) : without [] tables = tables := by
  simp [without, Windows.deleteWindows]

theorem deleted_changes (valid : Valid charged tables)
    (present : ∃ window ∈ tables.windows, window.accountId = id ∧ window.windowKey = Windows.responseKey) :
    inOrder (changedSubjects (snapshotOf runtime (.account id) .quota now tables).seen
      (snapshotOf runtime (.account id) .quota now
        (Windows.deleteWindows (Windows.isWindow id Windows.responseKey) tables)).seen) =
      [.window id Windows.responseKey] := by
  have deletion := present
  obtain ⟨gone, stored, rfl, _⟩ := present
  obtain ⟨account, known, same⟩ := valid.windowAccounts gone stored
  have inside : Inside tables.accounts account.sourceId gone.accountId := ⟨account, known, same, rfl⟩
  have frame : Frame charged .quota account.sourceId tables
      (Windows.deleteWindows (Windows.isWindow gone.accountId Windows.responseKey) tables) := by
    apply (Frame.start valid .quota account.sourceId).deleteWindows
    intro window _ expired
    simp only [Windows.isWindow, Bool.and_eq_true, decide_eq_true_eq] at expired
    exact expired.1 ▸ inside
  rw [Landing.snapshot_account valid inside, Landing.snapshot_account frame.valid inside]
  apply inOrder_singleton
  intro subject
  have distinct : ∀ {either : Tables}, Valid charged either →
      Distinct Prod.fst (Landing.seenIn runtime account.sourceId .quota now either) :=
    fun holds => distinct_seen holds rfl
  have one := without_append [] gone.accountId tables
  rw [without_nil, List.nil_append] at one
  rw [mem_changedSubjects (distinct valid) (distinct frame.valid), ne_eq,
    seenIn_iff_view now frame valid, one, ← ne_eq, view_without valid]
  · simp [evidence]
  · rintro _ listed
    exact List.mem_singleton.mp listed ▸ deletion

theorem valid_without (valid : Valid charged tables) (ids : List AccountId) :
    Valid charged (without ids tables) :=
  { valid with
    windowKeys := valid.windowKeys.filter _
    windowAccounts := fun window member =>
      valid.windowAccounts window (List.mem_filter.mp member).1 }

theorem holds_expireAccount (valid : Valid charged base) {done : List AccountId} (fresh : id ∉ done)
    (present : ∃ window ∈ base.windows, window.accountId = id ∧ window.windowKey = Windows.responseKey) :
    Holds (Recorded (without done base) (evidence done)) (Response.expireAccount runtime id)
      fun _ => Recorded (without (done ++ [id]) base) (evidence (done ++ [id])) := by
  have still : ∃ window ∈ (without done base).windows, window.accountId = id ∧
      window.windowKey = Windows.responseKey := by
    obtain ⟨window, stored, rfl, named⟩ := present
    exact ⟨window, List.mem_filter.mpr ⟨stored, by simp [fresh]⟩, rfl, named⟩
  have started : Holds (Recorded (without done base) (evidence done))
      (Snapshots.quota runtime (.account id)) fun snapshot tables =>
        Recorded (without done base) (evidence done) tables ∧
          ∃ now, snapshot = snapshotOf runtime (.account id) .quota now (without done base) := by
    apply Holds.reading_then
    intro now
    apply holds_read.weaken (fun _ recorded => recorded)
    rintro snapshot tables ⟨recorded, rfl⟩
    refine ⟨recorded, now, ?_⟩
    obtain ⟨entries, rfl, _⟩ := recorded
    rfl
  apply started.bind
  intro snapshot
  have deleted : Holds (fun tables => Recorded (without done base) (evidence done) tables ∧
      ∃ now, snapshot = snapshotOf runtime (.account id) .quota now (without done base))
      (execute (Windows.deleteWindows (Windows.isWindow id Windows.responseKey))) fun _ tables =>
        Recorded (without (done ++ [id]) base) (evidence done) tables ∧
          ∃ now, snapshot = snapshotOf runtime (.account id) .quota now (without done base) := by
    apply holds_execute
    rintro _ ⟨⟨entries, rfl, same⟩, known⟩
    refine ⟨⟨entries, ?_, same⟩, known⟩
    rw [← without_append]
    rfl
  apply deleted.bind
  intro _
  constructor
  rintro session value finish ⟨recorded, now, rfl⟩ ran
  have compared := (holds_compared _).ends session value finish recorded ran
  have changes := @deleted_changes charged runtime (without done base) id now
    (valid_without valid done) still
  rw [without_append] at changes
  have listed : evidence (done ++ [id]) = evidence done ++ [.window id Windows.responseKey] := by
    simp [evidence]
  rw [listed, ← changes]
  exact compared

/-- The accounts whose evidence of exhaustion has passed its reset. -/
def expiredIds (now : Timestamp) (tables : Tables) : List AccountId :=
  (tables.windows.filter (Response.isExpired now)).map QuotaWindow.accountId

theorem nodup_expiredIds (valid : Valid charged base) (now : Timestamp) :
    (expiredIds now base).Nodup := by
  apply List.pairwise_map.mpr
  apply (valid.windowKeys.filter _).imp_of_mem
  intro first second left right apart same
  have named : ∀ {window : QuotaWindow}, window ∈ base.windows.filter (Response.isExpired now) →
      window.windowKey = Windows.responseKey := by
    intro window member
    have expired := (List.mem_filter.mp member).2
    simp only [Response.isExpired, Bool.and_eq_true, decide_eq_true_eq] at expired
    exact expired.1
  exact apart (Prod.ext same ((named left).trans (named right).symm))

/-- What expiry leaves, and what it announces. -/
def Expired (now : Timestamp) (base after : Tables) : Prop :=
  Recorded (without (expiredIds now base) base) (evidence (expiredIds now base)) after

theorem holds_expire (valid : Valid charged base) (now : Timestamp) :
    Holds (fun tables => tables = base) (Response.expire runtime now) (OnCommit (Expired now base)) := by
  apply fetch_at
  split
  case isTrue => exact holds_dropped _
  have loop : ∀ rest done, done ++ rest = expiredIds now base →
      Holds (Recorded (without done base) (evidence done)) (forM rest (Response.expireAccount runtime))
        fun _ => Expired now base := by
    intro rest
    induction rest with
    | nil =>
      intro done whole
      rw [List.append_nil] at whole
      subst whole
      exact Holds.pure fun _ recorded => recorded
    | cons id rest ih =>
      intro done whole
      rw [List.forM_cons]
      have nodup := nodup_expiredIds valid now
      rw [← whole] at nodup
      have fresh : id ∉ done := fun member =>
        (List.nodup_append.mp nodup).2.2 id member id (by simp) rfl
      have listed : id ∈ expiredIds now base := whole ▸ by simp
      obtain ⟨window, expired, rfl⟩ := List.mem_map.mp listed
      obtain ⟨stored, expired⟩ := List.mem_filter.mp expired
      simp only [Response.isExpired, Bool.and_eq_true, decide_eq_true_eq] at expired
      apply (holds_expireAccount valid fresh ⟨window, stored, rfl, expired.1⟩).bind
      intro _
      exact ih (done ++ [window.accountId]) (by simpa using whole)
  have nothing : ∀ tables, tables = base → Recorded (without [] base) (evidence []) tables := by
    intro tables start
    rw [without_nil, start]
    exact recorded_self base
  apply ((loop _ [] rfl).weaken nothing fun _ _ expired => expired).bind
  exact fun _ => holds_commit _

theorem valid_expired {after : Tables} (valid : Valid charged base) (expired : Expired now base after) :
    Valid charged after := by
  obtain ⟨entries, rfl, _⟩ := expired
  exact (valid_without valid _).feed _

end MeteredUsage.Store.Upkeep

import MeteredUsage.Store.Locality

/-! The writes of one source, whole: what they leave is in the frame of their source, and the
changes they recorded are those of their own comparison, with nothing a reader compares
beside them. -/

namespace MeteredUsage.Store.Landing
open MeteredUsage.Values MeteredUsage.Store.Schema MeteredUsage.Store.Accounts
open MeteredUsage.Store.Continuations MeteredUsage.Store.Validity MeteredUsage.Store.Frames
open MeteredUsage.Store.Snapshots MeteredUsage.Store.Statements MeteredUsage.Store.Locality
open MeteredUsage.Library.Keyed MeteredUsage.Library.Transaction
open MeteredUsage.Changes.Table (Subject)

variable {charged : Prop} {parts : Parts} {source : SourceId} {base : Tables}
  {runtime : Sql.Runtime}

/-- What a snapshot of a source keeps. -/
def seenIn (runtime : Sql.Runtime) (source : SourceId) (parts : Parts) (now : Timestamp)
    (tables : Tables) : List (Subject × Seen) :=
  (snapshotOf runtime (.source source) parts now tables).seen

/-- How a write of one source ends when it commits, having compared at an instant. -/
def LandedAt (runtime : Sql.Runtime) (charged : Prop) (parts : Parts) (source : SourceId)
    (now : Timestamp) (base after : Tables) : Prop :=
  ∃ middle rest, Frame charged parts source base middle ∧
    (∀ subject ∈ rest, isHidden subject = true) ∧
    Recorded middle (inOrder (changedSubjects (seenIn runtime source parts now base)
      (seenIn runtime source parts now middle)) ++ rest) after

def Landed (runtime : Sql.Runtime) (charged : Prop) (parts : Parts) (source : SourceId)
    (base after : Tables) : Prop :=
  ∃ now, LandedAt runtime charged parts source now base after

theorem Landed.ofAt {Value : Type} {now : Timestamp} (ending : Ending Value) (tables : Tables)
    (landed : OnCommit (LandedAt runtime charged parts source now base) ending tables) :
    OnCommit (Landed runtime charged parts source base) ending tables := by
  cases ending with
  | committed _ => exact ⟨now, landed⟩
  | dropped _ => trivial

theorem accountOf_eq_some {tables : Tables} (valid : Valid charged tables) {id : AccountId}
    {account : Account} :
    accountOf tables id = some account ↔ account ∈ tables.accounts ∧ account.id = id :=
  lookup_eq_some valid.accountIds

/-- An account's scope reads its whole source. -/
theorem filter_account {tables : Tables} (valid : Valid charged tables) {id : AccountId}
    (inside : Inside tables.accounts source id) :
    Scope.filter (.account id) tables = Scope.filter (.source source) tables := by
  obtain ⟨account, member, same, inSource⟩ := inside
  have found := (accountOf_eq_some valid).mpr ⟨member, same⟩
  simp only [Scope.filter, found, inSource]

theorem snapshot_account {tables : Tables} (valid : Valid charged tables) {id : AccountId}
    (inside : Inside tables.accounts source id) (now : Timestamp) :
    (snapshotOf runtime (.account id) parts now tables).seen =
      seenIn runtime source parts now tables := by
  simp only [seenIn, snapshotOf, filter_account valid inside]

/-- A comparison ends the work on a source. -/
theorem landed_compared {snapshot : Snapshot} {now : Timestamp}
    (before : snapshot.seen = seenIn runtime source parts now base)
    (reads : ∀ tables, Frame charged parts source base tables →
      (snapshotOf runtime snapshot.scope snapshot.parts snapshot.now tables).seen =
        seenIn runtime source parts now tables) :
    Holds (Frame charged parts source base) (recordChanges runtime snapshot)
      fun _ => LandedAt runtime charged parts source now base := by
  apply Holds.each
  intro middle frame
  apply (holds_compared snapshot).weaken fun _ initial => initial
  intro _ tables recorded
  rw [before, reads middle frame, List.nil_append] at recorded
  refine ⟨middle, [], frame, by simp, ?_⟩
  rw [List.append_nil]
  exact recorded

/-- Changes that are not compared may follow the comparison. -/
theorem landed_record {now : Timestamp} {subject : Subject} (hidden : isHidden subject = true) :
    Holds (LandedAt runtime charged parts source now base) (record subject)
      fun _ => LandedAt runtime charged parts source now base := by
  constructor
  rintro session value finish ⟨middle, rest, frame, quiet, recorded⟩ ran
  have later := (holds_record_one subject).ends session value finish recorded ran
  rw [List.append_assoc] at later
  refine ⟨middle, rest ++ [subject], frame, ?_, later⟩
  intro other member
  rcases List.mem_append.mp member with earlier | new
  · exact quiet other earlier
  · exact List.mem_singleton.mp new ▸ hidden

theorem startAt {tables : Tables} (valid : Valid charged base) (parts : Parts)
    (source : SourceId) (same : tables = base) : Frame charged parts source base tables :=
  same ▸ Frame.start valid parts source

theorem holds_store (valid : Valid charged base) (listing : Credentials.AuthFiles) :
    Holds (fun tables => tables = base) (Quota.store runtime source listing)
      (OnCommit (Landed runtime charged .accounts source base)) := by
  apply read_then
  intro now
  apply Holds.bind
  · exact (holds_storeFiles _ _ _).weaken (fun _ same => startAt valid .accounts source same)
      fun _ _ frame => frame
  intro listed
  apply (Holds.onlyIf (fun _ => holds_markUnlisted _) fun _ _ frame => frame).bind
  intro _
  apply (landed_compared rfl fun _ _ => rfl).bind
  exact fun _ => (holds_commit _).weaken (fun _ landed => landed) Landed.ofAt

/-- The parts of an ingest's comparison. -/
def ingestParts (records : List Events.Incoming) : Parts :=
  if records.any Ingest.namesMeta then .quota else .accounts

/-- An ingest once it has read the clock for its batch and for its comparison. -/
def ingesting (runtime : Sql.Runtime) (source : SourceId) (records : List Events.Incoming)
    (receivedAt now : Timestamp) : Write (Ending Ingest.Progress) := do
  let snapshot ← Snapshots.read runtime (.source source) (ingestParts records) now
  let progress ← records.foldlM (Ingest.ingestNext runtime source receivedAt) .start
  recordChanges runtime snapshot
  forM progress.arrivals fun arrival => record (.arrival arrival.1 arrival.2)
  onlyIf (0 < progress.report.accepted) (record .usage)
  commit (.database .query) progress

theorem ingest_eq (records : List Events.Incoming) :
    Ingest.ingest runtime source records =
      reading >>= fun receivedAt => reading >>= ingesting runtime source records receivedAt := by
  unfold Ingest.ingest Ingest.snapshotBefore ingesting ingestParts Snapshots.quota Snapshots.accounts
  split <;> simp only [bind_assoc]

theorem holds_ingesting (valid : Valid charged base) (records : List Events.Incoming)
    (receivedAt now : Timestamp) :
    Holds (fun tables => tables = base) (ingesting runtime source records receivedAt now)
      (OnCommit (LandedAt runtime charged (ingestParts records) source now base)) := by
  apply read_at
  apply Holds.bind
  · have kept : Holds (Frame charged (ingestParts records) source base)
        (records.foldlM (Ingest.ingestNext runtime source receivedAt) .start)
        fun _ => Frame charged (ingestParts records) source base := by
      apply Holds.foldlM_keeps
      intro record member progress
      apply holds_ingestNext
      intro named
      exact if_pos (List.any_eq_true.mpr ⟨record, member, named⟩)
    exact kept.weaken (fun _ same => startAt valid _ source same) fun _ _ frame => frame
  intro progress
  apply (landed_compared rfl fun _ _ => rfl).bind
  intro _
  apply (Holds.forM fun arrival _ => landed_record rfl).bind
  intro _
  apply (Holds.onlyIf (fun _ => landed_record rfl) fun _ _ landed => landed).bind
  exact fun _ => holds_commit _

theorem holds_ingest (valid : Valid charged base) (records : List Events.Incoming) :
    Holds (fun tables => tables = base) (Ingest.ingest runtime source records)
      (OnCommit (Landed runtime charged (ingestParts records) source base)) := by
  rw [ingest_eq]
  apply Holds.reading_then
  intro receivedAt
  apply Holds.reading_then
  intro now
  exact (holds_ingesting valid records receivedAt now).weaken (fun _ same => same) Landed.ofAt

theorem holds_merge (valid : Valid charged base) (id into : AccountId) (requires : Bool) :
    Holds (fun tables => tables = base) (AccountWrites.merge runtime id into requires)
      (OnCommit fun tables => ∃ source, Landed runtime charged .accounts source base tables ∧
        Pair source id into base) := by
  apply Holds.refuseIf_then
  intro differ
  apply fetch_at
  apply Holds.require_then
  intro merged mergedFound
  apply fetch_at
  apply Holds.require_then
  intro target targetFound
  apply Holds.refuseIf_then
  intro oneSource
  apply Holds.refuseIf_then
  intro mergedRoot
  apply Holds.refuseIf_then
  intro targetRoot
  have rechecked : Holds (fun tables => tables = base)
      (onlyIf requires do
        let continuation ← fetch (load · id into)
        refuseIf continuation.isNone (.merge .continuationChanged))
      fun _ tables => tables = base :=
    Holds.onlyIf (fun _ => fetch_at (Holds.refuseIf fun _ _ same => same)) fun _ _ same => same
  apply rechecked.bind
  intro _
  apply read_then
  intro now
  obtain ⟨mergedStored, mergedId⟩ := (accountOf_eq_some valid).mp mergedFound
  obtain ⟨targetStored, targetId⟩ := (accountOf_eq_some valid).mp targetFound
  have pair : Pair merged.sourceId id into base :=
    ⟨differ, ⟨merged, mergedStored, mergedId, rfl, by simpa using mergedRoot⟩,
      ⟨target, targetStored, targetId, (not_not.mp oneSource).symm, by simpa using targetRoot⟩⟩
  apply Holds.bind
  · exact (holds_combine merged).weaken
      (fun tables same => ⟨startAt valid .accounts merged.sourceId same, same ▸ pair⟩)
      fun _ _ frame => frame
  intro _
  apply (landed_compared rfl fun _ _ => rfl).bind
  intro _
  exact (holds_commit _).weaken (fun _ landed => ⟨merged.sourceId, ⟨now, landed⟩, pair⟩)
    fun _ _ holds => holds

theorem keeps_rename (displayName : Option String) :
    KeepsIdentity (AccountWrites.withName displayName) :=
  ⟨fun _ => rfl, fun _ => rfl, fun _ => rfl, fun _ => rfl⟩

theorem holds_rename (valid : Valid charged base) (id : AccountId) (displayName : Option String) :
    Holds (fun tables => tables = base) (AccountWrites.rename runtime id displayName)
      (OnCommit fun tables => ∃ source, Landed runtime charged .accounts source base tables) := by
  apply read_then
  intro now
  apply fetch_at
  by_cases known : ∃ account ∈ base.accounts, account.id = id
  · obtain ⟨account, member, same⟩ := known
    have inside : Inside base.accounts account.sourceId id := ⟨account, member, same, rfl⟩
    have renamed : base.accounts.any (fun account => account.id = id) = true :=
      List.any_eq_true.mpr ⟨account, member, by simp [same]⟩
    have named : Holds (fun tables => tables = base)
        (execute (updateAccount id (AccountWrites.withName displayName)))
        fun _ => Frame charged .accounts account.sourceId base := by
      apply holds_execute
      rintro tables rfl
      exact (Frame.start valid .accounts account.sourceId).updateAccount (keeps_rename displayName) inside
    apply named.bind
    intro _
    rw [if_pos renamed]
    apply (landed_compared (snapshot_account valid inside now) fun tables frame =>
      snapshot_account frame.valid (frame.stillInside inside) now).bind
    intro _
    exact (holds_commit _).weaken (fun _ landed => ⟨account.sourceId, ⟨now, landed⟩⟩)
      fun _ _ holds => holds
  · have missing : ¬base.accounts.any (fun account => account.id = id) = true := by simpa using known
    rw [if_neg missing]
    have unnamed : Holds (fun tables => tables = base)
        (execute (updateAccount id (AccountWrites.withName displayName))) fun _ _ => True :=
      holds_execute fun _ _ => trivial
    exact unnamed.bind fun _ => holds_dropped _

/-- Work on one account's quota between the two reads of its comparison. -/
def comparing (runtime : Sql.Runtime) (id : AccountId) (work : Write Unit) (now : Timestamp) :
    Write (Ending Unit) := do
  let snapshot ← Snapshots.read runtime (.account id) .quota now
  work
  recordChanges runtime snapshot
  commit (.database .query) ()

theorem holds_comparing (valid : Valid charged base) {id : AccountId}
    (inside : Inside base.accounts source id) {work : Write Unit}
    (kept : Holds (Local charged source base id) work fun _ => Local charged source base id)
    (now : Timestamp) :
    Holds (fun tables => tables = base) (comparing runtime id work now)
      (OnCommit (LandedAt runtime charged .quota source now base)) := by
  apply read_at
  apply (kept.weaken (fun _ same => ⟨startAt valid .quota source same, same ▸ inside⟩)
    fun _ _ stays => stays.1).bind
  intro _
  apply (landed_compared (snapshot_account valid inside now) fun tables frame =>
    snapshot_account frame.valid (frame.stillInside inside) now).bind
  exact fun _ => holds_commit _

theorem clear_eq (id : AccountId) :
    Quota.clear runtime id = reading >>= comparing runtime id (execute (Windows.clearCredits id)) := by
  unfold Quota.clear comparing Snapshots.quota
  simp only [bind_assoc]

theorem recordRefresh_eq (id : AccountId) (result : Except Credentials.RefreshError Quota.Observation)
    (refreshedAt : Timestamp) :
    Quota.recordRefresh runtime id result refreshedAt =
      reading >>= comparing runtime id (Quota.storeResult runtime id result refreshedAt) := by
  unfold Quota.recordRefresh comparing Snapshots.quota
  simp only [bind_assoc]

/-- What a write to an account that is not there leaves, and the nothing it records. -/
def Idle (base after : Tables) : Prop :=
  ∃ recoveries, Recorded { base with recoveries := recoveries } [] after

/-- A snapshot of an account that is not there keeps nothing. -/
theorem seen_absent {tables : Tables} {id : AccountId}
    (absent : ∀ account ∈ tables.accounts, account.id ≠ id) (now : Timestamp) :
    (snapshotOf runtime (.account id) .quota now tables).seen = [] := by
  have unknown : accountOf tables id = none := lookup_eq_none.mpr absent
  have refuses : ∀ account ∈ tables.accounts,
      Filter.admits ⟨none, some id⟩ tables account = false := by
    intro account member
    simp [Filter.admits, unknown, absent account member]
  have refusesExactly : ∀ account ∈ tables.accounts,
      Filter.admitsExactly ⟨none, some id⟩ account = false := by
    intro account member
    simp [Filter.admitsExactly, absent account member]
  have accounts : seenAccounts tables ⟨none, some id⟩ = [] := by
    have none_admitted : tables.accounts.filter (Filter.admits ⟨none, some id⟩ tables) = [] :=
      List.filter_eq_nil_iff.mpr fun account member => by simp [refuses account member]
    rw [seenAccounts, none_admitted, List.filterMap_nil]
  have plans : seenPlans tables ⟨none, some id⟩ = [] := by
    have none_admitted : tables.plans.filter (fun plan =>
        (accountOf tables plan.accountId).any (Filter.admits ⟨none, some id⟩ tables)) = [] := by
      apply List.filter_eq_nil_iff.mpr
      intro plan _
      cases found : accountOf tables plan.accountId with
      | none => simp
      | some account => simp [refuses account (lookup_mem found).1]
    rw [seenPlans, none_admitted, List.map_nil]
  have windows : seenWindows runtime tables ⟨none, some id⟩ = [] := by
    have none_admitted : tables.windows.filter (fun window =>
        (accountOf tables window.accountId).any (Filter.admitsExactly ⟨none, some id⟩)) = [] := by
      apply List.filter_eq_nil_iff.mpr
      intro window _
      cases found : accountOf tables window.accountId with
      | none => simp
      | some account => simp [refusesExactly account (lookup_mem found).1]
    rw [seenWindows, none_admitted, List.map_nil]
  have resets : seenResets tables ⟨none, some id⟩ now = [] := by
    have none_admitted : tables.accounts.filter (Filter.admitsExactly ⟨none, some id⟩) = [] :=
      List.filter_eq_nil_iff.mpr fun account member => by simp [refusesExactly account member]
    rw [seenResets, none_admitted, List.filter_nil, List.map_nil]
  simp [snapshotOf, Scope.filter, unknown, accounts, plans, windows, resets]

/-- The tables as they were, but for the retries forgotten. -/
def Retried (base tables : Tables) : Prop :=
  ∃ recoveries, tables = { base with recoveries := recoveries }

theorem holds_comparing_absent {id : AccountId}
    (absent : ∀ account ∈ base.accounts, account.id ≠ id) {work : Write Unit}
    (kept : Holds (fun tables => tables = base) work fun _ => Retried base) :
    Holds (fun tables => tables = base) (reading >>= comparing runtime id work)
      (OnCommit (Idle base)) := by
  apply Holds.reading_then
  intro now
  apply read_at
  apply kept.bind
  intro _
  have compared : Holds (Retried base)
      (recordChanges runtime (snapshotOf runtime (.account id) .quota now base))
      fun _ => Idle base := by
    apply Holds.each
    rintro _ ⟨recoveries, rfl⟩
    apply (holds_compared _).weaken fun _ initial => initial
    intro _ tables recorded
    have nothing := @seen_absent runtime { base with recoveries := recoveries } id absent now
    have silent : Recorded { base with recoveries := recoveries }
        ([] ++ inOrder (changedSubjects (snapshotOf runtime (.account id) .quota now base).seen
          (snapshotOf runtime (.account id) .quota now { base with recoveries := recoveries }).seen))
        tables := recorded
    rw [seen_absent absent, nothing] at silent
    exact ⟨recoveries, silent⟩
  apply compared.bind
  exact fun _ => holds_commit _

variable {id : AccountId}

theorem Retried.clearCredits (valid : Valid charged base)
    (absent : ∀ account ∈ base.accounts, account.id ≠ id) {tables : Tables}
    (retried : Retried base tables) : Retried base (Windows.clearCredits id tables) := by
  obtain ⟨recoveries, rfl⟩ := retried
  refine ⟨recoveries, ?_⟩
  have kept : base.credits.filter (fun credit => credit.accountId ≠ id) = base.credits := by
    apply List.filter_eq_self.mpr
    intro credit member
    obtain ⟨account, stored, same⟩ := valid.creditAccounts credit member
    have apart := absent account stored
    rw [same] at apart
    exact decide_eq_true apart
  simp only [Windows.clearCredits, kept]

theorem holds_clear_absent (valid : Valid charged base)
    (absent : ∀ account ∈ base.accounts, account.id ≠ id) :
    Holds (fun tables => tables = base) (Quota.clear runtime id) (OnCommit (Idle base)) := by
  rw [clear_eq]
  exact holds_comparing_absent absent (holds_execute fun _ same =>
    Retried.clearCredits valid absent ⟨base.recoveries, same⟩)

theorem holds_refreshed_absent (valid : Valid charged base)
    (absent : ∀ account ∈ base.accounts, account.id ≠ id) (refreshedAt : Timestamp)
    (outcome : Except Credentials.RefreshError (Option String)) :
    Holds (Retried base) (Credentials.refreshed id refreshedAt outcome) fun _ => Retried base := by
  apply holds_execute
  rintro tables ⟨recoveries, rfl⟩
  refine ⟨recoveries, ?_⟩
  have kept : base.states.map (fun state =>
      if state.accountId = id then Credentials.afterRefresh refreshedAt outcome state else state) =
      base.states := by
    apply (List.map_congr_left _).trans (List.map_id _)
    intro state member
    obtain ⟨account, stored, same⟩ := valid.stateAccounts state member
    exact if_neg (same ▸ absent account stored)
  simp only [kept]

theorem holds_replace_absent (valid : Valid charged base)
    (absent : ∀ account ∈ base.accounts, account.id ≠ id) (windows : List Windows.NewWindow)
    (refreshedAt : Timestamp) :
    Holds (Retried base) (Windows.replace runtime id windows refreshedAt) fun _ => Retried base := by
  have deleted : Holds (Retried base) (execute (Windows.deleteWindows fun window =>
      window.accountId = id && window.windowKey ≠ Windows.responseKey)) fun _ => Retried base := by
    apply holds_execute
    rintro tables ⟨recoveries, rfl⟩
    refine ⟨recoveries, ?_⟩
    have kept : base.windows.filter (fun window =>
        !(window.accountId = id && window.windowKey ≠ Windows.responseKey : Bool)) = base.windows := by
      apply List.filter_eq_self.mpr
      intro window member
      obtain ⟨account, stored, same⟩ := valid.windowAccounts window member
      simp [← same, absent account stored]
    simp only [Windows.deleteWindows, kept]
  apply fetch_then
  intro stored
  apply (deleted.weaken (fun _ known => known.1) fun _ _ kept => kept).bind
  intro _
  apply Holds.forM
  intro window _
  have refused : Holds (Retried base)
      (attempt (Windows.insertWindow (window.row stored id refreshedAt))) fun _ _ => False := by
    apply holds_attempt
    rintro tables _ next ⟨recoveries, rfl⟩ taken
    unfold Windows.insertWindow at taken
    split at taken
    next => cases taken
    next =>
      split at taken
      next found =>
        obtain ⟨account, stored, same⟩ := List.any_eq_true.mp found
        exact absent account stored (of_decide_eq_true same)
      next => cases taken
  exact refused.bind fun _ => ⟨fun _ _ _ impossible _ => impossible.elim⟩

theorem holds_storeResets_absent (valid : Valid charged base)
    (absent : ∀ account ∈ base.accounts, account.id ≠ id) (resets : Quota.ManualResets) :
    Holds (Retried base) (Quota.storeResets id resets) fun _ => Retried base := by
  cases resets with
  | unchanged => exact Holds.pure fun _ kept => kept
  | reported grants =>
    have cleared : Holds (Retried base) (execute (Windows.clearCredits id)) fun _ => Retried base :=
      holds_execute fun _ retried => Retried.clearCredits valid absent retried
    apply cleared.bind
    intro _
    apply Holds.forM
    intro grant _
    apply holds_attempt
    rintro tables _ next ⟨recoveries, rfl⟩ taken
    unfold Windows.insertCredit at taken
    split at taken
    next found =>
      obtain ⟨account, stored, same⟩ := List.any_eq_true.mp found
      exact (absent account stored (of_decide_eq_true same)).elim
    next => cases taken

theorem holds_recordRefresh_absent (valid : Valid charged base)
    (absent : ∀ account ∈ base.accounts, account.id ≠ id)
    (result : Except Credentials.RefreshError Quota.Observation) (refreshedAt : Timestamp) :
    Holds (fun tables => tables = base) (Quota.recordRefresh runtime id result refreshedAt)
      (OnCommit (Idle base)) := by
  rw [recordRefresh_eq]
  apply holds_comparing_absent absent
  have start : ∀ tables, tables = base → Retried base tables := fun _ same => ⟨base.recoveries, same⟩
  cases result with
  | error error =>
    exact (holds_refreshed_absent valid absent refreshedAt _).weaken start fun _ _ kept => kept
  | ok observation =>
    have forgot : Holds (fun tables => tables = base)
        (execute fun tables => { tables with
          recoveries := tables.recoveries.filter (·.accountId ≠ id) })
        fun _ => Retried base := by
      apply holds_execute
      rintro tables rfl
      exact ⟨_, rfl⟩
    apply forgot.bind
    intro _
    apply (holds_replace_absent valid absent _ _).bind
    intro _
    apply (holds_storeResets_absent valid absent _).bind
    intro _
    exact holds_refreshed_absent valid absent refreshedAt _

theorem holds_clear (valid : Valid charged base) (inside : Inside base.accounts source id) :
    Holds (fun tables => tables = base) (Quota.clear runtime id)
      (OnCommit (Landed runtime charged .quota source base)) := by
  rw [clear_eq]
  apply Holds.reading_then
  intro now
  exact (holds_comparing valid inside holds_clearCredits now).weaken (fun _ same => same) Landed.ofAt

theorem holds_recordRefresh (valid : Valid charged base) (inside : Inside base.accounts source id)
    (result : Except Credentials.RefreshError Quota.Observation) (refreshedAt : Timestamp) :
    Holds (fun tables => tables = base) (Quota.recordRefresh runtime id result refreshedAt)
      (OnCommit (Landed runtime charged .quota source base)) := by
  rw [recordRefresh_eq]
  apply Holds.reading_then
  intro now
  exact (holds_comparing valid inside (holds_storeResult result refreshedAt) now).weaken
    (fun _ same => same) Landed.ofAt

end MeteredUsage.Store.Landing

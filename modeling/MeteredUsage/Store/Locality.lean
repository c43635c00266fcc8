import MeteredUsage.Store.Frames
import MeteredUsage.Store.Statements

/-! The writes of one source stay within it: each part of them keeps the frame of its source,
whatever it finds and however far it gets. -/

namespace MeteredUsage.Store.Locality
open MeteredUsage.Values MeteredUsage.Store.Schema MeteredUsage.Store.Accounts
open MeteredUsage.Store.Validity MeteredUsage.Store.Frames MeteredUsage.Store.Snapshots
open MeteredUsage.Store.Statements MeteredUsage.Library.Keyed MeteredUsage.Library.Transaction

variable {charged : Prop} {parts : Parts} {source : SourceId} {base : Tables}
  {runtime : Sql.Runtime}

/-- The account a record is charged to is one of its source, and not merged. -/
theorem holds_resolve (candidate : AccountId) (provider : String) (account : NewAccount)
    (seenAt : Timestamp) :
    Holds (Frame charged parts source base) (resolve candidate source provider account seenAt)
      fun id tables => Frame charged parts source base tables ∧ Absorbs tables.accounts source id := by
  have upserted : Holds (Frame charged parts source base)
      (attempt (upsert (account.row candidate source provider seenAt) (seen account seenAt)))
      fun row tables => Frame charged parts source base tables ∧ row ∈ tables.accounts ∧
        row.sourceId = source := by
    apply holds_attempt
    intro tables row next frame taken
    obtain ⟨_, member, holds⟩ := frame.valid.upsert (keeps_seen account seenAt) rfl taken
    exact ⟨frame.upsert (keeps_seen account seenAt) rfl rfl taken, member, (holdsKey_iff.mp holds).1⟩
  apply upserted.bind
  intro row
  cases merged : row.mergedInto with
  | none =>
    apply Holds.pure
    rintro tables ⟨frame, member, inSource⟩
    exact ⟨frame, row, member, rfl, inSource, merged⟩
  | some target =>
    have widened : Holds (fun tables => Frame charged parts source base tables ∧
        row ∈ tables.accounts ∧ row.sourceId = source)
        (execute (updateAccount target (widen seenAt seenAt)))
        fun _ tables => Frame charged parts source base tables ∧ Absorbs tables.accounts source target := by
      apply holds_execute
      rintro tables ⟨frame, member, inSource⟩
      have absorbs := frame.valid.merges row member target merged
      rw [inSource] at absorbs
      have keeps := keeps_widen seenAt seenAt
      refine ⟨frame.updateAccount keeps absorbs.inside, ?_⟩
      exact ((keeps.onlyWhere fun account => account.id = target).kept _).absorbs absorbs
    apply widened.bind
    intro _
    exact Holds.pure fun tables kept => kept

theorem holds_register (candidate : AccountId) (provider : String) (account : NewAccount)
    (observedAt : Timestamp) :
    Holds (Frame charged parts source base) (register candidate source provider account observedAt)
      fun id tables => Frame charged parts source base tables ∧ Absorbs tables.accounts source id := by
  have upserted : Holds (Frame charged parts source base)
      (attempt (upsert (account.row candidate source provider observedAt) (listed account provider)))
      fun row tables => Frame charged parts source base tables ∧
        Absorbs tables.accounts source (row.mergedInto.getD row.id) := by
    apply holds_attempt
    intro tables row next frame taken
    obtain ⟨valid, member, holds⟩ := frame.valid.upsert (keeps_listed account provider) rfl taken
    have absorbs := valid.absorbs member
    rw [(holdsKey_iff.mp holds).1] at absorbs
    exact ⟨frame.upsert (keeps_listed account provider) rfl rfl taken, absorbs⟩
  apply upserted.bind
  exact fun row => Holds.pure fun tables kept => kept

/-- A condition on the accounts that a list or a refresh, once past them, leaves alone. -/
theorem holds_observe {id : AccountId} (file : Credentials.AuthFile) (observedAt : Timestamp)
    (hardRefreshable : Bool) :
    Holds (fun tables => Frame charged parts source base tables ∧ Absorbs tables.accounts source id)
      (Credentials.observe runtime id file observedAt hardRefreshable)
      fun _ => Frame charged parts source base := by
  apply holds_attempt
  rintro tables _ next ⟨frame, absorbs⟩ taken
  have apart := frame.inside absorbs.inside
  unfold Credentials.upsertState at taken
  split at taken
  next known =>
    cases taken
    apply frame.mapStates
    · intro state
      dsimp only [Credentials.observed]
      split
      next same => split <;> simp_all [Credentials.AuthFile.state]
      next => rfl
    · intro state observed
      split
      next =>
        unfold Credentials.observed
        split <;> simp [Credentials.AuthFile.state, observed]
      next => exact observed
    · intro state _ named
      split
      next same =>
        rw [same] at named
        simp [Credentials.AuthFile.state, apart] at named
      next => rfl
  next unknown =>
    split at taken
    next =>
      cases taken
      apply frame.appendState _ absorbs.inside rfl
      simpa using unknown
    next => cases taken

theorem holds_storeFile (observedAt : Timestamp) (file : Credentials.AuthFile)
    (authIndex : String) :
    Holds (Frame charged parts source base)
      (Quota.storeFile runtime source observedAt file authIndex)
      fun _ => Frame charged parts source base := by
  apply Holds.nextId_then
  intro candidate
  apply (holds_register _ _ _ _).bind
  intro accountId
  apply (holds_observe _ _ _).bind
  intro _
  exact Holds.pure fun _ frame => frame

theorem holds_markUnlisted (observedAt : Timestamp) :
    Holds (Frame charged parts source base) (Credentials.markUnlisted source observedAt)
      fun _ => Frame charged parts source base := by
  apply holds_execute
  intro tables frame
  apply frame.mapStates
  · intro state
    split <;> rfl
  · intro state observed
    split <;> exact observed
  · intro state member named
    split
    next unlisted =>
      have inside : Inside tables.accounts source state.accountId := by
        simp only [Credentials.isUnlisted, Bool.and_eq_true, List.any_eq_true, decide_eq_true_eq]
          at unlisted
        exact unlisted.2
      rw [frame.inside inside] at named
      cases named
    next => rfl

theorem holds_storeNext (observedAt : Timestamp) (listed : Quota.Listed)
    (file : Credentials.AuthFile) :
    Holds (Frame charged parts source base) (Quota.storeNext runtime source observedAt listed file)
      fun _ => Frame charged parts source base := by
  unfold Quota.storeNext
  split
  next => exact Holds.pure fun _ frame => frame
  next authIndex _ =>
    apply (holds_storeFile _ _ _).bind
    exact fun _ => Holds.pure fun _ frame => frame

theorem holds_storeFiles (observedAt : Timestamp) (files : List Credentials.AuthFile)
    (listed : Quota.Listed) :
    Holds (Frame charged parts source base)
      (files.foldlM (Quota.storeNext runtime source observedAt) listed)
      fun _ => Frame charged parts source base :=
  Holds.foldlM_keeps fun file _ listed => holds_storeNext observedAt listed file

/-- An account of the source, as a refresh of it or a spend names it. -/
def Local (charged : Prop) (source : SourceId) (base : Tables) (id : AccountId) (tables : Tables) :
    Prop :=
  Frame charged .quota source base tables ∧ Inside tables.accounts source id

variable {id : AccountId}

theorem holds_recordSample (window : Windows.NewWindow) (observedAt : Timestamp) :
    Holds (Local charged source base id) (Windows.recordSample runtime id window observedAt)
      fun _ => Local charged source base id := by
  unfold Windows.recordSample
  split
  next row _ =>
    apply holds_execute
    intro tables kept
    exact ⟨{ kept.1 with valid := kept.1.valid.samples _ }, kept.2⟩
  next => exact Holds.pure fun _ kept => kept

theorem holds_replace (windows : List Windows.NewWindow) (observedAt : Timestamp) :
    Holds (Local charged source base id) (Windows.replace runtime id windows observedAt)
      fun _ => Local charged source base id := by
  apply fetch_then
  intro stored
  have deleted : Holds (fun tables => Local charged source base id tables ∧
      stored = tables.windows.filter (·.accountId = id))
      (execute (Windows.deleteWindows fun window =>
        window.accountId = id && window.windowKey ≠ Windows.responseKey))
      fun _ => Local charged source base id := by
    apply holds_execute
    rintro tables ⟨⟨frame, inside⟩, _⟩
    refine ⟨frame.deleteWindows fun window _ named => ?_, inside⟩
    simp only [Bool.and_eq_true, decide_eq_true_eq] at named
    exact named.1 ▸ inside
  apply deleted.bind
  intro _
  apply Holds.forM
  intro window _
  have inserted : Holds (Local charged source base id)
      (attempt (Windows.insertWindow (window.row stored id observedAt)))
      fun _ => Local charged source base id := by
    apply holds_attempt
    rintro tables _ next ⟨frame, inside⟩ taken
    obtain ⟨frame, accounts⟩ := frame.insertWindow inside taken
    exact ⟨frame, accounts ▸ inside⟩
  exact inserted.bind fun _ => holds_recordSample window observedAt

theorem holds_clearCredits :
    Holds (Local charged source base id) (execute (Windows.clearCredits id))
      fun _ => Local charged source base id := by
  apply holds_execute
  intro tables kept
  exact ⟨kept.1.clearCredits kept.2, kept.2⟩

theorem holds_storeResets (resets : Quota.ManualResets) :
    Holds (Local charged source base id) (Quota.storeResets id resets)
      fun _ => Local charged source base id := by
  cases resets with
  | unchanged => exact Holds.pure fun _ kept => kept
  | reported grants =>
    apply holds_clearCredits.bind
    intro _
    apply Holds.forM
    intro grant _
    apply holds_attempt
    rintro tables _ next ⟨frame, inside⟩ taken
    obtain ⟨frame, accounts⟩ := frame.insertCredit inside taken
    exact ⟨frame, accounts ▸ inside⟩

theorem holds_refreshed (refreshedAt : Timestamp)
    (outcome : Except Credentials.RefreshError (Option String)) :
    Holds (Local charged source base id) (Credentials.refreshed id refreshedAt outcome)
      fun _ => Local charged source base id := by
  apply holds_execute
  rintro tables ⟨frame, inside⟩
  refine ⟨frame.mapStates ?_ ?_ ?_, inside⟩
  · intro state
    split
    next => cases outcome <;> rfl
    next => rfl
  · intro state observed
    split
    next => cases outcome <;> exact observed
    next => exact observed
  · intro state _ named
    split
    next same =>
      rw [same, frame.inside inside] at named
      cases named
    next => rfl

theorem holds_storeResult (result : Except Credentials.RefreshError Quota.Observation)
    (refreshedAt : Timestamp) :
    Holds (Local charged source base id) (Quota.storeResult runtime id result refreshedAt)
      fun _ => Local charged source base id := by
  cases result with
  | error error => exact holds_refreshed refreshedAt _
  | ok observation =>
    have forgot : Holds (Local charged source base id)
        (execute fun tables => { tables with
          recoveries := tables.recoveries.filter (·.accountId ≠ id) })
        fun _ => Local charged source base id := by
      apply holds_execute
      intro tables kept
      exact ⟨{ kept.1 with valid := kept.1.valid.recoveries _ }, kept.2⟩
    apply forgot.bind
    intro _
    apply (holds_replace _ _).bind
    intro _
    apply (holds_storeResets _).bind
    intro _
    exact holds_refreshed refreshedAt _

theorem insertEvent_frame {tables next : Tables} {row : UsageEvent} {isNew : Bool}
    (frame : Frame charged parts source base tables) (inSource : row.sourceId = source)
    (absorbs : Absorbs tables.accounts source row.accountId)
    (inserted : Ingest.insertEvent row tables = some (isNew, next)) :
    Frame charged parts source base next ∧ next.accounts = tables.accounts := by
  unfold Ingest.insertEvent at inserted
  split at inserted
  next =>
    cases inserted
    exact ⟨frame, rfl⟩
  next fresh =>
    split at inserted
    next => cases inserted
    next =>
      split at inserted
      next =>
        cases inserted
        refine ⟨{ frame with valid := { frame.valid with
          eventHashes := ?_
          eventAccounts := ?_ } }, rfl⟩
        · apply frame.valid.eventHashes.append_singleton
          intro event member same
          simp only [Prod.mk.injEq] at same
          exact fresh (List.any_eq_true.mpr ⟨event, member, by simp [Ingest.holdsHash, same.1, same.2]⟩)
        · intro event member
          rcases List.mem_append.mp member with stored | new
          · exact frame.valid.eventAccounts event stored
          · rw [List.mem_singleton.mp new, inSource]
            exact absorbs
      next => cases inserted

theorem holds_observeResponse (event : Events.NewUsageEvent) (now : Timestamp)
    (compared : event.provider = "meta" → parts = .quota) :
    Holds (fun tables => Frame charged parts source base tables ∧ Absorbs tables.accounts source id)
      (Response.observe runtime id event now) fun _ => Frame charged parts source base := by
  apply Holds.onlyIf
  case skipped => exact fun _ _ kept => kept.1
  intro taken
  obtain rfl := compared taken.1
  apply fetch_then
  intro newer
  apply Holds.onlyIf
  case skipped => exact fun _ _ kept => kept.1.1
  intro _
  split
  next reset _ =>
    apply holds_attempt
    rintro tables _ next ⟨⟨frame, absorbs⟩, _⟩ inserted
    unfold Response.upsertMarker at inserted
    split at inserted
    next =>
      cases inserted
      apply frame.mapWindows
      · intro window
        split <;> rfl
      · intro window
        split <;> rfl
      · intro window _ named
        split
        next same =>
          have mine : window.accountId = id := by
            simp only [Windows.isWindow, Response.marker, Bool.and_eq_true] at same
            exact of_decide_eq_true same.1.1
          rw [mine, frame.inside absorbs.inside] at named
          cases named
        next => rfl
    next => exact (frame.insertWindow absorbs.inside inserted).1
  next =>
    apply holds_execute
    rintro tables ⟨⟨frame, absorbs⟩, _⟩
    apply frame.deleteWindows
    intro window _ named
    have mine : window.accountId = id := by
      simp only [Windows.isWindow, Bool.and_eq_true, decide_eq_true_eq] at named
      exact named.1.1
    exact mine ▸ absorbs.inside

theorem holds_ingestEvent (receivedAt : Timestamp) (progress : Ingest.Progress)
    (event : Events.NewUsageEvent) (compared : event.provider = "meta" → parts = .quota) :
    Holds (Frame charged parts source base)
      (Ingest.ingestEvent runtime source receivedAt progress event)
      fun _ => Frame charged parts source base := by
  apply Holds.nextId_then
  intro candidate
  apply (holds_resolve _ _ _ _).bind
  intro accountId
  apply Holds.nextId_then
  intro eventId
  have inserted : Holds
      (fun tables => Frame charged parts source base tables ∧ Absorbs tables.accounts source accountId)
      (attempt (Ingest.insertEvent (event.row runtime eventId source accountId)))
      fun _ tables => Frame charged parts source base tables ∧
        Absorbs tables.accounts source accountId := by
    apply holds_attempt
    rintro tables isNew next ⟨frame, absorbs⟩ taken
    obtain ⟨frame, accounts⟩ := insertEvent_frame frame rfl absorbs taken
    exact ⟨frame, accounts ▸ absorbs⟩
  apply inserted.bind
  intro isNew
  split
  next =>
    apply (holds_observeResponse event receivedAt compared).bind
    exact fun _ => Holds.pure fun _ frame => frame
  next => exact Holds.pure fun _ kept => kept.1

theorem holds_ingestNext (receivedAt : Timestamp) (progress : Ingest.Progress)
    (record : Events.Incoming) (compared : Ingest.namesMeta record = true → parts = .quota) :
    Holds (Frame charged parts source base)
      (Ingest.ingestNext runtime source receivedAt progress record)
      fun _ => Frame charged parts source base := by
  cases record with
  | record event =>
    exact holds_ingestEvent receivedAt progress event fun named => compared (by simpa [Ingest.namesMeta])
  | rejected error payload =>
    apply Holds.nextId_then
    intro letter
    have inserted : Holds (Frame charged parts source base)
        (attempt (Ingest.insertDeadLetter ⟨letter, source, receivedAt, error, payload⟩))
        fun _ => Frame charged parts source base := by
      apply holds_attempt
      intro tables _ next frame taken
      unfold Ingest.insertDeadLetter at taken
      split at taken
      next => cases taken
      next =>
        split at taken
        next =>
          cases taken
          exact { frame with valid := frame.valid.deadLetters _ }
        next => cases taken
    apply inserted.bind
    exact fun _ => Holds.pure fun _ frame => frame

/-- The two accounts of a merge, as it found them. -/
structure Pair (source : SourceId) (id into : AccountId) (tables : Tables) : Prop where
  differ : id ≠ into
  merged : Absorbs tables.accounts source id
  target : Absorbs tables.accounts source into

theorem valid_moveEvents {tables : Tables} {into : AccountId} (valid : Valid charged tables)
    (pair : Pair source id into tables) : Valid charged (AccountWrites.moveEvents id into tables) :=
  { valid with
    eventHashes := valid.eventHashes.map fun event => by split <;> rfl
    eventAccounts := by
      intro next member
      obtain ⟨event, stored, rfl⟩ := List.mem_map.mp member
      have absorbs := valid.eventAccounts event stored
      split
      next same =>
        obtain ⟨account, found, named, inSource, _⟩ := absorbs
        obtain ⟨merged, kept, mergedId, mergedSource, _⟩ := pair.merged
        have one := valid.sameAccount found kept (named.trans (same.trans mergedId.symm))
        have same : event.sourceId = source := by rw [← inSource, one, mergedSource]
        exact same ▸ pair.target
      next => exact absorbs }

theorem valid_movePlans {tables : Tables} {into : AccountId} (valid : Valid charged tables)
    (pair : Pair source id into tables) : Valid charged (AccountWrites.movePlans id into tables) :=
  { valid with
    planIds := valid.planIds.map fun plan => by split <;> rfl
    planAccounts := by
      intro next member
      obtain ⟨plan, stored, rfl⟩ := List.mem_map.mp member
      split
      next => exact pair.target.unmerged.hasAccount
      next => exact valid.planAccounts plan stored
    plansCharged := by
      intro holds next member
      obtain ⟨plan, stored, rfl⟩ := List.mem_map.mp member
      split
      next => exact pair.target.unmerged
      next => exact valid.plansCharged holds plan stored }

/-- An account a merge does not point elsewhere. -/
theorem unpointed {into : AccountId} (account : Account)
    (root : account.mergedInto = none) (apart : account.id ≠ id) :
    (if account.id = id ∨ account.mergedInto = some id then { account with mergedInto := some into }
      else account) = account := by
  rw [if_neg]
  rintro (same | merged)
  · exact apart same
  · rw [root] at merged
    cases merged

theorem absorbs_pointAt {tables : Tables} {into other : AccountId} {sourceId : SourceId}
    (absorbs : Absorbs tables.accounts sourceId other) (apart : other ≠ id) :
    Absorbs (AccountWrites.pointAt id into tables).accounts sourceId other := by
  obtain ⟨account, member, same, inSource, root⟩ := absorbs
  exact ⟨account, List.mem_map.mpr ⟨account, member,
    unpointed account root (same ▸ apart)⟩, same, inSource, root⟩

theorem hasAccount_pointAt {tables : Tables} {into other : AccountId}
    (has : HasAccount tables.accounts other) :
    HasAccount (AccountWrites.pointAt id into tables).accounts other := by
  obtain ⟨account, member, same⟩ := has
  refine ⟨_, List.mem_map_of_mem member, ?_⟩
  split <;> exact same

/-- Once nothing is charged to the merged account, it and every account merged into it may
point at the target. -/
theorem valid_pointAt {tables : Tables} {into : AccountId} (valid : Valid charged tables)
    (pair : Pair source id into tables) (noEvents : ∀ event ∈ tables.events, event.accountId ≠ id)
    (noPlans : ∀ plan ∈ tables.plans, plan.accountId ≠ id) :
    Valid charged (AccountWrites.pointAt id into tables) := by
  have target := @absorbs_pointAt id tables into _ _ pair.target pair.differ.symm
  exact { valid with
    accountIds := valid.accountIds.map fun account => by split <;> rfl
    accountKeys := valid.accountKeys.map fun account => by split <;> rfl
    accountSources := by
      intro next member
      obtain ⟨account, stored, rfl⟩ := List.mem_map.mp member
      split <;> exact valid.accountSources account stored
    merges := by
      intro next member
      obtain ⟨account, stored, rfl⟩ := List.mem_map.mp member
      split
      next pointed =>
        rintro _ ⟨⟩
        obtain ⟨merged, kept, mergedId, mergedSource, mergedRoot⟩ := pair.merged
        have inSource : account.sourceId = source := by
          rcases pointed with same | into
          · rw [valid.sameAccount stored kept (same.trans mergedId.symm), mergedSource]
          · obtain ⟨other, found, named, other_source, _⟩ := valid.merges account stored id into
            rw [← other_source, valid.sameAccount found kept (named.trans mergedId.symm), mergedSource]
        exact inSource ▸ target
      next apart =>
        intro other merged
        apply absorbs_pointAt (valid.merges account stored other merged)
        exact fun same => apart (.inr (same ▸ merged))
    stateAccounts := fun state member => hasAccount_pointAt (valid.stateAccounts state member)
    windowAccounts := fun window member => hasAccount_pointAt (valid.windowAccounts window member)
    creditAccounts := fun credit member => hasAccount_pointAt (valid.creditAccounts credit member)
    planAccounts := fun plan member => hasAccount_pointAt (valid.planAccounts plan member)
    plansCharged := by
      intro holds plan member
      obtain ⟨account, stored, same, root⟩ := valid.plansCharged holds plan member
      have absorbs : Absorbs tables.accounts account.sourceId plan.accountId :=
        ⟨account, stored, same, rfl, root⟩
      exact (absorbs_pointAt absorbs (noPlans plan member)).unmerged
    eventAccounts := fun event member =>
      absorbs_pointAt (valid.eventAccounts event member) (noEvents event member) }

variable {into : AccountId}

theorem Pair.moveEvents {tables : Tables} (pair : Pair source id into tables) :
    Pair source id into (AccountWrites.moveEvents id into tables) := ⟨pair.1, pair.2, pair.3⟩

theorem Pair.movePlans {tables : Tables} (pair : Pair source id into tables) :
    Pair source id into (AccountWrites.movePlans id into tables) := ⟨pair.1, pair.2, pair.3⟩

theorem frame_moveEvents {tables : Tables} (frame : Frame charged parts source base tables)
    (pair : Pair source id into tables) :
    Frame charged parts source base (AccountWrites.moveEvents id into tables) :=
  { frame with valid := valid_moveEvents frame.valid pair }

theorem frame_movePlans {tables : Tables} (frame : Frame charged parts source base tables)
    (pair : Pair source id into tables) :
    Frame charged parts source base (AccountWrites.movePlans id into tables) :=
  { frame with
    valid := valid_movePlans frame.valid pair
    plans := by
      rw [← frame.plans]
      apply filter_map_fixed
      · intro plan _ named
        split
        next same =>
          rw [same, frame.inside pair.merged.inside] at named
          cases named
        next => rfl
      · intro plan _ apart
        split
        next => exact frame.inside pair.target.inside
        next => exact apart
    planColumns := by
      rw [← frame.planColumns]
      simp only [AccountWrites.movePlans, List.map_map]
      apply List.map_congr_left
      intro plan _
      simp only [Function.comp_apply]
      split <;> rfl }

theorem frame_pointAt {tables : Tables} (frame : Frame charged parts source base tables)
    (pair : Pair source id into tables) (noEvents : ∀ event ∈ tables.events, event.accountId ≠ id)
    (noPlans : ∀ plan ∈ tables.plans, plan.accountId ≠ id) :
    Frame charged parts source base (AccountWrites.pointAt id into tables) :=
  { frame with
    valid := valid_pointAt frame.valid pair noEvents noPlans
    accounts := by
      rw [← frame.accounts]
      apply filter_map_fixed
      · intro account member named
        rw [if_neg]
        have apart : account.sourceId ≠ source := by simpa using named
        obtain ⟨merged, kept, mergedId, mergedSource, _⟩ := pair.merged
        rintro (same | into)
        · have one := frame.valid.sameAccount member kept (same.trans mergedId.symm)
          exact apart (one ▸ mergedSource)
        · obtain ⟨other, found, named, otherSource, _⟩ := frame.valid.merges account member id into
          have one := frame.valid.sameAccount found kept (named.trans mergedId.symm)
          exact apart (otherSource ▸ one ▸ mergedSource)
      · intro account _ apart
        split <;> exact apart
    stays := by
      intro account member
      obtain ⟨known, stored, same, inSource⟩ := frame.stays account member
      refine ⟨_, List.mem_map_of_mem stored, ?_⟩
      split <;> exact ⟨same, inSource⟩ }

/-- What a merge knows once it has moved what was charged to the merged account. -/
structure Moved (charged : Prop) (parts : Parts) (source : SourceId) (base : Tables)
    (id into : AccountId) (tables : Tables) : Prop where
  frame : Frame charged parts source base tables
  pair : Pair source id into tables
  noEvents : ∀ event ∈ tables.events, event.accountId ≠ id

theorem holds_recordUsage :
    Holds (Moved charged parts source base id into) (record .usage)
      fun _ => Moved charged parts source base id into := by
  apply Holds.reading_then
  intro recordedAt
  apply holds_execute
  intro tables moved
  exact ⟨moved.frame.record rfl recordedAt, ⟨moved.pair.1, moved.pair.2, moved.pair.3⟩, moved.noEvents⟩

theorem holds_moveEvents :
    Holds (fun tables => Frame charged parts source base tables ∧ Pair source id into tables)
      (execute (AccountWrites.moveEvents id into))
      fun _ => Moved charged parts source base id into := by
  apply holds_execute
  rintro tables ⟨frame, pair⟩
  refine ⟨frame_moveEvents frame pair, pair.moveEvents, ?_⟩
  intro next member
  obtain ⟨event, _, rfl⟩ := List.mem_map.mp member
  split
  next => exact pair.differ.symm
  next apart => exact apart

/-- A merge stays within the source of its two accounts. -/
theorem holds_combine (merged : Account) :
    Holds (fun tables => Frame charged parts source base tables ∧ Pair source id into tables)
      (AccountWrites.combine id into merged) fun _ => Frame charged parts source base := by
  have planned : Holds (Moved charged parts source base id into)
      (execute (AccountWrites.movePlans id into)) fun _ tables =>
        Moved charged parts source base id into tables ∧
          ∀ plan ∈ tables.plans, plan.accountId ≠ id := by
    apply holds_execute
    rintro tables ⟨frame, pair, noEvents⟩
    refine ⟨⟨frame_movePlans frame pair, pair.movePlans, noEvents⟩, ?_⟩
    intro next member
    obtain ⟨plan, _, rfl⟩ := List.mem_map.mp member
    split
    next => exact pair.differ.symm
    next apart => exact apart
  have pointed : Holds (fun tables => Moved charged parts source base id into tables ∧
      ∀ plan ∈ tables.plans, plan.accountId ≠ id)
      (execute (AccountWrites.pointAt id into)) fun _ tables =>
        Frame charged parts source base tables ∧ Inside tables.accounts source into := by
    apply holds_execute
    rintro tables ⟨⟨frame, pair, noEvents⟩, noPlans⟩
    exact ⟨frame_pointAt frame pair noEvents noPlans,
      (absorbs_pointAt pair.target pair.differ.symm).inside⟩
  apply fetch_then
  intro moved
  apply (holds_moveEvents.weaken (fun _ known => known.1) fun _ _ holds => holds).bind
  intro _
  apply (Holds.onlyIf (fun _ => holds_recordUsage) fun _ _ holds => holds).bind
  intro _
  apply planned.bind
  intro _
  apply pointed.bind
  intro _
  apply holds_execute
  rintro tables ⟨frame, inside⟩
  exact frame.updateAccount (keeps_widen _ _) inside

end MeteredUsage.Store.Locality

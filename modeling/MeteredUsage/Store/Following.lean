import MeteredUsage.Changes.Delivery
import MeteredUsage.Library.Followed
import MeteredUsage.Library.Untouched
import MeteredUsage.Store.Announcements
import MeteredUsage.Store.Arrivals

/-! A client of the change feed beside every write of the service. It reads what a change names
again, and once a read of the feed answers nothing more, every copy it need not read again is what
the database shows. -/

namespace MeteredUsage.Store.Following
open MeteredUsage.Values MeteredUsage.Store.Schema MeteredUsage.Store.Snapshots
open MeteredUsage.Store.Validity MeteredUsage.Store.Frames MeteredUsage.Store.Views
open MeteredUsage.Store.Statements MeteredUsage.Store.Landing MeteredUsage.Store.Links
open MeteredUsage.Store.Upkeep MeteredUsage.Store.Announcements MeteredUsage.Store.Commands
open MeteredUsage.Store.Arrivals (Continues told_recorded told_settle writesUsage)
open MeteredUsage.Changes.Table MeteredUsage.Changes.Delivery
open MeteredUsage.Library.Transaction MeteredUsage.Library.Untouched
open MeteredUsage.Library.Followed MeteredUsage.Library.OrderedLog MeteredUsage.Library.Execution

section Writes
variable {charged : Prop} {base next : Tables} {runtime : Sql.Runtime} {id : AccountId}

/-- A part of a write that records nothing. -/
abbrev Silent {Value : Type} (body : Write Value) : Prop := Leaves Tables.feed body

theorem silent_execute {change : Tables → Tables}
    (kept : ∀ tables, (change tables).feed = tables.feed) : Silent (execute change) := .update kept

theorem silent_attempt {Value : Type} {effect : Tables → Option (Value × Tables)}
    (kept : ∀ tables value next, effect tables = some (value, next) → next.feed = tables.feed) :
    Silent (attempt effect) := fun _ =>
  holds_attempt fun tables value next same taken => (kept tables value next taken).trans same

theorem silent_storeNext (source : SourceId) (observedAt : Timestamp) (listed : Quota.Listed)
    (file : Credentials.AuthFile) : Silent (Quota.storeNext runtime source observedAt listed file) := by
  unfold Quota.storeNext
  split
  next => exact .pure _
  next authIndex _ =>
    have registered (candidate : AccountId) (provider : String) (account : Accounts.NewAccount) :
        Silent (Accounts.register candidate source provider account observedAt) := by
      refine Leaves.bind (silent_attempt ?_) fun _ => .pure _
      intro tables value next taken
      obtain ⟨_, ⟨_, _, _, rfl⟩ | ⟨_, _, rfl⟩⟩ := Intake.upsert_eq taken <;> rfl
    have observed (accountId : AccountId) (refreshable : Bool) :
        Silent (Credentials.observe runtime accountId file observedAt refreshable) := by
      apply silent_attempt
      intro tables value next taken
      unfold Credentials.upsertState at taken
      split at taken
      next =>
        cases taken
        rfl
      next =>
        split at taken <;> cases taken
        rfl
    have stored : Silent (Quota.storeFile runtime source observedAt file authIndex) := by
      apply Leaves.nextId.bind
      intro candidate
      apply (registered _ _ _).bind
      intro accountId
      exact (observed _ _).bind fun _ => .pure _
    exact stored.bind fun _ => .pure _

theorem silent_replace (windows : List Windows.NewWindow) (observedAt : Timestamp) :
    Silent (Windows.replace runtime id windows observedAt) := by
  apply (Leaves.query _).bind
  intro stored
  refine Leaves.bind (silent_execute fun _ => rfl) fun _ => ?_
  apply Leaves.forM
  intro window
  have inserted (row : QuotaWindow) : Silent (attempt (Windows.insertWindow row)) := by
    apply silent_attempt
    intro tables value next taken
    unfold Windows.insertWindow at taken
    split at taken
    next => cases taken
    next =>
      split at taken <;> cases taken
      rfl
  have learned : Silent (Windows.recordSample runtime id window observedAt) := by
    unfold Windows.recordSample
    split
    next => exact silent_execute fun _ => rfl
    next => exact .pure _
  exact (inserted _).bind fun _ => learned

theorem silent_storeResets (resets : Quota.ManualResets) : Silent (Quota.storeResets id resets) := by
  cases resets with
  | unchanged => exact .pure _
  | reported grants =>
    refine Leaves.bind (silent_execute fun _ => rfl) fun _ => ?_
    apply Leaves.forM
    intro grant
    apply silent_attempt
    intro tables value next taken
    unfold Windows.insertCredit at taken
    split at taken <;> cases taken
    rfl

theorem silent_storeResult (result : Except Credentials.RefreshError Quota.Observation)
    (refreshedAt : Timestamp) : Silent (Quota.storeResult runtime id result refreshedAt) := by
  have refreshed (outcome : Except Credentials.RefreshError (Option String)) :
      Silent (Credentials.refreshed id refreshedAt outcome) := silent_execute fun _ => rfl
  cases result with
  | error error => exact refreshed _
  | ok observation =>
    refine Leaves.bind (silent_execute fun _ => rfl) fun _ => ?_
    apply (silent_replace observation.windows refreshedAt).bind
    intro _
    exact (silent_storeResets observation.manualResets).bind fun _ => refreshed _

/-- A write that has recorded nothing so far records what it compares. -/
theorem holds_comparison {Value : Type} (snapshot : Snapshot) (value : Value) :
    Holds (fun tables => tables.feed = base.feed)
      (recordChanges runtime snapshot >>= fun _ => commit (WriteError.database .query) value)
      (OnCommit (Continues base)) := by
  have recorded : Holds (fun tables => tables.feed = base.feed) (recordChanges runtime snapshot)
      fun _ => Continues base := by
    apply Holds.each
    intro middle same
    exact (holds_compared snapshot).weaken (fun _ initial => initial)
      fun _ _ recorded => (told_recorded recorded same).1
  exact recorded.bind fun _ => holds_commit _

theorem continues_rename (id : AccountId) (displayName : Option String) :
    Holds (fun tables => tables = base) (AccountWrites.rename runtime id displayName)
      (OnCommit (Continues base)) := by
  apply read_then
  intro now
  apply fetch_at
  have named : Silent (execute (Accounts.updateAccount id (AccountWrites.withName displayName))) :=
    silent_execute fun _ => rfl
  apply ((named base.feed).weaken (fun _ same => congrArg Tables.feed same) fun _ _ kept => kept).bind
  intro _
  split
  next => exact holds_comparison _ _
  next => exact holds_dropped _

theorem continues_store (source : SourceId) (listing : Credentials.AuthFiles) :
    Holds (fun tables => tables = base) (Quota.store runtime source listing) (OnCommit (Continues base)) := by
  apply read_then
  intro now
  apply ((Leaves.foldlM (silent_storeNext source listing.observedAt) _ base.feed).weaken
    (fun _ same => congrArg Tables.feed same) fun _ _ kept => kept).bind
  intro listed
  have marked : Silent (onlyIf listed.isComplete (Credentials.markUnlisted source listing.observedAt)) :=
    .onlyIf (silent_execute fun _ => rfl)
  apply (marked base.feed).bind
  exact fun _ => holds_comparison _ _

theorem continues_comparing {work : Write Unit} (silent : Silent work) (id : AccountId) :
    Holds (fun tables => tables = base) (reading >>= comparing runtime id work)
      (OnCommit (Continues base)) := by
  apply Holds.reading_then
  intro now
  apply read_at
  apply ((silent base.feed).weaken (fun _ same => congrArg Tables.feed same) fun _ _ kept => kept).bind
  exact fun _ => holds_comparison _ _

/-- A committed write leaves the changes that were recorded before it, and adds its own. -/
theorem continues_step {action : Command × World} (valid : Valid False base)
    (taken : Commands.step runtime base action = some next) : Continues base next := by
  have performed := step_iff.mp taken
  have usage (writes : writesUsage action.1 = true) : Continues base next := by
    obtain ⟨middle, move, kept, stored, subjects, tells, recorded⟩ :=
      @told_settle runtime base valid action writes
    have settled : Arrivals.settle runtime base action = next := congrArg Prod.snd performed
    rw [settled] at recorded
    exact (told_recorded recorded tells.feed).1
  obtain ⟨command, world⟩ := action
  cases command with
  | ingest sourceId records => exact usage rfl
  | fill pricedAs => exact usage rfl
  | reprice pricedAs start finish => exact usage rfl
  | merge id into requires => exact usage rfl
  | rename id displayName =>
    obtain ⟨_, continues⟩ := performed_holds (continues_rename id displayName) rfl performed
    exact continues
  | store sourceId listing =>
    obtain ⟨_, continues⟩ := performed_holds (continues_store sourceId listing) rfl performed
    exact continues
  | recordRefresh accountId result refreshedAt =>
    rw [perform, recordRefresh_eq] at performed
    obtain ⟨_, continues⟩ := performed_holds
      (continues_comparing (silent_storeResult result refreshedAt) accountId) rfl performed
    exact continues
  | clear accountId =>
    rw [perform, clear_eq] at performed
    have cleared : Silent (execute (Windows.clearCredits accountId)) := silent_execute fun _ => rfl
    obtain ⟨_, continues⟩ := performed_holds (continues_comparing cleared accountId) rfl performed
    exact continues
  | dismissContinuation previous replacement =>
    obtain ⟨_, rfl | ⟨middle, inserted, announced⟩⟩ :=
      performed_holds (holds_dismissContinuation previous replacement) rfl performed
    · exact ⟨[], rfl⟩
    · unfold AccountWrites.insertDismissal at inserted
      split at inserted <;> cases inserted
      exact (told_recorded announced rfl).1
  | expire now =>
    obtain ⟨_, expired⟩ := performed_holds (holds_expire valid now) rfl performed
    exact (told_recorded expired rfl).1
  | sync configs =>
    obtain ⟨_, now, sources, _, recorded⟩ := performed_holds (holds_sync valid configs) rfl performed
    exact (told_recorded recorded rfl).1
  | createPlan plan =>
    obtain ⟨id, created⟩ := exists_created performed
    exact (told_recorded created.announced rfl).1
  | updatePlan id change =>
    obtain ⟨_, current, edited⟩ := performed_holds (holds_update id change) rfl performed
    exact (told_recorded edited.announced rfl).1
  | deletePlan id =>
    obtain ⟨_, deleted⟩ := performed_holds (holds_delete id) rfl performed
    exact (told_recorded deleted.announced rfl).1

end Writes

section Instants
variable {tables : Tables} {runtime : Sql.Runtime} {start now : Timestamp} {subject : Subject}

/-- What was read shows at a later instant: grants leave it as they expire. -/
def aged (now : Timestamp) : View → View
  | .resets grants => .resets (grants.filter (isUnexpired now))
  | seen => seen

def showAt (now : Timestamp) (copy : Option View) : Option View := copy.map (aged now)

theorem grantRank_injective : Function.Injective grantRank := by
  rintro ⟨label, remaining, total, expiresAt⟩ ⟨otherLabel, otherRemaining, otherTotal, otherExpiry⟩ same
  cases same
  rfl

theorem isUnexpired_earlier (earlier : start ≤ now) {grant : Grant} (later : isUnexpired now grant = true) :
    isUnexpired start grant = true := by
  simp only [isUnexpired, Option.all_eq_true, decide_eq_true_eq] at later ⊢
  exact fun expiresAt expires => earlier.trans_lt (later expiresAt expires)

/-- Grants seen at an instant, less those expired since, are the grants seen later. -/
theorem grantsOf_later (earlier : start ≤ now) (id : AccountId) :
    (grantsOf tables start id).filter (isUnexpired now) = grantsOf tables now id := by
  let before : Grant → Grant → Prop := fun first second => grantRank first ≤ grantRank second
  have total : Std.Total before := ⟨fun first second => le_total (grantRank first) (grantRank second)⟩
  have ordered : IsTrans Grant before := ⟨fun _ _ _ => le_trans⟩
  let held := (tables.credits.filter (·.accountId = id)).map Credit.grant
  have narrowed : (held.filter (isUnexpired start)).filter (isUnexpired now) =
      held.filter (isUnexpired now) := by
    rw [List.filter_filter]
    refine List.filter_congr fun grant _ => ?_
    cases later : isUnexpired now grant with
    | false => rfl
    | true => rw [isUnexpired_earlier earlier later, Bool.and_true]
  have permuted : ((grantsOf tables start id).filter (isUnexpired now)).Perm (grantsOf tables now id) :=
    ((List.perm_insertionSort before _).filter _).trans
      (narrowed ▸ (List.perm_insertionSort before _).symm)
  apply List.Perm.eq_of_pairwise _ ((List.pairwise_insertionSort before _).filter _)
    (List.pairwise_insertionSort before _) permuted
  intro first second _ _ left right
  exact grantRank_injective (le_antisymm left right)

theorem view_later (earlier : start ≤ now) :
    showAt now (view runtime tables start subject) = view runtime tables now subject := by
  cases subject with
  | account id =>
    simp only [view, showAt, Option.map_bind]
    congr 1
    funext account
    exact Option.map_map _ _ _
  | plan id => exact Option.map_map _ _ _
  | window id windowKey => exact Option.map_map _ _ _
  | resets id => exact congrArg (fun grants => some (View.resets grants)) (grantsOf_later earlier id)
  | _ => rfl

end Instants

/-- A client's copy of a subject: whether it has to be read again, what it shows, and what a read
that is on its way found. -/
structure Copy where
  due : Bool
  shown : Option View
  fetched : Option (Option View)

/-- What the copy shows once everything on its way is there. -/
def Copy.latest (copy : Copy) : Option View := copy.fetched.getD copy.shown

/-- A client that read the lists and follows the feed from the cursor it was given. -/
structure Follower where
  kinds : List ChangeKind
  cursor : Nat
  /-- An answer that is on its way. -/
  answer : Option Page
  copies : Subject → Copy

structure Service where
  tables : Tables
  follower : Option Follower

def Service.initial : Service := ⟨Tables.empty, none⟩

inductive Event where
  | write (command : Command) (world : World)
  /-- A change no view shows, recorded by the writes of prices and of quota actions. -/
  | note (subject : Subject) (recordedAt : Timestamp)
  | prune (now : Timestamp)
  /-- The client asks without a cursor, and then has every list to read. -/
  | start (kinds : List ChangeKind)
  /-- The client asks after its cursor, and the service answers. -/
  | ask
  | lose
  /-- The answer arrives. -/
  | take
  /-- The client reads a subject; the service answers from what is stored at the instant. -/
  | fetch (subject : Subject) (now : Timestamp)
  | deliver (subject : Subject)

/-- What the client does with an answer: it reads what the changes name again, and everything when
its cursor was gone. -/
def Follower.receive (follower : Follower) (answer : Page) : Follower :=
  let names (subject : Subject) : Bool := match answer with
    | .changes changes _ => changes.any (·.subject = subject)
    | .expired _ _ => true
  { follower with
    cursor := answer.next
    answer := none
    copies := fun subject =>
      let copy := follower.copies subject
      { copy with due := copy.due || names subject } }

def Follower.update (follower : Follower) (subject : Subject) (copy : Copy) : Follower :=
  { follower with copies := fun other => if other = subject then copy else follower.copies other }

def follow (service : Service) (act : Follower → Option Follower) : Option Service :=
  (service.follower.bind act).map fun follower => { service with follower := some follower }

def step (runtime : Sql.Runtime) (service : Service) : Event → Option Service
  | .write command world => (Commands.step runtime service.tables (command, world)).map fun tables =>
    { service with tables := tables }
  | .note subject recordedAt =>
    if isHidden subject then some { service with tables := { service.tables with
      feed := service.tables.feed.record subject recordedAt } }
    else none
  | .prune now => some { service with tables := { service.tables with
      feed := service.tables.feed.prune now } }
  | .start kinds => some { service with
      follower := some ⟨kinds, service.tables.feed.latest, none, fun _ => ⟨true, none, none⟩⟩ }
  | .ask => follow service fun follower =>
    if follower.answer.isSome then none else
      (service.tables.feed.after follower.cursor follower.kinds).toOption.map fun page =>
        { follower with answer := some page }
  | .lose => follow service fun follower => some { follower with answer := none }
  | .take => follow service fun follower => follower.answer.map follower.receive
  | .fetch subject now => follow service fun follower =>
    some (follower.update subject { follower.copies subject with
      due := false
      fetched := some (view runtime service.tables now subject) })
  | .deliver subject => follow service fun follower =>
    let copy := follower.copies subject
    copy.fetched.map fun found => follower.update subject ⟨copy.due, found, none⟩

/-- Every clock the event reads reads no later than the instant. -/
def Before (now : Timestamp) : Event → Prop
  | .write _ world => ∀ reading, world.clock reading ≤ now
  | .fetch _ instant => instant ≤ now
  | _ => True

section Runs
variable {runtime : Sql.Runtime} {now : Timestamp} {log more : List Change} {base next : Tables}
  {follower : Follower} {service after : Service} {event : Event}

/-- An answer on its way holds what was logged between the cursor it was asked from and the one it
hands on. -/
def Answered (feed : Feed) (log : List Change) (follower : Follower) : Page → Prop
  | .changes changes next => next ≤ feed.sequence ∧
    changes = window Change.cursor log follower.cursor next (wantedChange follower.kinds)
  | .expired _ latest => latest ≤ feed.sequence

/-- Each visible subject the client asked for is due, named by a change it has still to read, or
shown as it is. -/
structure Copied (runtime : Sql.Runtime) (now : Timestamp) (log : List Change) (tables : Tables)
    (follower : Follower) : Prop where
  bound : follower.cursor ≤ tables.feed.sequence
  answered : ∀ page ∈ follower.answer, Answered tables.feed log follower page
  owed : ∀ subject, isHidden subject = false → wanted follower.kinds subject.kind.stored = true →
    Owed Change.cursor Change.subject log follower.cursor ((follower.copies subject).due = true)
      (showAt now (follower.copies subject).latest = view runtime tables now subject) subject

structure Invariant (runtime : Sql.Runtime) (now : Timestamp) (log : List Change) (service : Service) :
    Prop where
  keeps : Keeps service.tables.feed log
  valid : Valid False service.tables
  copied : ∀ follower ∈ service.follower, Copied runtime now log service.tables follower

theorem invariant_initial : Invariant runtime now [] Service.initial where
  keeps := keeps_empty
  valid := valid_empty False
  copied := by simp [Service.initial]

/-- The changes some entries record, above everything recorded before. -/
theorem keeps_recordAll {feed : Feed} (keeps : Keeps feed log) (entries : List (Subject × Timestamp)) :
    ∃ more, Keeps (feed.recordAll entries) (log ++ more) ∧ feed.sequence ≤ (feed.recordAll entries).sequence ∧
      (∀ change ∈ more, feed.sequence < change.cursor) ∧ more.map Change.subject = entries.map Prod.fst := by
  induction entries generalizing feed log with
  | nil => exact ⟨[], by simpa [Feed.recordAll] using keeps, le_rfl, by simp, rfl⟩
  | cons entry rest ih =>
    obtain ⟨more, kept, grown, above, named⟩ := ih (keeps_record keeps entry.1 entry.2)
    rw [List.append_assoc] at kept
    refine ⟨feed.next entry.1 entry.2 :: more, kept, (Nat.le_succ _).trans grown, ?_, ?_⟩
    · intro change member
      rcases List.mem_cons.mp member with rfl | member
      · exact Nat.lt_succ_self _
      · exact (Nat.lt_succ_self _).trans (above change member)
    · rw [List.map_cons, named]
      rfl

/-- What is on its way stays right when more is logged. -/
theorem Answered.logged {feed grown : Feed} {page : Page} (answered : Answered feed log follower page)
    (later : feed.sequence ≤ grown.sequence) (above : ∀ change ∈ more, feed.sequence < change.cursor) :
    Answered grown (log ++ more) follower page := by
  cases page with
  | expired oldest latest => exact Nat.le_trans answered later
  | changes changes next =>
    obtain ⟨bound, exact⟩ := answered
    refine ⟨bound.trans later, ?_⟩
    have unread : window Change.cursor more follower.cursor next (wantedChange follower.kinds) = [] := by
      refine window_eq_nil fun change member _ low => ?_
      have fresh := above change member
      omega
    rw [window_append, unread, List.append_nil]
    exact exact

/-- A write that names every view it changes leaves nothing unread unnoticed. -/
theorem Copied.written (copied : Copied runtime now log base follower)
    (grown : base.feed.sequence ≤ next.feed.sequence)
    (above : ∀ change ∈ more, base.feed.sequence < change.cursor)
    (named : ∀ subject, isHidden subject = false →
      view runtime base now subject = view runtime next now subject ∨
        ∃ change ∈ more, change.subject = subject) :
    Copied runtime now (log ++ more) next follower where
  bound := copied.bound.trans grown
  answered := fun page sent => (copied.answered page sent).logged grown above
  owed := by
    intro subject visible asked
    apply (copied.owed subject visible asked).written
    · exact fun change member => copied.bound.trans_lt (above change member)
    · intro current
      rcases named subject visible with same | announced
      · exact .inl (current.trans same)
      · exact .inr announced

theorem Invariant.recorded (held : Invariant runtime now log service) {tables : Tables}
    (entries : List (Subject × Timestamp)) (valid : Valid False tables)
    (recorded : tables.feed = service.tables.feed.recordAll entries)
    (named : ∀ subject, isHidden subject = false →
      view runtime service.tables now subject = view runtime tables now subject ∨
        subject ∈ entries.map Prod.fst) :
    ∃ more, Invariant runtime now (log ++ more) { service with tables := tables } := by
  obtain ⟨more, keeps, grown, above, subjects⟩ := keeps_recordAll held.keeps entries
  rw [← recorded] at keeps grown
  refine ⟨more, keeps, valid, fun follower follows => ?_⟩
  apply (held.copied follower follows).written grown above
  intro subject visible
  refine (named subject visible).imp_right fun listed => ?_
  rwa [← subjects, List.mem_map] at listed

theorem invariant_write (held : Invariant runtime now log service) {command : Command} {world : World}
    (past : ∀ reading, world.clock reading ≤ now)
    (taken : Commands.step runtime service.tables (command, world) = some next) :
    ∃ more, Invariant runtime now (log ++ more) { service with tables := next } := by
  obtain ⟨entries, recorded⟩ := continues_step held.valid taken
  have performed := step_iff.mp taken
  apply held.recorded entries _ recorded
  · intro subject visible
    obtain ⟨reading, announced⟩ :=
      announced_performed ⟨service.tables, held.valid⟩ runtime world command performed
    by_cases same : view runtime service.tables (world.clock reading) subject =
        view runtime next (world.clock reading) subject
    · have later := congrArg (showAt now) same
      rw [view_later (past reading), view_later (past reading)] at later
      exact .inl later
    · have once := (announced subject visible).1 same
      rw [Announcements.recorded, recorded, Feed.since_recordAll le_rfl, Feed.since_self,
        List.nil_append] at once
      exact .inr (List.count_pos_iff.mp (once ▸ Nat.one_pos))
  · exact Merged.valid_step held.valid False.elim taken

theorem follow_eq {act : Follower → Option Follower} (followed : follow service act = some after) :
    ∃ before follower, service.follower = some before ∧ act before = some follower ∧
      after = { service with follower := some follower } := by
  obtain ⟨follower, acted, rfl⟩ := Option.map_eq_some_iff.mp followed
  obtain ⟨before, follows, acted⟩ := Option.bind_eq_some_iff.mp acted
  exact ⟨before, follower, follows, acted, rfl⟩

/-- A step of the client keeps the invariant once its copies are accounted for. -/
theorem Invariant.followed (held : Invariant runtime now log service) {act : Follower → Option Follower}
    (followed : follow service act = some after)
    (copied : ∀ before follower, Copied runtime now log service.tables before → act before = some follower →
      Copied runtime now log service.tables follower) :
    Invariant runtime now log after := by
  obtain ⟨before, follower, follows, acted, rfl⟩ := follow_eq followed
  refine ⟨held.keeps, held.valid, fun other same => ?_⟩
  cases same
  exact copied before follower (held.copied before follows) acted

theorem copied_start (kinds : List ChangeKind) :
    Copied runtime now log base ⟨kinds, base.feed.latest, none, fun _ => ⟨true, none, none⟩⟩ where
  bound := base.feed.latest_le_sequence
  answered := by simp
  owed := fun _ _ _ => .inl rfl

theorem copied_ask (keeps : Keeps base.feed log) (copied : Copied runtime now log base follower)
    {page : Page} (answered : base.feed.after follower.cursor follower.kinds = .ok page) :
    Copied runtime now log base { follower with answer := some page } where
  bound := copied.bound
  owed := copied.owed
  answered := by
    intro sent same
    cases same
    by_cases covered : base.feed.prunedThrough ≤ follower.cursor
    · obtain ⟨changes, next, found, _, upper, exact, _⟩ :=
        after_covered keeps covered copied.bound follower.kinds
      rw [found] at answered
      cases answered
      exact ⟨upper, exact⟩
    · rw [after_expired (.inl (not_le.mp covered))] at answered
      cases answered
      exact base.feed.latest_le_sequence

/-- Taking an answer passes over nothing it does not mark. -/
theorem copied_receive (copied : Copied runtime now log base follower) {page : Page}
    (sent : follower.answer = some page) : Copied runtime now log base (follower.receive page) := by
  have answered := copied.answered page sent
  refine ⟨?_, by simp [Follower.receive], fun subject visible asked => ?_⟩
  · cases page with
    | changes changes next => exact answered.1
    | expired oldest latest => exact answered
  · have owed := copied.owed subject visible asked
    cases page with
    | expired oldest latest => exact .inl (by simp [Follower.receive])
    | changes changes next =>
      have followed := @Owed.followed _ _ _ _ _ _ _ _ next _ _ _ (wantedChange follower.kinds) owed
        fun change _ same => by rw [wantedChange, same]; exact asked
      rw [← answered.2] at followed
      refine followed.imp_left fun marked => ?_
      simpa [Follower.receive] using marked

theorem copied_update (copied : Copied runtime now log base follower) {subject : Subject} {copy : Copy}
    (owed : isHidden subject = false → wanted follower.kinds subject.kind.stored = true →
      Owed Change.cursor Change.subject log follower.cursor (copy.due = true)
        (showAt now copy.latest = view runtime base now subject) subject) :
    Copied runtime now log base (follower.update subject copy) where
  bound := copied.bound
  answered := copied.answered
  owed := by
    intro other visible asked
    by_cases same : other = subject
    · subst same
      simpa [Follower.update] using owed visible asked
    · simpa [Follower.update, same] using copied.owed other visible asked

/-- What one event keeps, with what it adds to the log. -/
theorem invariant_step (held : Invariant runtime now log service) (past : Before now event)
    (taken : step runtime service event = some after) :
    ∃ more, Invariant runtime now (log ++ more) after := by
  have still (kept : Invariant runtime now log after) : ∃ more, Invariant runtime now (log ++ more) after :=
    ⟨[], by simpa using kept⟩
  cases event with
  | write command world =>
    obtain ⟨tables, committed, rfl⟩ := Option.map_eq_some_iff.mp taken
    exact invariant_write held past committed
  | note subject recordedAt =>
    simp only [step, Option.ite_none_right_eq_some] at taken
    obtain ⟨hidden, taken⟩ := taken
    cases taken
    exact held.recorded [(subject, recordedAt)] (held.valid.feed _) rfl fun _ _ => .inl rfl
  | prune instant =>
    cases taken
    apply still
    refine ⟨keeps_prune held.keeps instant, held.valid.feed _, fun follower follows => ?_⟩
    have copied := held.copied follower follows
    exact ⟨copied.bound, copied.answered, copied.owed⟩
  | start kinds =>
    cases taken
    refine still ⟨held.keeps, held.valid, fun follower follows => ?_⟩
    cases follows
    exact copied_start kinds
  | ask =>
    apply still (held.followed taken _)
    intro before follower copied acted
    simp only [Option.ite_none_left_eq_some, Option.map_eq_some_iff] at acted
    obtain ⟨_, page, answered, rfl⟩ := acted
    cases found : service.tables.feed.after before.cursor before.kinds with
    | error reason => simp [found, Except.toOption] at answered
    | ok sent =>
      rw [found] at answered
      cases answered
      exact copied_ask held.keeps copied found
  | lose =>
    apply still (held.followed taken _)
    intro before follower copied acted
    cases acted
    exact ⟨copied.bound, by simp, copied.owed⟩
  | take =>
    apply still (held.followed taken _)
    intro before follower copied acted
    obtain ⟨page, sent, rfl⟩ := Option.map_eq_some_iff.mp acted
    exact copied_receive copied sent
  | fetch subject instant =>
    apply still (held.followed taken _)
    intro before follower copied acted
    cases acted
    exact copied_update copied fun _ _ => .inr (.inr (view_later past))
  | deliver subject =>
    apply still (held.followed taken _)
    intro before follower copied acted
    obtain ⟨found, arrived, rfl⟩ := Option.map_eq_some_iff.mp acted
    apply copied_update copied
    intro visible asked
    have owed := copied.owed subject visible asked
    simpa [Copy.latest, arrived] using owed

theorem invariant_run {events : List Event} (held : Invariant runtime now log service)
    (past : ∀ event ∈ events, Before now event) (ran : run (step runtime) service events = some after) :
    ∃ more, Invariant runtime now (log ++ more) after := by
  induction events generalizing service log with
  | nil =>
    cases ran
    exact ⟨[], by simpa using held⟩
  | cons event rest ih =>
    obtain ⟨middle, taken, ran⟩ := (run_cons _ _ _ _ _).mp ran
    obtain ⟨first, kept⟩ := invariant_step held (past event List.mem_cons_self) taken
    obtain ⟨second, finished⟩ := ih kept (fun other member => past other (List.mem_cons_of_mem _ member)) ran
    exact ⟨first ++ second, by rwa [← List.append_assoc]⟩

/-- Once a read of the feed answers nothing more, each copy that is not to be read again is what the
database shows, whatever was written, pruned, lost or late in between. -/
theorem followed_copies_are_current (runtime : Sql.Runtime) {now : Timestamp} {events : List Event}
    {finish : Service} {follower : Follower} {next : Nat} {subject : Subject}
    (past : ∀ event ∈ events, Before now event)
    (ran : run (step runtime) Service.initial events = some finish)
    (follows : finish.follower = some follower)
    (nothing : finish.tables.feed.after follower.cursor follower.kinds = .ok (.changes [] next))
    (visible : isHidden subject = false) (asked : wanted follower.kinds subject.kind.stored = true)
    (kept : (follower.copies subject).due = false) (arrived : (follower.copies subject).fetched = none) :
    showAt now (follower.copies subject).shown = view runtime finish.tables now subject := by
  obtain ⟨log, held⟩ := invariant_run (@invariant_initial runtime now) past ran
  rw [List.nil_append] at held
  have copied := held.copied follower follows
  have covered : finish.tables.feed.prunedThrough ≤ follower.cursor := by
    by_contra gone
    rw [after_expired (.inl (not_le.mp gone))] at nothing
    cases nothing
  obtain ⟨changes, last, answered, _, _, exact, reached⟩ :=
    after_covered held.keeps covered copied.bound follower.kinds
  rw [nothing] at answered
  cases answered
  have whole : next = finish.tables.feed.sequence := reached.resolve_right (by decide)
  have owed := copied.owed subject visible asked
  have current := @Owed.current_of_window _ _ _ _ _ _ _ _ next _ _ _ (wantedChange follower.kinds) owed
    (whole ▸ held.keeps.bounded) (fun change _ same => by rw [wantedChange, same]; exact asked)
    exact.symm (by simp [kept])
  simpa [Copy.latest, arrived] using current

/-- A reset granted after the client read the account's grants, and expired after it read them again. -/
def watchedReset : List Event :=
  [.write (.sync [⟨"gateway", "gateway", .cliProxy, "gateway"⟩]) (.calm 0 (· + 1)),
    .write (.ingest 1 [.record (.idle "key" 0)]) (.calm 0 (· + 1)),
    .start [.resetUpdated], .fetch (.resets 1) 1, .deliver (.resets 1),
    .write (.recordRefresh 1 (.ok ⟨[], none, .reported [⟨none, 1, none, some 10⟩]⟩) 3) (.calm 3 (· + 1)),
    .note (.price "model") 4, .ask, .prune 4, .take, .fetch (.resets 1) 5, .deliver (.resets 1)]

theorem a_granted_reset_is_followed : ∃ finish follower,
    run (step .inert) Service.initial watchedReset = some finish ∧ finish.follower = some follower ∧
      (follower.copies (.resets 1)).shown = some (.resets [⟨none, 1, none, some 10⟩]) ∧
      showAt 20 (follower.copies (.resets 1)).shown = view .inert finish.tables 20 (.resets 1) := by
  have ran : ((run (step .inert) Service.initial watchedReset).bind fun finish =>
      finish.follower.map fun follower => ((finish.tables.feed.after follower.cursor follower.kinds).toOption,
        follower.kinds, (follower.copies (.resets 1)).due)) =
      some (some (.changes [] 5), [.resetUpdated], false) := by decide +kernel
  have read : ((run (step .inert) Service.initial watchedReset).bind fun finish =>
      finish.follower.map fun follower => ((follower.copies (.resets 1)).shown,
        (follower.copies (.resets 1)).fetched)) =
      some (some (.resets [⟨none, 1, none, some 10⟩]), none) := by decide +kernel
  obtain ⟨finish, reached, ended⟩ := Option.bind_eq_some_iff.mp ran
  obtain ⟨follower, follows, asked⟩ := Option.map_eq_some_iff.mp ended
  simp only [reached, Option.bind_some, follows, Option.map_some, Option.some.injEq, Prod.mk.injEq]
    at read asked
  obtain ⟨nothing, kinds, kept⟩ := asked
  obtain ⟨shown, arrived⟩ := read
  have answered : finish.tables.feed.after follower.cursor follower.kinds = .ok (.changes [] 5) := by
    cases found : finish.tables.feed.after follower.cursor follower.kinds with
    | error reason => simp [found, Except.toOption] at nothing
    | ok page => simpa [found, Except.toOption] using nothing
  have past : ∀ event ∈ watchedReset, Before 20 event := by simp [watchedReset, Before, World.calm]
  refine ⟨finish, follower, reached, follows, shown, ?_⟩
  exact followed_copies_are_current .inert past reached follows answered rfl (kinds ▸ rfl) kept arrived

end Runs

end MeteredUsage.Store.Following

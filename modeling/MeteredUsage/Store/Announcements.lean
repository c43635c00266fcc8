import MeteredUsage.Store.Merged

/-! Every visible change of a committed write is announced in its own transaction, once, and
a write that compares announces nothing else of what it compares. -/

namespace MeteredUsage.Store.Announcements
open MeteredUsage.Values MeteredUsage.Store.Schema MeteredUsage.Store.Continuations
open MeteredUsage.Store.Snapshots MeteredUsage.Store.Validity MeteredUsage.Store.Frames
open MeteredUsage.Store.Statements MeteredUsage.Store.Views MeteredUsage.Store.Apart
open MeteredUsage.Store.Landing MeteredUsage.Store.Links MeteredUsage.Store.Upkeep
open MeteredUsage.Store.Commands MeteredUsage.Library.Keyed MeteredUsage.Library.Transaction
open MeteredUsage.Changes.Table (Subject Feed)

/-- A stored state: tables as some run of the writes leaves them. -/
structure Stored where
  tables : Tables
  valid : Valid False tables

def Stored.empty : Stored := ⟨Tables.empty, valid_empty False⟩

/-- The writes that record through `Snapshot`. -/
def compares : Command → Bool
  | .rename _ _ | .merge _ _ _ | .ingest _ _ | .store _ _ | .recordRefresh _ _ _ | .clear _ |
    .expire _ | .sync _ => true
  | .dismissContinuation _ _ | .createPlan _ | .updatePlan _ _ | .deletePlan _ | .fill _ |
    .reprice _ _ _ => false

/-- How often a committed write recorded a subject. -/
def recorded (before after : Tables) (subject : Subject) : Nat :=
  (after.feed.since before.feed).count subject

/-- Between the two states every subject a reader sees differently at the instant is recorded
once, and no other where the write compares. -/
def AnnouncedOnce (runtime : Sql.Runtime) (compared : Bool) (now : Timestamp)
    (before after : Tables) : Prop :=
  ∀ subject, isHidden subject = false →
    (view runtime before now subject ≠ view runtime after now subject →
      recorded before after subject = 1) ∧
    (compared = true → view runtime before now subject = view runtime after now subject →
      recorded before after subject = 0)

variable {charged : Prop} {parts : Parts} {source : SourceId} {base after : Tables}
  {runtime : Sql.Runtime} {now : Timestamp} {subject : Subject}

theorem count_hidden {subjects : List Subject} (hidden : ∀ other ∈ subjects, isHidden other = true)
    (visible : isHidden subject = false) : subjects.count subject = 0 := by
  apply List.count_eq_zero.mpr
  intro member
  rw [hidden subject member] at visible
  cases visible

/-- The feed is no part of what a reader sees. -/
theorem view_recorded {middle : Tables} {subjects : List Subject}
    (recorded : Recorded middle subjects after) :
    view runtime after now subject = view runtime middle now subject := by
  obtain ⟨entries, rfl, _⟩ := recorded
  rfl

/-- A write that only recorded its subjects recorded each as often as it names it. -/
theorem recorded_eq (before : Tables) {middle : Tables} {subjects : List Subject}
    (changes : Recorded middle subjects after) (same : middle.feed = before.feed) :
    recorded before after subject = subjects.count subject := by
  rw [recorded, changes.since (same ▸ le_rfl), same, Feed.since_self, List.nil_append]

/-- A comparison of the source of a write announces what readers see differently. -/
theorem announced_landed (valid : Valid charged base)
    (landed : LandedAt runtime charged parts source now base after) (visible : isHidden subject = false) :
    recorded base after subject =
      if view runtime base now subject = view runtime after now subject then 0 else 1 := by
  obtain ⟨middle, rest, frame, hidden, changes⟩ := landed
  have distinct : ∀ {either : Tables}, Valid charged either →
      Distinct Prod.fst (seenIn runtime source parts now either) := fun holds => distinct_seen holds rfl
  rw [recorded, changes.since frame.quiet.1, List.count_append, List.count_append,
    count_hidden frame.quiet.2 visible, count_hidden hidden visible, count_inOrder,
    view_recorded changes]
  simp only [mem_changedSubjects (distinct valid) (distinct frame.valid), ne_eq,
    seenIn_iff_view now frame valid]
  split <;> simp_all

theorem announcedOnce_of_count {compared : Bool}
    (counted : ∀ subject, isHidden subject = false → recorded base after subject =
      if view runtime base now subject = view runtime after now subject then 0 else 1) :
    AnnouncedOnce runtime compared now base after := by
  intro subject visible
  rw [counted subject visible]
  exact ⟨fun differs => if_neg differs, fun _ same => if_pos same⟩

/-- Where grants stay as they were, the instant of the comparison does not matter. -/
theorem announcedOnce_anytime {compared : Bool} {other : Timestamp}
    (credits : after.credits = base.credits)
    (counted : ∀ subject, isHidden subject = false → recorded base after subject =
      if view runtime base now subject = view runtime after now subject then 0 else 1) :
    AnnouncedOnce runtime compared other base after := by
  apply announcedOnce_of_count
  intro subject visible
  rw [counted subject visible]
  cases subject with
  | resets id => simp [view, grantsOf, credits]
  | _ => rfl

theorem announced_accounts (valid : Valid charged base)
    (landed : Landed runtime charged .accounts source base after) (instant : Timestamp) :
    AnnouncedOnce runtime true instant base after := by
  obtain ⟨now, landed⟩ := landed
  have credits : after.credits = base.credits := by
    obtain ⟨middle, rest, frame, _, entries, rfl, _⟩ := landed
    exact (frame.quota rfl).2
  exact announcedOnce_anytime credits fun subject visible => announced_landed valid landed visible

/-- A reading at the start of a write is the first of its world's clock. -/
theorem announced_idle (idle : Idle base after) (instant : Timestamp) :
    AnnouncedOnce runtime true instant base after := by
  obtain ⟨recoveries, changes⟩ := idle
  intro subject visible
  rw [recorded_eq base changes rfl, view_recorded changes]
  exact ⟨fun differs => absurd rfl differs, fun _ _ => rfl⟩

theorem announced_priced {compared : Bool} (priced : Priced base after) (instant : Timestamp) :
    AnnouncedOnce runtime compared instant base after := by
  obtain ⟨events, subjects, _, hidden, changes⟩ := priced
  intro subject visible
  rw [recorded_eq base changes rfl, count_hidden hidden visible, view_recorded changes]
  exact ⟨fun differs => absurd rfl differs, fun _ _ => rfl⟩

/-- Expiry announces each deleted window, and nothing else changes. -/
theorem announced_expired (valid : Valid charged base) {reset : Timestamp}
    (expired : Expired reset base after) (instant : Timestamp) :
    AnnouncedOnce runtime true instant base after := by
  have present : HasEvidence (expiredIds reset base) base := by
    intro id listed
    obtain ⟨window, member, rfl⟩ := List.mem_map.mp listed
    obtain ⟨stored, passed⟩ := List.mem_filter.mp member
    simp only [Response.isExpired, Bool.and_eq_true, decide_eq_true_eq] at passed
    exact ⟨window, stored, rfl, passed.1⟩
  have nodup : (evidence (expiredIds reset base)).Nodup := by
    apply (nodup_expiredIds valid reset).map
    intro first second same
    exact (Subject.window.inj same).1
  apply announcedOnce_of_count
  intro subject visible
  rw [recorded_eq base expired rfl, view_recorded expired]
  have differs := @view_without charged runtime base instant subject valid _ present
  split
  next same => exact List.count_eq_zero.mpr fun member => differs.mpr member same
  next apart => exact List.count_eq_one_of_mem nodup (differs.mp apart)

theorem seenAs_all (valid : Valid charged base) :
    seenAs (snapshotOf runtime .all parts now base).seen subject =
      if Views.compares parts subject = true then (view runtime base now subject).bind kept else none := by
  have whole : Scope.filter .all base = ⟨none, none⟩ := rfl
  rw [seenAs_seen valid whole]
  cases read : sourceOf base subject with
  | none =>
    rw [kept_eq_none.mpr (view_unowned valid read)]
    simp
  | some inSource => simp [inScope, read]

/-- Following the config shows on the accounts of the sources it renames. -/
theorem announced_synced (valid : Valid charged base) (synced : Synced runtime base after)
    (instant : Timestamp) : AnnouncedOnce runtime true instant base after := by
  obtain ⟨now, sources, configured, changes⟩ := synced
  have followed := configured.valid valid
  have credits : after.credits = base.credits := by
    obtain ⟨entries, rfl, _⟩ := changes
    rfl
  have counted : ∀ subject, isHidden subject = false → recorded base after subject =
      if view runtime base now subject = view runtime after now subject then 0 else 1 := by
    intro subject _
    have whole : ∀ either : Tables, Scope.filter .all either = ⟨none, none⟩ := fun _ => rfl
    rw [recorded_eq base changes rfl, count_inOrder, view_recorded changes]
    simp only [mem_changedSubjects (distinct_seen valid (whole _)) (distinct_seen followed (whole _)),
      seenAs_all valid, seenAs_all followed, ne_eq]
    cases compared : Views.compares .accounts subject with
    | true => simp [kept_inj]
    | false =>
      cases subject with
      | account id => cases compared
      | plan id => cases compared
      | _ => simp [view, windowOf, grantsOf]
  exact announcedOnce_anytime credits counted

theorem linked_mem {links : List (AccountId × AccountId)} {id replacement : AccountId}
    (shown : linked links id = some replacement) : id ∈ links.map Prod.fst := by
  obtain ⟨link, found, _⟩ := Option.map_eq_some_iff.mp shown
  obtain ⟨member, rfl⟩ := lookup_mem found
  exact List.mem_map_of_mem (List.mem_reverse.mp member)

/-- A credential whose replacement moved is one of those the link changes look at. -/
theorem mem_links {before later : List (AccountId × AccountId)} {id : AccountId}
    (moved : linked before id ≠ linked later id) :
    id ∈ before.map Prod.fst ++ later.map Prod.fst := by
  cases left : linked before id with
  | some replacement => exact List.mem_append_left _ (linked_mem left)
  | none =>
    cases right : linked later id with
    | some replacement => exact List.mem_append_right _ (linked_mem right)
    | none => exact absurd (left.trans right.symm) moved

theorem mem_linkSubjects_account {before later : List (AccountId × AccountId)} {id : AccountId}
    (moved : linked before id ≠ linked later id) :
    .account id ∈ linkSubjects before later base := by
  simp only [linkSubjects, List.mem_flatMap]
  exact ⟨id, mem_links moved, by simp [moved]⟩

theorem mem_linkSubjects_plan {before later : List (AccountId × AccountId)} {plan : Plan}
    (stored : plan ∈ base.plans) (moved : linked before plan.accountId ≠ linked later plan.accountId) :
    .plan plan.id ∈ linkSubjects before later base := by
  simp only [linkSubjects, List.mem_flatMap]
  refine ⟨plan.accountId, mem_links moved, ?_⟩
  rw [if_neg moved]
  exact List.mem_cons_of_mem _ (List.mem_map.mpr ⟨plan, by simp [stored], rfl⟩)

/-- A write of plans or dismissals announces the plan it names and the links it moves. -/
theorem announced_links {plans : List Plan} {dismissals : List Dismissal} {subjects : List Subject}
    (valid : Valid charged { base with plans := plans, dismissals := dismissals })
    (announced : Announced base subjects { base with plans := plans, dismissals := dismissals } after)
    (named : ∀ id, .plan id ∉ subjects → planOf base id = lookup Plan.id plans id)
    (instant : Timestamp) : AnnouncedOnce runtime false instant base after := by
  intro subject visible
  refine ⟨fun differs => ?_, fun compared => by cases compared⟩
  rw [recorded_eq base announced rfl, count_inOrder]
  apply if_pos
  rw [view_recorded announced] at differs
  by_contra unlisted
  rw [List.mem_append, not_or] at unlisted
  apply differs
  cases subject with
  | account id =>
    have unmoved : linked (replacements base) id = linked (replacements { base with
        plans := plans, dismissals := dismissals }) id := by
      by_contra moved
      exact unlisted.2 (mem_linkSubjects_account moved)
    simp only [view, unmoved]
    rfl
  | plan id =>
    have same := named id unlisted.1
    simp only [view]
    cases stored : planOf base id with
    | none =>
      have gone : planOf { base with plans := plans, dismissals := dismissals } id = none :=
        same.symm.trans stored
      simp [gone]
    | some plan =>
      have kept : planOf { base with plans := plans, dismissals := dismissals } id = some plan :=
        same.symm.trans stored
      obtain ⟨member, rfl⟩ := (planOf_eq_some valid).mp kept
      have unmoved : linked (replacements base) plan.accountId = linked (replacements { base with
          plans := plans, dismissals := dismissals }) plan.accountId := by
        by_contra moved
        exact unlisted.2 (mem_linkSubjects_plan member moved)
      simp [kept, unmoved]
  | window id windowKey => rfl
  | resets id => rfl
  | usage | quotaAction | price _ | arrival _ _ => rfl

theorem announced_dismissed {previous replacement : AccountId} (valid : Valid charged base)
    (dismissed : Dismissed previous replacement base after) (instant : Timestamp) :
    AnnouncedOnce runtime false instant base after := by
  obtain ⟨middle, inserted, announced⟩ := dismissed
  unfold AccountWrites.insertDismissal at inserted
  split at inserted
  next => cases inserted
  next =>
    cases inserted
    exact announced_links (valid.dismissals _) announced (fun _ _ => rfl) instant

theorem announced_created {plan : Plan} (valid : Valid False base) (created : Created plan base after)
    (instant : Timestamp) : AnnouncedOnce runtime false instant base after := by
  have later : Valid False { base with plans := base.plans ++ [plan] } := by
    have landed := valid_created valid created False.elim
    obtain ⟨entries, rfl, _⟩ := created.announced
    exact landed.feed base.feed
  apply announced_links later created.announced
  intro id unnamed
  have other : plan.id ≠ id := by
    rintro rfl
    exact unnamed (by simp)
  simp [planOf, lookup_append, lookup_singleton, other]

theorem announced_edited {id : PlanId} {change : Plans.PlanChange} {current : Plan}
    (valid : Valid False base) (edited : Edited id change current base after) (instant : Timestamp) :
    AnnouncedOnce runtime false instant base after := by
  have later : Valid False (withPlan ((change.applied current).row id) base) := by
    have landed := valid_edited valid edited False.elim
    obtain ⟨entries, rfl, _⟩ := edited.announced
    exact landed.feed base.feed
  apply announced_links later edited.announced
  intro other unnamed
  have apart : other ≠ id := by
    rintro rfl
    exact unnamed (by simp)
  have same : ∀ row : Plan,
      (if row.id = id then (change.applied current).row id else row).id = row.id := by
    intro row
    split
    next equal => exact equal.symm
    next => rfl
  have mapped := lookup_map same base.plans other
  cases found : planOf base other with
  | none =>
    rw [show lookup Plan.id base.plans other = none from found] at mapped
    exact mapped.symm
  | some plan =>
    obtain ⟨_, named⟩ := lookup_mem found
    rw [show lookup Plan.id base.plans other = some plan from found, Option.map_some,
      if_neg (named ▸ apart)] at mapped
    exact mapped.symm

theorem announced_deleted {id : PlanId} (valid : Valid False base) (deleted : Deleted id base after)
    (instant : Timestamp) : AnnouncedOnce runtime false instant base after := by
  have later : Valid False (Plans.deletePlan id base).2 := by
    have landed := valid_deleted valid deleted
    obtain ⟨entries, rfl, _⟩ := deleted.announced
    exact landed.feed base.feed
  apply announced_links later deleted.announced
  intro other unnamed
  have apart : other ≠ id := by
    rintro rfl
    exact unnamed (by simp)
  symm
  apply lookup_apart valid.planIds
  intro plan _ named
  exact decide_eq_true (named ▸ apart)

/-- The clock a write looks at when it compares. -/
theorem announced_performed (stored : Stored) (runtime : Sql.Runtime) (world : World)
    (command : Command) {after : Tables}
    (performed : perform runtime stored.tables world command = (true, after)) :
    ∃ reading, AnnouncedOnce runtime (compares command) (world.clock reading) stored.tables after := by
  have valid := stored.valid
  cases command with
  | rename id displayName =>
    obtain ⟨_, source, landed⟩ := performed_holds (holds_rename valid id displayName) rfl performed
    exact ⟨0, announced_accounts valid landed _⟩
  | merge id into requires =>
    obtain ⟨_, source, landed, _⟩ := performed_holds (holds_merge valid id into requires) rfl performed
    exact ⟨0, announced_accounts valid landed _⟩
  | dismissContinuation previous replacement =>
    obtain ⟨_, rfl | dismissed⟩ :=
      performed_holds (holds_dismissContinuation previous replacement) rfl performed
    · refine ⟨0, fun subject _ => ⟨fun differs => absurd rfl differs, fun compared => by cases compared⟩⟩
    · exact ⟨0, announced_dismissed valid dismissed _⟩
  | ingest sourceId records =>
    simp only [perform, ingest_eq, performed_reading] at performed
    obtain ⟨_, landed⟩ := performed_holds (holds_ingesting valid records _ _) rfl performed
    exact ⟨1, announcedOnce_of_count fun subject visible => announced_landed valid landed visible⟩
  | store sourceId listing =>
    obtain ⟨_, landed⟩ := performed_holds (holds_store valid listing) rfl performed
    exact ⟨0, announced_accounts valid landed _⟩
  | recordRefresh accountId result refreshedAt =>
    rcases Merged.inside_or_absent stored.tables accountId with ⟨source, inside⟩ | absent
    · simp only [perform, recordRefresh_eq, performed_reading] at performed
      obtain ⟨_, landed⟩ := performed_holds
        (holds_comparing valid inside (Locality.holds_storeResult result refreshedAt) _) rfl performed
      exact ⟨0, announcedOnce_of_count fun subject visible => announced_landed valid landed visible⟩
    · obtain ⟨_, idle⟩ :=
        performed_holds (holds_recordRefresh_absent valid absent result refreshedAt) rfl performed
      exact ⟨0, announced_idle idle _⟩
  | clear accountId =>
    rcases Merged.inside_or_absent stored.tables accountId with ⟨source, inside⟩ | absent
    · simp only [perform, clear_eq, performed_reading] at performed
      obtain ⟨_, landed⟩ := performed_holds
        (holds_comparing valid inside Locality.holds_clearCredits _) rfl performed
      exact ⟨0, announcedOnce_of_count fun subject visible => announced_landed valid landed visible⟩
    · obtain ⟨_, idle⟩ := performed_holds (holds_clear_absent valid absent) rfl performed
      exact ⟨0, announced_idle idle _⟩
  | expire now =>
    obtain ⟨_, expired⟩ := performed_holds (holds_expire valid now) rfl performed
    exact ⟨0, announced_expired valid expired _⟩
  | sync configs =>
    obtain ⟨_, synced⟩ := performed_holds (holds_sync valid configs) rfl performed
    exact ⟨0, announced_synced valid synced _⟩
  | createPlan plan =>
    obtain ⟨id, created⟩ := exists_created performed
    exact ⟨0, announced_created valid created _⟩
  | updatePlan id change =>
    obtain ⟨_, current, edited⟩ := performed_holds (holds_update id change) rfl performed
    exact ⟨0, announced_edited valid edited _⟩
  | deletePlan id =>
    obtain ⟨_, deleted⟩ := performed_holds (holds_delete id) rfl performed
    exact ⟨0, announced_deleted valid deleted _⟩
  | fill pricedAs =>
    obtain ⟨_, priced⟩ := performed_holds (holds_fill pricedAs) rfl performed
    exact ⟨0, announced_priced priced _⟩
  | reprice pricedAs start finish =>
    obtain ⟨_, priced⟩ := performed_holds (holds_reprice pricedAs start finish) rfl performed
    exact ⟨0, announced_priced priced _⟩

/-- A write that does not commit leaves everything, the feed with it, as it was. One that
commits announces each visible change exactly once, wherever in the database it is. -/
theorem every_change_is_announced_once (stored : Stored) (runtime : Sql.Runtime) (world : World)
    (command : Command) :
    let ended := perform runtime stored.tables world command
    (ended.1 = false → ended.2 = stored.tables) ∧
      (ended.1 = true → ∃ reading,
        AnnouncedOnce runtime (compares command) (world.clock reading) stored.tables ended.2) := by
  intro ended
  refine ⟨perform_unchanged, fun landed => ?_⟩
  exact announced_performed stored runtime world command (Prod.ext landed rfl)

end MeteredUsage.Store.Announcements

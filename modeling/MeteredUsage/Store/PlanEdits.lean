import Mathlib.Data.List.DropRight
import MeteredUsage.Store.Commits
import MeteredUsage.Store.Merged

/-! An edit of a plan: it leaves no trace unless it commits, and a committed one is announced
because the plan reads differently. The one price a caller can give that a column does not read
back is `-0.0`, which an edit takes for a change of its own. -/

namespace MeteredUsage.Store.PlanEdits
open MeteredUsage.Values MeteredUsage.Store.Schema MeteredUsage.Store.Continuations
open MeteredUsage.Store.Snapshots MeteredUsage.Store.Plans MeteredUsage.Store.Validity
open MeteredUsage.Store.Frames MeteredUsage.Store.Statements MeteredUsage.Store.Landing
open MeteredUsage.Store.Links MeteredUsage.Store.Upkeep MeteredUsage.Store.Commands
open MeteredUsage.Library.Keyed MeteredUsage.Library.Transaction MeteredUsage.Library.Execution
open MeteredUsage.Changes.Table (Subject)

theorem trimBy_trimBy (drops : Char → Bool) (text : String) :
    Sql.trimBy drops (Sql.trimBy drops text) = Sql.trimBy drops text := by
  let left := text.toList.dropWhile drops
  have trimmed : Sql.trimBy drops text = String.ofList (left.rdropWhile drops) := rfl
  -- What the second pass sees begins as the text left of it did.
  have front : (left.rdropWhile drops).dropWhile drops = left.rdropWhile drops := by
    rw [List.dropWhile_eq_self_iff]
    intro nonempty
    have first := List.dropWhile_eq_self_iff.mp (List.dropWhile_idempotent drops text.toList)
    have shorter := (List.rdropWhile_prefix drops left).length_le
    rw [(List.rdropWhile_prefix drops left).getElem nonempty]
    exact first (nonempty.trans_le shorter)
  rw [trimmed]
  unfold Sql.trimBy
  rw [String.toList_ofList, front]
  exact congrArg String.ofList (List.rdropWhile_idempotent drops left)

@[simp] theorem strTrim_strTrim (text : String) : Sql.strTrim (Sql.strTrim text) = Sql.strTrim text :=
  trimBy_trimBy _ _

@[simp] theorem column_column (value : Sql.Float64) : value.column.column = value.column := by
  unfold Sql.Float64.column
  split
  next => decide
  next => rfl

theorem column_eq_self {value : Sql.Float64} : value.column = value ↔ value ≠ .negativeZero := by
  unfold Sql.Float64.column
  split
  next zero =>
    subst zero
    decide
  next other => simp [other]

/-- A stored plan, as a caller would ask for it. -/
def asked (plan : Plan) : NewPlan where
  accountId := plan.accountId
  name := plan.name
  monthlyUsd := plan.monthlyUsd
  periodStart := plan.periodStart
  periodEnd := plan.periodEnd

def Passes (plan : Plan) : Prop := (asked plan).check = none

/-- Stored tables whose plans were all written by the service: names trimmed, and prices as their
column reads them. -/
structure Sound (tables : Tables) : Prop where
  valid : Valid False tables
  trimmed : ∀ plan ∈ tables.plans, Sql.strTrim plan.name = plan.name
  priced : ∀ plan ∈ tables.plans, plan.monthlyUsd.column = plan.monthlyUsd

variable {base next after : Tables} {runtime : Sql.Runtime}

/-- What plans say other than whose they are was there before. -/
theorem Sound.columns (sound : Sound base) (valid : Valid False next)
    (columns : ∀ plan ∈ next.plans, ∃ old ∈ base.plans, unassigned plan = unassigned old) :
    Sound next where
  valid := valid
  trimmed := by
    intro plan member
    obtain ⟨old, stored, same⟩ := columns plan member
    have names : plan.name = old.name := (Plan.mk.inj same).2.2.1
    rw [names]
    exact sound.trimmed old stored
  priced := by
    intro plan member
    obtain ⟨old, stored, same⟩ := columns plan member
    have prices : plan.monthlyUsd = old.monthlyUsd := (Plan.mk.inj same).2.2.2.1
    rw [prices]
    exact sound.priced old stored

theorem Sound.samePlans (sound : Sound base) (valid : Valid False next)
    (same : next.plans = base.plans) : Sound next :=
  sound.columns valid fun plan member => ⟨plan, same ▸ member, rfl⟩

theorem Sound.landed (sound : Sound base) {parts : Parts} {source : SourceId}
    (landed : Landed runtime False parts source base next) : Sound next := by
  have valid := Merged.Landed.valid landed
  obtain ⟨_, middle, _, frame, _, entries, rfl, _⟩ := landed
  apply sound.columns valid
  intro plan member
  have column : unassigned plan ∈ base.plans.map unassigned :=
    frame.planColumns ▸ List.mem_map_of_mem member
  obtain ⟨old, stored, same⟩ := List.mem_map.mp column
  exact ⟨old, stored, same.symm⟩

theorem Sound.idle (sound : Sound base) (idle : Idle base next) : Sound next := by
  apply sound.samePlans (Merged.Idle.valid sound.valid idle)
  obtain ⟨recoveries, entries, rfl, _⟩ := idle
  rfl

/-- A plan the service stores, beside those it has. -/
theorem Sound.stores (sound : Sound base) (valid : Valid False next) {plan : NewPlan} {id : PlanId}
    (stored : ∀ row ∈ next.plans, row ∈ base.plans ∨ row = plan.row id) : Sound next where
  valid := valid
  trimmed := by
    intro row member
    rcases stored row member with old | rfl
    · exact sound.trimmed row old
    · exact strTrim_strTrim plan.name
  priced := by
    intro row member
    rcases stored row member with old | rfl
    · exact sound.priced row old
    · exact column_column plan.monthlyUsd

theorem mem_withPlan {row plan : Plan} (member : row ∈ (withPlan plan base).plans) :
    row ∈ base.plans ∨ row = plan := by
  obtain ⟨old, stored, rfl⟩ := List.mem_map.mp member
  split
  next => exact .inr rfl
  next => exact .inl stored

/-- Every write leaves the plans of sound tables as the service stores them. -/
theorem sound_step {action : Command × World} (sound : Sound base)
    (taken : step runtime base action = some next) : Sound next := by
  have valid : Valid False next := Merged.valid_step sound.valid False.elim taken
  obtain ⟨command, world⟩ := action
  have performed := step_iff.mp taken
  cases command with
  | rename id displayName =>
    obtain ⟨_, source, landed⟩ := performed_holds (holds_rename sound.valid id displayName) rfl performed
    exact sound.landed landed
  | merge id into requires =>
    obtain ⟨_, source, landed, _⟩ :=
      performed_holds (holds_merge sound.valid id into requires) rfl performed
    exact sound.landed landed
  | dismissContinuation previous replacement =>
    obtain ⟨_, rfl | dismissed⟩ :=
      performed_holds (holds_dismissContinuation previous replacement) rfl performed
    · exact sound
    · obtain ⟨middle, inserted, entries, rfl, _⟩ := dismissed
      unfold AccountWrites.insertDismissal at inserted
      split at inserted
      next => cases inserted
      next =>
        cases inserted
        exact sound.samePlans valid rfl
  | ingest sourceId records =>
    obtain ⟨_, landed⟩ := performed_holds (holds_ingest sound.valid records) rfl performed
    exact sound.landed landed
  | store sourceId listing =>
    obtain ⟨_, landed⟩ := performed_holds (holds_store sound.valid listing) rfl performed
    exact sound.landed landed
  | recordRefresh accountId result refreshedAt =>
    rcases Merged.inside_or_absent base accountId with ⟨source, inside⟩ | absent
    · obtain ⟨_, landed⟩ :=
        performed_holds (holds_recordRefresh sound.valid inside result refreshedAt) rfl performed
      exact sound.landed landed
    · obtain ⟨_, idle⟩ :=
        performed_holds (holds_recordRefresh_absent sound.valid absent result refreshedAt) rfl performed
      exact sound.idle idle
  | clear accountId =>
    rcases Merged.inside_or_absent base accountId with ⟨source, inside⟩ | absent
    · obtain ⟨_, landed⟩ := performed_holds (holds_clear sound.valid inside) rfl performed
      exact sound.landed landed
    · obtain ⟨_, idle⟩ := performed_holds (holds_clear_absent sound.valid absent) rfl performed
      exact sound.idle idle
  | expire now =>
    obtain ⟨_, entries, rfl, _⟩ := performed_holds (holds_expire sound.valid now) rfl performed
    exact sound.samePlans valid rfl
  | sync configs =>
    obtain ⟨_, _, sources, _, entries, rfl, _⟩ :=
      performed_holds (holds_sync sound.valid configs) rfl performed
    exact sound.samePlans valid rfl
  | createPlan plan =>
    obtain ⟨id, created⟩ := exists_created performed
    obtain ⟨entries, rfl, _⟩ := created.announced
    apply sound.stores valid
    intro row member
    exact (List.mem_append.mp member).imp_right List.mem_singleton.mp
  | updatePlan id change =>
    obtain ⟨_, current, edited⟩ := performed_holds (holds_update id change) rfl performed
    obtain ⟨entries, rfl, _⟩ := edited.announced
    exact sound.stores valid fun row member => mem_withPlan member
  | deletePlan id =>
    obtain ⟨_, deleted⟩ := performed_holds (holds_delete id) rfl performed
    obtain ⟨entries, rfl, _⟩ := deleted.announced
    exact sound.columns valid fun plan member => ⟨plan, (List.mem_filter.mp member).1, rfl⟩
  | fill pricedAs =>
    obtain ⟨_, events, subjects, _, _, entries, rfl, _⟩ :=
      performed_holds (holds_fill pricedAs) rfl performed
    exact sound.samePlans valid rfl
  | reprice pricedAs start finish =>
    obtain ⟨_, events, subjects, _, _, entries, rfl, _⟩ :=
      performed_holds (holds_reprice pricedAs start finish) rfl performed
    exact sound.samePlans valid rfl

/-- The state every run of writes leaves is sound. -/
theorem sound_run {actions : List (Command × World)}
    (reached : run (step runtime) Tables.empty actions = some base) : Sound base := by
  have start : Sound Tables.empty := ⟨valid_empty False, by simp [Tables.empty], by simp [Tables.empty]⟩
  exact invariant_run_free (fun _ _ _ sound taken => sound_step sound taken) start reached

/-- How the plan reads with each given field applied and each absent field kept. -/
def reads (change : PlanChange) (current : Plan) : Plan where
  id := current.id
  accountId := change.accountId.getD current.accountId
  name := (change.name.map Sql.strTrim).getD current.name
  monthlyUsd := change.monthlyUsd.getD current.monthlyUsd
  periodStart := change.periodStart.getD current.periodStart
  periodEnd := change.periodEnd.getD current.periodEnd

abbrev Read := Plan × Option AccountId

/-- A success: the plan reads as asked, is announced where it reads differently, and no plan
stopped passing the checks. -/
structure Edits (id : PlanId) (change : PlanChange) (base : Tables) (read : Read) (after : Tables) :
    Prop where
  answered : readPlan id after = some read
  applied : ∃ current, readPlan id base = some current ∧ read.1 = reads change current.1
  announced : .plan id ∈ after.feed.since base.feed ↔ readPlan id after ≠ readPlan id base
  checked : (∀ plan ∈ base.plans, Passes plan) → ∀ plan ∈ after.plans, Passes plan

/-- What `Plan::update` answers, and the tables it leaves: an error or nothing leaves no trace. -/
def Meets (id : PlanId) (change : PlanChange) (base : Tables) :
    Except WriteError (Ending (Option Read)) × Tables → Prop
  | (.ok (.committed (some found)), after) | (.ok (.dropped (some found)), after) =>
    Edits id change base found after
  | (.ok (.committed none), after) | (.ok (.dropped none), after) | (.error _, after) => after = base

/-- An edit that is written gives a price its column does not read back. -/
def Loses (id : PlanId) (change : PlanChange) (base : Tables) : Prop :=
  ∃ current, readPlan id base = some current ∧ change.monthlyUsd = some .negativeZero ∧
    (change.applied current.1).check = none ∧
    HasAccount base.accounts (change.applied current.1).accountId

variable {id : PlanId} {change : PlanChange} {current : Read}

/-- How an edit that does not fail ends. -/
inductive Ends (id : PlanId) (change : PlanChange) (base : Tables) :
    Ending (Option Read) → Tables → Prop where
  | missing : readPlan id base = none → Ends id change base (.dropped none) base
  | unaltered (current : Read) : readPlan id base = some current → change.alters current.1 = false →
      Ends id change base (.dropped (some current)) base
  | rewritten (current : Read) (after : Tables) : readPlan id base = some current →
      change.alters current.1 = true → (change.applied current.1).check = none →
      HasAccount base.accounts (change.applied current.1).accountId →
      Announced base [.plan id] (withPlan ((change.applied current.1).row id) base) after →
      Ends id change base
        (.committed (readPlan id (withPlan ((change.applied current.1).row id) base))) after

theorem holds_checked_then {plan : NewPlan} {Value : Type} {rest : Write Value}
    {after : Value → Tables → Prop}
    (passes : plan.check = none → Holds (fun tables => tables = base) rest after) :
    Holds (fun tables => tables = base) (checked plan >>= fun _ => rest) after := by
  unfold checked
  cases fits : plan.check with
  | none => exact (Holds.pure fun _ same => same).bind fun _ => passes fits
  | some error =>
    have refused : Holds (fun tables => tables = base) (refuse (.plan error) : Write Unit)
        fun _ _ => False := Holds.refuse
    exact refused.bind fun _ => ⟨fun _ _ _ impossible => impossible.elim⟩

theorem ends_update : Holds (fun tables => tables = base) (update id change) (Ends id change base) := by
  apply fetch_at
  cases read : readPlan id base with
  | none =>
    apply Holds.pure
    rintro _ rfl
    exact .missing read
  | some current =>
    dsimp only
    split
    case isFalse unaltered =>
      apply Holds.pure
      rintro _ rfl
      exact .unaltered current read (Bool.not_eq_true _ ▸ unaltered)
    next alters =>
      apply holds_checked_then
      intro passes
      apply fetch_at
      apply attempt_at
      intro updated middle taken
      apply Holds.refuseIf_then
      intro accepted
      rw [Bool.not_eq_false] at accepted
      subst accepted
      obtain ⟨account, rfl⟩ := updatePlan_taken (Option.some.inj taken)
      apply fetch_at
      apply (holds_linkChanges [.plan id]).bind
      intro _
      apply Holds.commit
      exact fun after announced => .rewritten current after read alters passes account announced

/-- The tables, but for their feed. -/
theorem readPlan_announced {subjects : List Subject} {middle : Tables}
    (announced : Announced base subjects middle after) : readPlan id after = readPlan id middle := by
  obtain ⟨entries, rfl, _⟩ := announced
  rfl

theorem readPlan_withPlan (valid : Valid False base) (read : readPlan id base = some current)
    {plan : Plan} (same : plan.id = id) (account : HasAccount base.accounts plan.accountId) :
    readPlan id (withPlan plan base) =
      some (plan, linked (replacements (withPlan plan base)) plan.accountId) := by
  obtain ⟨member, named⟩ := readPlan_found read
  obtain ⟨known, stored, identified⟩ := account
  obtain ⟨source, present, owner⟩ := valid.accountSources known stored
  have found : lookup Plan.id (withPlan plan base).plans id = some plan := by
    have ids : Distinct Plan.id (withPlan plan base).plans := valid.planIds.map fun row => by
      split
      next replaced => exact replaced.symm
      next => rfl
    apply (lookup_eq_some ids).mpr
    exact ⟨List.mem_map.mpr ⟨current.1, member, if_pos (named.trans same.symm)⟩, same⟩
  have accounts : accountOf (withPlan plan base) plan.accountId = some known :=
    (lookup_eq_some valid.accountIds).mpr ⟨stored, identified⟩
  have sources : lookup Source.id (withPlan plan base).sources known.sourceId = some source :=
    (lookup_eq_some valid.sourceIds).mpr ⟨present, owner⟩
  simp only [readPlan, found, accounts, sources, Option.bind_eq_bind, Option.bind_some]
  rfl

/-- The row an edit writes reads as asked, but for a price that lost its sign. -/
theorem row_eq_reads (sound : Sound base) (read : readPlan id base = some current)
    (kept : change.monthlyUsd ≠ some .negativeZero) :
    (change.applied current.1).row id = reads change current.1 := by
  obtain ⟨member, named⟩ := readPlan_found read
  have name : Sql.strTrim (change.name.getD current.1.name) =
      (change.name.map Sql.strTrim).getD current.1.name := by
    cases change.name with
    | none => exact sound.trimmed current.1 member
    | some given => rfl
  have price : (change.monthlyUsd.getD current.1.monthlyUsd).column =
      change.monthlyUsd.getD current.1.monthlyUsd := by
    cases given : change.monthlyUsd with
    | none => exact sound.priced current.1 member
    | some usd =>
      apply column_eq_self.mpr
      rintro rfl
      exact kept given
  unfold NewPlan.row reads PlanChange.applied
  simp only [name, price, named]

theorem any_ne_iff {Value : Type} [DecidableEq Value] (given : Option Value) (old : Value) :
    given.any (· ≠ old) = true ↔ given.getD old ≠ old := by
  cases given <;> simp

/-- An edit alters a plan exactly where the plan asked for is another. -/
theorem alters_iff (change : PlanChange) (plan : Plan) :
    change.alters plan = true ↔ reads change plan ≠ plan := by
  have names : change.name.any (fun name => Sql.strTrim name ≠ plan.name) = true ↔
      (change.name.map Sql.strTrim).getD plan.name ≠ plan.name := by
    rewrite [← any_ne_iff, Option.any_map]
    rfl
  have prices : change.monthlyUsd.any (fun usd => usd.bits ≠ plan.monthlyUsd.bits) = true ↔
      change.monthlyUsd.getD plan.monthlyUsd ≠ plan.monthlyUsd := by
    rw [← any_ne_iff]
    have bits : ∀ usd : Sql.Float64, usd.bits = plan.monthlyUsd.bits ↔ usd = plan.monthlyUsd :=
      fun usd => ⟨fun same => congrArg Sql.Float64.mk same, fun same => congrArg _ same⟩
    simp only [ne_eq, bits]
  have fields : reads change plan = plan ↔ change.accountId.getD plan.accountId = plan.accountId ∧
      (change.name.map Sql.strTrim).getD plan.name = plan.name ∧
      change.monthlyUsd.getD plan.monthlyUsd = plan.monthlyUsd ∧
      change.periodStart.getD plan.periodStart = plan.periodStart ∧
      change.periodEnd.getD plan.periodEnd = plan.periodEnd := by
    obtain ⟨id, accountId, name, monthlyUsd, periodStart, periodEnd⟩ := plan
    simp [reads]
  unfold PlanChange.alters
  rw [Bool.or_eq_true, Bool.or_eq_true, Bool.or_eq_true, Bool.or_eq_true, any_ne_iff, names, prices,
    any_ne_iff, any_ne_iff, ne_eq (reads change plan), fields]
  simp only [not_and_or, or_assoc, ne_eq]

theorem passes_row {plan : NewPlan} (passes : plan.check = none) (id : PlanId) :
    Passes (plan.row id) := by
  have price : plan.monthlyUsd.column.isFinite = plan.monthlyUsd.isFinite ∧
      plan.monthlyUsd.column.lt .zero = plan.monthlyUsd.lt .zero := by
    unfold Sql.Float64.column
    split
    next zero =>
      rw [zero]
      decide
    next => exact ⟨rfl, rfl⟩
  unfold Passes NewPlan.check asked NewPlan.row
  simp only [strTrim_strTrim, price]
  exact passes

theorem edits_unaltered (found : readPlan id base = some current)
    (unaltered : change.alters current.1 = false) : Edits id change base current base where
  answered := found
  applied := by
    have same : ¬reads change current.1 ≠ current.1 := by
      rw [← alters_iff, unaltered]
      exact Bool.false_ne_true
    exact ⟨current, found, (not_not.mp same).symm⟩
  announced := by
    rw [Changes.Table.Feed.since_self]
    simp
  checked := fun passes => passes

/-- An edit that is written and keeps its price is announced, and reads as asked. -/
theorem edits_rewritten (sound : Sound base) (found : readPlan id base = some current)
    (alters : change.alters current.1 = true) (passes : (change.applied current.1).check = none)
    (account : HasAccount base.accounts (change.applied current.1).accountId)
    (announced : Announced base [.plan id] (withPlan ((change.applied current.1).row id) base) after)
    (kept : change.monthlyUsd ≠ some .negativeZero) :
    ∃ answer, readPlan id (withPlan ((change.applied current.1).row id) base) = some answer ∧
      Edits id change base answer after := by
  let row := (change.applied current.1).row id
  have reading := readPlan_withPlan sound.valid found (show row.id = id from rfl) account
  have later : readPlan id after = readPlan id (withPlan row base) := readPlan_announced announced
  have asRead : row = reads change current.1 := row_eq_reads sound found kept
  refine ⟨_, reading, ?_⟩
  constructor
  case answered => rw [later, reading]
  case applied => exact ⟨current, found, asRead⟩
  case announced =>
    have recorded : .plan id ∈ after.feed.since base.feed := by
      have since : after.feed.since base.feed = base.feed.since base.feed ++ _ :=
        Recorded.since announced (Nat.le_refl base.feed.sequence)
      rw [since, List.mem_append]
      exact .inr ((List.perm_insertionSort _ _).mem_iff.mpr (List.mem_dedup.mpr List.mem_cons_self))
    have differs : readPlan id after ≠ readPlan id base := by
      rw [later, reading, found]
      intro same
      have rows : row = current.1 := congrArg Prod.fst (Option.some.inj same)
      exact (alters_iff change current.1).mp alters (asRead.symm.trans rows)
    exact iff_of_true recorded differs
  case checked =>
    intro all plan member
    obtain ⟨entries, rfl, _⟩ := announced
    rcases mem_withPlan member with stored | rfl
    · exact all plan stored
    · exact passes_row passes id

/-- An edit that gives no lost price meets the claim on every run of it. -/
theorem meets_unless_lost (sound : Sound base) (kept : ¬Loses id change base)
    (session : Session Tables) (same : session.data = base) :
    Meets id change base (transact (update id change) session) := by
  have ends := (@ends_update base id change).ends session
  unfold transact
  cases ran : update id change session with
  | error failure => exact same
  | ok answer =>
    obtain ⟨ending, finish⟩ := answer
    have ended := ends ending finish same ran
    cases ended with
    | missing absent => exact same
    | unaltered current found unaltered =>
      simp only [same]
      exact edits_unaltered found unaltered
    | rewritten current _ found alters passes account announced =>
      have price : change.monthlyUsd ≠ some .negativeZero := fun given =>
        kept ⟨current, found, given, passes, account⟩
      obtain ⟨answer, reading, edits⟩ :=
        edits_rewritten sound found alters passes account announced price
      rw [reading]
      exact edits

theorem succeeds_checked_then {plan : NewPlan} (passes : plan.check = none) {Value : Type}
    {rest : Write Value} {before : Nat → Tables → Prop} {final : Value → Nat → Tables → Prop}
    (succeeds : Succeeds before rest final) :
    Succeeds before (checked plan >>= fun _ => rest) final := by
  have passed : checked plan = pure () := by
    unfold checked
    rw [passes]
  rw [passed]
  exact succeeds

/-- Where no statement fails on its own, a checked edit of a known account commits. -/
theorem rewrite_commits {plan : NewPlan} (found : readPlan id base = some current)
    (passes : plan.check = none) (account : HasAccount base.accounts plan.accountId) :
    Succeeds (fun _ tables => tables = base) (rewrite id plan)
      fun ending _ _ => ∃ answer, ending = .committed answer := by
  apply succeeds_checked_then passes
  apply (Commits.succeeds_fetch replacements).bind
  intro links
  have updated : Succeeds (fun _ tables => tables = base)
      (attempt fun tables => some (updatePlan (plan.row id) tables))
      fun updated _ _ => updated = true := by
    apply Commits.succeeds_attempt
    rintro _ tables rfl
    obtain ⟨known, stored, same⟩ := account
    obtain ⟨member, named⟩ := readPlan_found found
    have present : tables.accounts.any (·.id = (plan.row id).accountId) = true :=
      List.any_eq_true.mpr ⟨known, stored, decide_eq_true same⟩
    have affected : (updatePlan (plan.row id) tables).1 = true := by
      unfold updatePlan
      rw [if_pos present]
      exact List.any_eq_true.mpr ⟨current.1, member, decide_eq_true named⟩
    exact ⟨_, _, rfl, affected⟩
  apply updated.bind
  intro written
  cases written with
  | false => exact ⟨fun _ _ impossible => by cases impossible⟩
  | true =>
    apply Succeeds.refuseIf_then (by decide)
    apply (Commits.succeeds_fetch (readPlan id)).bind
    intro answer
    have linked : Succeeds (fun _ _ => True) (recordLinkChanges links [.plan id]) fun _ _ _ => True := by
      apply (Commits.succeeds_fetch _).bind
      intro after
      apply (Commits.succeeds_fetch _).bind
      exact fun changed => Succeeds.forM fun subject _ => Commits.succeeds_record subject
    apply (linked.weaken (fun _ _ _ => trivial) fun _ _ _ final => final).bind
    exact fun _ => Succeeds.commit fun _ _ _ => ⟨answer, rfl⟩

/-- A lost price is written, and reads back as another. -/
theorem lost_is_not_met (sound : Sound base) (lost : Loses id change base) :
    ∃ session : Session Tables, session.data = base ∧
      ¬Meets id change base (transact (update id change) session) := by
  obtain ⟨current, found, given, passes, account⟩ := lost
  let session : Session Tables := (World.calm 0 id.add).session base
  have calm : Calm session := ⟨fun _ => rfl, fun _ => by simp [session, World.session, World.calm]⟩
  have alters : change.alters current.1 = true := by
    have stored := column_eq_self.mp (sound.priced current.1 (readPlan_found found).1)
    rw [alters_iff]
    intro same
    have prices : (reads change current.1).monthlyUsd = current.1.monthlyUsd := by rw [same]
    rw [reads, given] at prices
    exact stored prices.symm
  have commits : Succeeds (fun _ tables => tables = base) (update id change)
      fun ending _ _ => ∃ answer, ending = .committed answer := by
    apply Succeeds.query_then
    rw [found]
    dsimp only
    rw [if_pos alters]
    exact rewrite_commits found passes account
  obtain ⟨_, finish, ran, -, answer, rfl⟩ := commits.runs session calm rfl
  refine ⟨session, rfl, ?_⟩
  have committed := transact_committed.mpr ⟨finish, ran, rfl⟩
  rw [committed]
  have ended := (@ends_update base id change).ends session _ finish rfl ran
  cases ended with
  | rewritten other _ again _ _ _ announced =>
    obtain rfl : current = other := Option.some.inj (found.symm.trans again)
    have reading := readPlan_withPlan sound.valid found
      (show ((change.applied current.1).row id).id = id from rfl) account
    rw [reading]
    rintro ⟨_, ⟨before, read, applied⟩, _, _⟩
    have prices := congrArg Plan.monthlyUsd applied
    simp [NewPlan.row, PlanChange.applied, reads, given, Sql.Float64.column, Sql.Float64.zero,
      Sql.Float64.negativeZero] at prices

/-- A stored plan is edited atomically, reads as asked and is announced exactly where it reads
differently, unless the edit is written with a price its column does not read back. -/
theorem edits_are_atomic (sound : Sound base) (id : PlanId) (change : PlanChange) :
    (∀ session : Session Tables, session.data = base →
      Meets id change base (transact (update id change) session)) ↔ ¬Loses id change base := by
  constructor
  · intro meets lost
    obtain ⟨session, same, fails⟩ := lost_is_not_met sound lost
    exact fails (meets session same)
  · exact meets_unless_lost sound

/-- A plan that costs nothing is created on an account. -/
def freePlan : List (Command × World) :=
  [(.sync [⟨"gateway", "gateway", .cliProxy, "gateway"⟩], .calm 0 (· + 1)),
    (.ingest 1 [.record (.idle "old" 0)], .calm 0 (· + 2)),
    (.createPlan ⟨2, "plus", .zero, 0, none⟩, .calm 0 (· + 5))]

/-- An edit of the price alone. -/
def repriced (usd : Sql.Float64) : PlanChange := ⟨none, none, some usd, none, none⟩

theorem freePlan_stored : ∃ tables, run (step .inert) Tables.empty freePlan = some tables ∧
    readPlan 5 tables = some (⟨5, 2, "plus", .zero, 0, none⟩, none) ∧
    HasAccount tables.accounts 2 := by
  have ran : (run (step .inert) Tables.empty freePlan).map (fun tables =>
      (readPlan 5 tables, tables.accounts.map Account.id)) =
      some (some (⟨5, 2, "plus", .zero, 0, none⟩, none), [2]) := by decide +kernel
  obtain ⟨tables, reached, stored⟩ := Option.map_eq_some_iff.mp ran
  obtain ⟨plan, accounts⟩ := Prod.mk.inj stored
  have known : 2 ∈ tables.accounts.map Account.id := accounts ▸ List.mem_singleton_self 2
  exact ⟨tables, reached, plan, List.mem_map.mp known⟩

theorem a_price_is_edited : ∃ tables, run (step .inert) Tables.empty freePlan = some tables ∧
    ∀ session : Session Tables, session.data = tables →
      Meets 5 (repriced .one) tables (transact (update 5 (repriced .one)) session) := by
  obtain ⟨tables, reached, -, -⟩ := freePlan_stored
  refine ⟨tables, reached, (edits_are_atomic (sound_run reached) 5 (repriced .one)).mpr ?_⟩
  rintro ⟨_, _, given, _⟩
  cases given

/-- An edit of a free plan's price to `-0.0` does not meet the claim. -/
theorem a_price_loses_its_sign : ∃ tables, run (step .inert) Tables.empty freePlan = some tables ∧
    ∃ session : Session Tables, session.data = tables ∧
      ¬Meets 5 (repriced .negativeZero) tables
        (transact (update 5 (repriced .negativeZero)) session) := by
  obtain ⟨tables, reached, stored, known⟩ := freePlan_stored
  exact ⟨tables, reached, lost_is_not_met (sound_run reached)
    ⟨_, stored, rfl, by decide, known⟩⟩

/-- It is announced, as the plan's creation was, though the plan reads as before. -/
example : (run (step .inert) Tables.empty (freePlan ++
    [(.updatePlan 5 (repriced .negativeZero), .calm 0 (· + 6))])).map (fun tables =>
      (tables.plans, (tables.feed.since .empty).count (.plan 5))) =
    some ([⟨5, 2, "plus", .zero, 0, none⟩], 2) := by decide +kernel

end MeteredUsage.Store.PlanEdits

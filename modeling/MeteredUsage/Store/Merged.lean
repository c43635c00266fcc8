import Mathlib.Logic.Relation
import MeteredUsage.Store.Links
import MeteredUsage.Store.Upkeep

/-! Merges along every run: one step deep, without a cycle, inside a source, and with
nothing charged to a merged account as long as no plan is put on one. -/

namespace MeteredUsage.Store.Merged
open MeteredUsage.Values MeteredUsage.Store.Schema MeteredUsage.Store.Commands
open MeteredUsage.Store.Validity MeteredUsage.Store.Frames MeteredUsage.Store.Statements
open MeteredUsage.Store.Landing MeteredUsage.Store.Links MeteredUsage.Store.Upkeep
open MeteredUsage.Library.Keyed MeteredUsage.Library.Transaction MeteredUsage.Library.Execution

/-- The first account was merged into the second. -/
def MergedInto (tables : Tables) (id target : AccountId) : Prop :=
  ∃ account ∈ tables.accounts, account.id = id ∧ account.mergedInto = some target

structure MergeInvariant (tables : Tables) : Prop where
  oneStep : ∀ id target, MergedInto tables id target →
    HasAccount tables.accounts target ∧ ∀ next, ¬MergedInto tables target next
  acyclic : ∀ id, ¬Relation.TransGen (MergedInto tables) id id
  oneSource : ∀ account ∈ tables.accounts, ∀ target ∈ tables.accounts,
    account.mergedInto = some target.id → target.sourceId = account.sourceId
  events : ∀ event ∈ tables.events, ∀ target, ¬MergedInto tables event.accountId target
  plans : ∀ plan ∈ tables.plans, ∀ target, ¬MergedInto tables plan.accountId target

variable {charged : Prop} {runtime : Sql.Runtime} {tables next : Tables}

theorem Unmerged.not_merged (valid : Valid charged tables) {id : AccountId}
    (unmerged : Unmerged tables.accounts id) (target : AccountId) : ¬MergedInto tables id target := by
  rintro ⟨account, member, same, merged⟩
  obtain ⟨known, stored, named, root⟩ := unmerged
  rw [valid.sameAccount member stored (same.trans named.symm), root] at merged
  cases merged

theorem mergeInvariant (valid : Valid True tables) : MergeInvariant tables where
  oneStep := by
    rintro id target ⟨account, member, _, merged⟩
    have absorbs := valid.merges account member target merged
    exact ⟨absorbs.unmerged.hasAccount, Unmerged.not_merged valid absorbs.unmerged⟩
  acyclic := by
    intro id cycle
    obtain ⟨target, first, rest⟩ := Relation.TransGen.head'_iff.mp cycle
    obtain ⟨account, member, same, merged⟩ := first
    have root := Unmerged.not_merged valid (valid.merges account member target merged).unmerged
    rcases Relation.ReflTransGen.cases_head rest with returned | ⟨next, onward, _⟩
    · exact root target ⟨account, member, same.trans returned.symm, merged⟩
    · exact root next onward
  oneSource := by
    intro account member target stored merged
    obtain ⟨known, found, same, inSource, _⟩ := valid.merges account member _ merged
    rw [← inSource, valid.sameAccount found stored same]
  events := fun event member =>
    Unmerged.not_merged valid (valid.eventAccounts event member).unmerged
  plans := fun plan member => Unmerged.not_merged valid (valid.plansCharged trivial plan member)

/-- No plan is created on a merged account, or moved to one. -/
def Charges (tables : Tables) (action : Command × World) : Prop :=
  match action.1 with
  | .createPlan plan => ∀ target, ¬MergedInto tables plan.accountId target
  | .updatePlan _ change => ∀ id, change.accountId = some id → ∀ target, ¬MergedInto tables id target
  | _ => True

theorem unmerged_of_not {id : AccountId} (has : HasAccount tables.accounts id)
    (roots : ∀ target, ¬MergedInto tables id target) : Unmerged tables.accounts id := by
  obtain ⟨account, member, rfl⟩ := has
  refine ⟨account, member, rfl, ?_⟩
  cases merged : account.mergedInto with
  | none => rfl
  | some target => exact absurd ⟨account, member, rfl, merged⟩ (roots target)

theorem Landed.valid {parts : Snapshots.Parts} {source : SourceId}
    (landed : Landed runtime charged parts source tables next) : Valid charged next := by
  obtain ⟨_, middle, _, frame, _, entries, rfl, _⟩ := landed
  exact frame.valid.feed _

theorem Idle.valid (valid : Valid charged tables) (idle : Idle tables next) : Valid charged next := by
  obtain ⟨recoveries, entries, rfl, _⟩ := idle
  exact (valid.recoveries recoveries).feed _

/-- Either the account a write names is one of some source, or there is none of its id. -/
theorem inside_or_absent (tables : Tables) (id : AccountId) :
    (∃ source, Inside tables.accounts source id) ∨ ∀ account ∈ tables.accounts, account.id ≠ id := by
  by_cases known : ∃ account ∈ tables.accounts, account.id = id
  · obtain ⟨account, member, same⟩ := known
    exact .inl ⟨account.sourceId, account, member, same, rfl⟩
  · exact .inr fun account member same => known ⟨account, member, same⟩

/-- Every write keeps a stored state valid, where one that charges a plan is guarded. -/
theorem valid_step {action : Command × World} (valid : Valid charged tables)
    (guarded : charged → Charges tables action) (taken : step runtime tables action = some next) :
    Valid charged next := by
  obtain ⟨command, world⟩ := action
  have performed := step_iff.mp taken
  cases command with
  | rename id displayName =>
    obtain ⟨_, source, landed⟩ := performed_holds (holds_rename valid id displayName) rfl performed
    exact Landed.valid landed
  | merge id into requires =>
    obtain ⟨_, source, landed, _⟩ := performed_holds (holds_merge valid id into requires) rfl performed
    exact Landed.valid landed
  | dismissContinuation previous replacement =>
    obtain ⟨_, rfl | dismissed⟩ :=
      performed_holds (holds_dismissContinuation previous replacement) rfl performed
    · exact valid
    · exact valid_dismissed valid dismissed
  | ingest sourceId records =>
    obtain ⟨_, landed⟩ := performed_holds (holds_ingest valid records) rfl performed
    exact Landed.valid landed
  | store sourceId listing =>
    obtain ⟨_, landed⟩ := performed_holds (holds_store valid listing) rfl performed
    exact Landed.valid landed
  | recordRefresh accountId result refreshedAt =>
    rcases inside_or_absent tables accountId with ⟨source, inside⟩ | absent
    · obtain ⟨_, landed⟩ :=
        performed_holds (holds_recordRefresh valid inside result refreshedAt) rfl performed
      exact Landed.valid landed
    · obtain ⟨_, idle⟩ :=
        performed_holds (holds_recordRefresh_absent valid absent result refreshedAt) rfl performed
      exact Idle.valid valid idle
  | clear accountId =>
    rcases inside_or_absent tables accountId with ⟨source, inside⟩ | absent
    · obtain ⟨_, landed⟩ := performed_holds (holds_clear valid inside) rfl performed
      exact Landed.valid landed
    · obtain ⟨_, idle⟩ := performed_holds (holds_clear_absent valid absent) rfl performed
      exact Idle.valid valid idle
  | expire now =>
    obtain ⟨_, expired⟩ := performed_holds (holds_expire valid now) rfl performed
    exact valid_expired valid expired
  | sync configs =>
    obtain ⟨_, synced⟩ := performed_holds (holds_sync valid configs) rfl performed
    exact valid_synced valid synced
  | createPlan plan =>
    obtain ⟨id, created⟩ := exists_created performed
    exact valid_created valid created fun holds => unmerged_of_not created.account (guarded holds)
  | updatePlan id change =>
    obtain ⟨_, current, edited⟩ := performed_holds (holds_update id change) rfl performed
    apply valid_edited valid edited
    intro holds
    cases moved : change.accountId with
    | none =>
      have stays : (change.applied current).accountId = current.accountId := by
        simp [Plans.PlanChange.applied, moved]
      exact stays ▸ valid.plansCharged holds current edited.found.1
    | some target =>
      have goes : (change.applied current).accountId = target := by
        simp [Plans.PlanChange.applied, moved]
      exact unmerged_of_not edited.account (goes ▸ guarded holds target moved)
  | deletePlan id =>
    obtain ⟨_, deleted⟩ := performed_holds (holds_delete id) rfl performed
    exact valid_deleted valid deleted
  | fill pricedAs =>
    obtain ⟨_, priced⟩ := performed_holds (holds_fill pricedAs) rfl performed
    exact valid_priced valid priced
  | reprice pricedAs start finish =>
    obtain ⟨_, priced⟩ := performed_holds (holds_reprice pricedAs start finish) rfl performed
    exact valid_priced valid priced

/-- A merge leaves the accounts a plan write found as they were. -/
theorem mergedInto_announced {subjects : List Changes.Table.Subject} {plans : List Plan}
    {after : Tables} (announced : Announced tables subjects { tables with plans := plans } after) :
    MergedInto after = MergedInto tables := by
  obtain ⟨entries, rfl, _⟩ := announced
  rfl

/-- A plan that is put on a merged account breaks the invariant. -/
theorem charges_of_invariant {action : Command × World}
    (taken : step runtime tables action = some next) (good : MergeInvariant next) :
    Charges tables action := by
  obtain ⟨command, world⟩ := action
  have performed := step_iff.mp taken
  cases command with
  | createPlan plan =>
    obtain ⟨id, created⟩ := exists_created performed
    have same := mergedInto_announced created.announced
    intro target
    have stored : plan.row id ∈ next.plans := by
      obtain ⟨entries, rfl, _⟩ := created.announced
      simp
    exact same ▸ good.plans _ stored target
  | updatePlan id change =>
    obtain ⟨_, current, edited⟩ := performed_holds (holds_update id change) rfl performed
    have same := mergedInto_announced edited.announced
    intro moved named target
    have stored : (change.applied current).row id ∈ next.plans := by
      obtain ⟨entries, rfl, _⟩ := edited.announced
      exact List.mem_map.mpr ⟨current, edited.found.1, if_pos edited.found.2⟩
    have goes : (change.applied current).accountId = moved := by
      simp [Plans.PlanChange.applied, named]
    have kept := good.plans _ stored target
    rw [same] at kept
    exact goes ▸ kept
  | rename | merge | dismissContinuation | ingest | store | recordRefresh | clear | expire | sync
  | deletePlan | fill | reprice => trivial

/-- The merge invariant holds in every state of exactly the runs that put no plan on a merged
account. -/
theorem always_merged_iff (runtime : Sql.Runtime) (actions : List (Command × World)) :
    Always (step runtime) MergeInvariant Tables.empty actions ↔
      Meets (step runtime) Charges Tables.empty actions := by
  have keeps : ∀ start action next, Valid True start → Charges start action →
      step runtime start action = some next → Valid True next :=
    fun _ _ _ valid guarded taken => valid_step valid (fun _ => guarded) taken
  exact always_iff_meets (fun _ valid => mergeInvariant valid) keeps
    (fun _ _ _ _ taken good => charges_of_invariant taken good) (valid_empty True) actions

/-- One account is merged into another, and then a plan is created on it. -/
def strandedPlan : List (Command × World) :=
  [(.sync [⟨"gateway", "gateway", .cliProxy, "gateway"⟩], .calm 0 (· + 1)),
    (.ingest 1 [.record (.idle "old" 0), .record (.idle "new" 0)], .calm 0 (· + 2)),
    (.merge 2 4 false, .calm 0 id),
    (.createPlan ⟨2, "plan", .one, 0, none⟩, .calm 0 (· + 5))]

theorem a_plan_is_put_on_a_merged_account :
    ∃ tables, run (step .inert) Tables.empty strandedPlan = some tables ∧ ¬MergeInvariant tables := by
  have ran : (run (step .inert) Tables.empty strandedPlan).map (fun tables =>
      (tables.accounts.map fun account => (account.id, account.mergedInto),
        tables.plans.map Plan.accountId)) = some ([(2, some 4), (4, none)], [2]) := by decide +kernel
  obtain ⟨tables, reached, stored⟩ := Option.map_eq_some_iff.mp ran
  obtain ⟨accounts, plans⟩ := Prod.mk.inj stored
  refine ⟨tables, reached, fun invariant => ?_⟩
  have charged : 2 ∈ tables.plans.map Plan.accountId := plans ▸ by simp
  have merged : (2, some 4) ∈ tables.accounts.map fun account => (account.id, account.mergedInto) :=
    accounts ▸ by simp
  obtain ⟨plan, member, onMerged⟩ := List.mem_map.mp charged
  obtain ⟨account, known, same⟩ := List.mem_map.mp merged
  obtain ⟨named, pointed⟩ := Prod.mk.inj same
  exact invariant.plans plan member 4 ⟨account, known, named.trans onMerged.symm, pointed⟩

end MeteredUsage.Store.Merged

import MeteredUsage.Store.Landing

/-! The writes that name what they change and announce the links they moved: plans, and the
decision that a pair is no continuation. -/

namespace MeteredUsage.Store.Links
open MeteredUsage.Values MeteredUsage.Store.Schema MeteredUsage.Store.Continuations
open MeteredUsage.Store.Validity MeteredUsage.Store.Statements MeteredUsage.Store.Snapshots
open MeteredUsage.Library.Keyed MeteredUsage.Library.Transaction
open MeteredUsage.Changes.Table (Subject)

variable {charged : Prop} {base : Tables}

/-- The feed of a write that names `subjects` and left the tables at `middle`. -/
def Announced (base : Tables) (subjects : List Subject) (middle after : Tables) : Prop :=
  Recorded middle
    (inOrder (subjects ++ linkSubjects (replacements base) (replacements middle) middle)) after

theorem holds_linkChanges {middle : Tables} (subjects : List Subject) :
    Holds (fun tables => tables = middle) (recordLinkChanges (replacements base) subjects)
      fun _ => Announced base subjects middle := by
  apply fetch_at
  apply fetch_at
  apply (holds_record_all _).weaken
  · rintro _ rfl
    exact recorded_self _
  · exact fun _ _ recorded => recorded

/-- A write that changed the tables as `middle` says announces it before it commits. -/
theorem holds_announced {Value : Type} {middle : Tables} (subjects : List Subject) (value : Value) :
    Holds (fun tables => tables = middle)
      (do
        recordLinkChanges (replacements base) subjects
        commit (.database .query) value)
      (OnCommit (Announced base subjects middle)) :=
  (holds_linkChanges subjects).bind fun _ => holds_commit value

/-- The two accounts a dismissal keeps apart, in the order of their ids. -/
def Dismissed (previous replacement : AccountId) (base after : Tables) : Prop :=
  ∃ middle, AccountWrites.insertDismissal previous replacement base = (true, middle) ∧
    Announced base [.account previous, .account replacement] middle after

theorem holds_dismissContinuation (previous replacement : AccountId) :
    Holds (fun tables => tables = base)
      (AccountWrites.dismissContinuation previous replacement)
      (OnCommit fun after => after = base ∨ Dismissed previous replacement base after) := by
  apply fetch_at
  split
  case isFalse => exact holds_dropped _
  apply fetch_at
  apply attempt_at
  intro inserted middle taken
  have known := Option.some.inj taken
  cases inserted with
  | false =>
    have kept : middle = base := by
      unfold AccountWrites.insertDismissal at known
      split at known
      next => cases known; rfl
      next => cases known
    subst kept
    have skipped : Holds (fun tables => tables = middle)
        (onlyIf (false = true) (recordLinkChanges (replacements middle)
          [.account previous, .account replacement]))
        fun _ tables => tables = middle :=
      Holds.onlyIf (fun impossible => by cases impossible) fun _ _ same => same
    apply skipped.bind
    intro _
    exact (holds_commit _).weaken (fun _ same => Or.inl same) fun _ _ holds => holds
  | true =>
    have announced : Holds (fun tables => tables = middle)
        (onlyIf (true = true) (recordLinkChanges (replacements base)
          [.account previous, .account replacement]))
        fun _ => Announced base [.account previous, .account replacement] middle :=
      Holds.onlyIf (fun _ => holds_linkChanges _) (by simp)
    apply announced.bind
    intro _
    exact (holds_commit _).weaken (fun _ after => .inr ⟨middle, known, after⟩) fun _ _ holds => holds

theorem holds_checked (plan : Plans.NewPlan) :
    Holds (fun tables => tables = base) (Plans.checked plan) fun _ tables => tables = base := by
  unfold Plans.checked
  split
  next => exact Holds.refuse
  next => exact Holds.pure fun _ same => same

/-- What creating a plan leaves. -/
structure Created (plan : Plan) (base after : Tables) : Prop where
  account : HasAccount base.accounts plan.accountId
  fresh : ∀ other ∈ base.plans, other.id ≠ plan.id
  announced : Announced base [.plan plan.id] { base with plans := base.plans ++ [plan] } after

theorem insertPlan_taken {plan : Plan} {middle : Tables}
    (taken : Plans.insertPlan plan base = some (true, middle)) :
    HasAccount base.accounts plan.accountId ∧ (∀ other ∈ base.plans, other.id ≠ plan.id) ∧
      middle = { base with plans := base.plans ++ [plan] } := by
  unfold Plans.insertPlan at taken
  split at taken
  next known =>
    split at taken
    next => cases taken
    next fresh =>
      cases taken
      exact ⟨by simpa [HasAccount] using known, by simpa using fresh, rfl⟩
  next => cases taken

theorem holds_create (plan : Plans.NewPlan) :
    Holds (fun tables => tables = base) (Plans.create plan)
      (OnCommit fun after => ∃ id, Created (plan.row id) base after) := by
  apply (holds_checked plan).bind
  intro _
  apply Holds.nextId_then
  intro id
  apply fetch_at
  apply attempt_at
  intro inserted middle taken
  apply Holds.refuseIf_then
  intro accepted
  rw [Bool.not_eq_false] at accepted
  subst accepted
  obtain ⟨account, fresh, rfl⟩ := insertPlan_taken taken
  apply fetch_at
  apply Holds.require_then
  intro created _
  apply (holds_announced _ created).weaken (fun _ same => same)
  intro ending after holds
  cases ending with
  | committed _ => exact ⟨id, account, fresh, holds⟩
  | dropped _ => trivial

theorem exists_created {runtime : Sql.Runtime} {world : Commands.World} {plan : Plans.NewPlan} {next : Tables}
    (performed : Commands.perform runtime base world (.createPlan plan) = (true, next)) :
    ∃ id, Created (plan.row id) base next := by
  obtain ⟨_, id, created⟩ := Commands.performed_holds (holds_create plan) rfl performed
  exact ⟨id, created⟩

/-- A plan replaced by one of its id. -/
def withPlan (plan : Plan) (tables : Tables) : Tables :=
  { tables with plans := tables.plans.map fun row => if row.id = plan.id then plan else row }

/-- What editing a plan leaves. -/
structure Edited (id : PlanId) (change : Plans.PlanChange) (current : Plan) (base after : Tables) :
    Prop where
  found : current ∈ base.plans ∧ current.id = id
  alters : change.alters current = true
  account : HasAccount base.accounts (change.applied current).accountId
  announced : Announced base [.plan id] (withPlan ((change.applied current).row id) base) after

theorem updatePlan_taken {plan : Plan} {middle : Tables}
    (taken : Plans.updatePlan plan base = (true, middle)) :
    HasAccount base.accounts plan.accountId ∧ middle = withPlan plan base := by
  unfold Plans.updatePlan at taken
  split at taken
  next known =>
    exact ⟨by simpa [HasAccount] using known, (Prod.mk.inj taken).2.symm⟩
  next => cases taken

theorem readPlan_found {id : PlanId} {found : Plan × Option AccountId}
    (read : Plans.readPlan id base = some found) : found.1 ∈ base.plans ∧ found.1.id = id := by
  simp only [Plans.readPlan, Option.bind_eq_bind, Option.bind_eq_some_iff] at read
  obtain ⟨plan, stored, _, _, _, _, answered⟩ := read
  cases answered
  exact lookup_mem stored

theorem holds_update (id : PlanId) (change : Plans.PlanChange) :
    Holds (fun tables => tables = base) (Plans.update id change)
      (OnCommit fun after => ∃ current, Edited id change current base after) := by
  apply fetch_at
  cases read : Plans.readPlan id base with
  | none => exact holds_dropped _
  | some found =>
    dsimp only
    split
    case isFalse => exact holds_dropped _
    next alters =>
      apply (holds_checked _).bind
      intro _
      apply fetch_at
      apply attempt_at
      intro updated middle taken
      apply Holds.refuseIf_then
      intro accepted
      rw [Bool.not_eq_false] at accepted
      subst accepted
      obtain ⟨account, rfl⟩ := updatePlan_taken (Option.some.inj taken)
      apply fetch_at
      apply (holds_announced _ _).weaken (fun _ same => same)
      intro ending after holds
      cases ending with
      | committed _ => exact ⟨found.1, readPlan_found read, alters, account, holds⟩
      | dropped _ => trivial

/-- What deleting a plan leaves. -/
structure Deleted (id : PlanId) (base after : Tables) : Prop where
  found : ∃ plan ∈ base.plans, plan.id = id
  announced : Announced base [.plan id] (Plans.deletePlan id base).2 after

theorem holds_delete (id : PlanId) :
    Holds (fun tables => tables = base) (Plans.delete id) (OnCommit (Deleted id base)) := by
  apply fetch_at
  apply attempt_at
  intro deleted middle taken
  split
  case isFalse => exact holds_dropped _
  next present =>
    obtain ⟨found, rfl⟩ := Prod.mk.inj (Option.some.inj taken)
    subst found
    apply (holds_announced _ true).weaken (fun _ same => same)
    intro ending after holds
    cases ending with
    | committed _ => exact ⟨by simpa [Plans.deletePlan] using present, holds⟩
    | dropped _ => trivial

/-- Changes recorded after a valid state leave it valid. -/
theorem Announced.valid {subjects : List Subject} {middle after : Tables}
    (announced : Announced base subjects middle after) (valid : Valid charged middle) :
    Valid charged after := by
  obtain ⟨entries, rfl, _⟩ := announced
  exact valid.feed _

theorem valid_dismissed {previous replacement : AccountId} {after : Tables}
    (valid : Valid charged base) (dismissed : Dismissed previous replacement base after) :
    Valid charged after := by
  obtain ⟨middle, inserted, announced⟩ := dismissed
  apply announced.valid
  unfold AccountWrites.insertDismissal at inserted
  split at inserted
  next => cases inserted
  next =>
    cases inserted
    exact valid.dismissals _

theorem valid_created {plan : Plan} {after : Tables} (valid : Valid charged base)
    (created : Created plan base after)
    (unmerged : charged → Unmerged base.accounts plan.accountId) : Valid charged after := by
  apply created.announced.valid
  exact { valid with
    planIds := valid.planIds.append_singleton created.fresh
    planAccounts := by
      intro other member
      rcases List.mem_append.mp member with stored | new
      · exact valid.planAccounts other stored
      · exact List.mem_singleton.mp new ▸ created.account
    plansCharged := by
      intro holds other member
      rcases List.mem_append.mp member with stored | new
      · exact valid.plansCharged holds other stored
      · exact List.mem_singleton.mp new ▸ unmerged holds }

theorem valid_edited {id : PlanId} {change : Plans.PlanChange} {current : Plan} {after : Tables}
    (valid : Valid charged base) (edited : Edited id change current base after)
    (unmerged : charged → Unmerged base.accounts (change.applied current).accountId) :
    Valid charged after := by
  apply edited.announced.valid
  exact { valid with
    planIds := valid.planIds.map fun row => by
      split
      next same => exact same.symm
      next => rfl
    planAccounts := by
      intro next member
      obtain ⟨row, stored, rfl⟩ := List.mem_map.mp member
      split
      next => exact edited.account
      next => exact valid.planAccounts row stored
    plansCharged := by
      intro holds next member
      obtain ⟨row, stored, rfl⟩ := List.mem_map.mp member
      split
      next => exact unmerged holds
      next => exact valid.plansCharged holds row stored }

theorem valid_deleted {id : PlanId} {after : Tables} (valid : Valid charged base)
    (deleted : Deleted id base after) : Valid charged after := by
  apply deleted.announced.valid
  exact { valid with
    planIds := valid.planIds.filter _
    planAccounts := fun plan member => valid.planAccounts plan (List.mem_filter.mp member).1
    plansCharged := fun holds plan member =>
      valid.plansCharged holds plan (List.mem_filter.mp member).1 }

end MeteredUsage.Store.Links

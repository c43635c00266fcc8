import MeteredUsage.QuotaActions.Service

/-! What every reachable state of the service keeps: each worker's row is stored under its
own id and scope, its lease entry is its own while it has one, and the claim that writes
holds the tables its sweep made of the committed ones. -/

namespace MeteredUsage.QuotaActions.Invariant
open MeteredUsage.Values MeteredUsage.QuotaActions.Store MeteredUsage.QuotaActions.Claim
open MeteredUsage.QuotaActions.Service
open MeteredUsage.Library.Keyed MeteredUsage.Library.Execution MeteredUsage.Library.Outcome

/-- Every row of one table is a row of the next, of the same scope and boot, and the next
has no other row of a boot but the given one. -/
structure RowsKept (boot : String) (store next : Actions) : Prop where
  sequence : store.sequence ≤ next.sequence
  kept : ∀ actionId row, store.find? actionId = some row →
    ∃ later, next.find? actionId = some later ∧ later.scope = row.scope ∧ later.bootId = row.bootId
  boots : ∀ actionId later, next.find? actionId = some later → later.bootId ≠ none →
    later.bootId = some boot ∨
      ∃ row, store.find? actionId = some row ∧ row.bootId = later.bootId

theorem RowsKept.refl (boot : String) (store : Actions) : RowsKept boot store store :=
  ⟨le_rfl, fun _ row found => ⟨row, found, rfl, rfl⟩, fun _ later found _ =>
    Or.inr ⟨later, found, rfl⟩⟩

theorem RowsKept.trans {boot : String} {store middle next : Actions}
    (first : RowsKept boot store middle) (second : RowsKept boot middle next) :
    RowsKept boot store next where
  sequence := first.sequence.trans second.sequence
  kept := by
    intro actionId row found
    obtain ⟨between, found, scope, boots⟩ := first.kept actionId row found
    obtain ⟨later, found, scope', boots'⟩ := second.kept actionId between found
    exact ⟨later, found, scope'.trans scope, boots'.trans boots⟩
  boots := by
    intro actionId later found present
    rcases second.boots actionId later found present with current | ⟨between, found, same⟩
    · exact Or.inl current
    · rcases first.boots actionId between found (by rw [same]; exact present) with
        current | ⟨row, found, same'⟩
      · exact Or.inl (same ▸ current)
      · exact Or.inr ⟨row, found, same'.trans same⟩

/-- Statements that touch only other tables keep the rows. -/
theorem rowsKept_of_actions {boot : String} {store next : Actions}
    (actions : next.actions = store.actions) (sequence : next.sequence = store.sequence) :
    RowsKept boot store next := by
  have same (actionId : Nat) : next.find? actionId = store.find? actionId := by
    rw [Actions.find?, actions]
    rfl
  exact ⟨sequence.ge, fun actionId row found => ⟨row, (same actionId).trans found, rfl, rfl⟩,
    fun actionId later found _ => Or.inr ⟨later, (same actionId).symm.trans found, rfl⟩⟩

theorem rowsKept_update {boot : String} (store : Actions) {change : QuotaAction → QuotaAction}
    (same : ∀ action, (change action).actionId = action.actionId)
    (scopes : ∀ action, (change action).scope = action.scope)
    (boots : ∀ action, (change action).bootId = action.bootId) :
    RowsKept boot store (store.update change same) where
  sequence := le_rfl
  kept := by
    intro actionId row found
    refine ⟨change row, ?_, scopes row, boots row⟩
    rw [find_update, found, Option.map_some]
  boots := by
    intro actionId later found _
    rw [find_update, Option.map_eq_some_iff] at found
    obtain ⟨row, stored, rfl⟩ := found
    exact Or.inr ⟨row, stored, (boots row).symm⟩

theorem rowsKept_insert {boot : String} (store : Actions) (action : QuotaAction)
    (own : action.bootId = none ∨ action.bootId = some boot) :
    RowsKept boot store (store.insert action) where
  sequence := Nat.le_succ _
  kept := by
    intro actionId row found
    have bound := find_le_sequence found
    refine ⟨row, ?_, rfl, rfl⟩
    rw [find_insert, if_neg (by omega)]
    exact found
  boots := by
    intro actionId later found present
    rw [find_insert] at found
    split at found
    · cases found
      exact Or.inl (own.resolve_left present)
    · exact Or.inr ⟨later, found, rfl⟩

section
variable (platform : Platform)

theorem rowsKept_sweep (boot : String) (store : Actions) (abandoned : List Nat) (now : Timestamp) :
    RowsKept boot store (store.sweep platform boot abandoned now) where
  sequence := (sweep_sequence platform store boot abandoned now).ge
  kept := by
    intro actionId row found
    refine ⟨swept platform boot abandoned now row, ?_, swept_scope _ _ _ _ _, swept_bootId _ _ _ _ _⟩
    rw [find_sweep, found, Option.map_some]
  boots := by
    intro actionId later found _
    rw [find_sweep, Option.map_eq_some_iff] at found
    obtain ⟨row, stored, rfl⟩ := found
    exact Or.inr ⟨row, stored, (swept_bootId _ _ _ _ _).symm⟩

theorem rowsKept_complete {boot : String} {store next : Actions} {invocation : Invocation}
    {actionId status : Nat} {body : String} {now : Timestamp}
    (wrote : store.complete platform invocation actionId status body now = .ok next) :
    RowsKept boot store next := by
  obtain ⟨outcome, agree⟩ := complete_cases platform wrote
  refine (rowsKept_update store _ (fun action => ?_) fun action => ?_).trans
    (rowsKept_of_actions agree.actions agree.sequence) <;> split <;> rfl

theorem rowsKept_saveAfter (boot : String) (store : Actions) (actionId : Nat) (after : String) :
    RowsKept boot store (store.saveAfter actionId after) :=
  rowsKept_update store _ (fun action => by split <;> rfl)
    fun action => by split <;> rfl

theorem rowsKept_reconcile (boot : String) (store : Actions) (accountId : AccountId)
    (now : Timestamp) : RowsKept boot store (store.reconcile platform accountId now) :=
  rowsKept_update store _ (fun action => by split <;> rfl)
    fun action => by split <;> rfl

theorem rowsKept_reject {boot : String} {store next : Actions} {kind : ActionKind}
    {invocation : Invocation} {status : Nat} {body : String} {now : Timestamp}
    (wrote : store.reject platform kind invocation status body now = .ok next) :
    RowsKept boot store next := by
  obtain ⟨row, own, -, agree⟩ := reject_cases platform wrote
  exact (rowsKept_insert store row (Or.inl own)).trans
    (rowsKept_of_actions agree.actions agree.sequence)

theorem rowsKept_fresh {boot before : String} {invocation : Invocation} {kind : ActionKind}
    {store next : Actions} {actionId : Nat}
    (answered : Answers platform invocation kind before boot store (.fresh next actionId)) :
    RowsKept boot store next := by
  cases answered with
  | fresh _ joined =>
    exact (rowsKept_insert store _ (Or.inr rfl)).trans
      (rowsKept_of_actions joined.actions joined.sequence)

theorem rowsKept_reused {boot before : String} {invocation : Invocation} {kind : ActionKind}
    {store next : Actions} {saved : QuotaAction}
    (answered : Answers platform invocation kind before boot store (.reused next saved)) :
    RowsKept boot store next := by
  cases answered with
  | reused _ _ stored joined => exact rowsKept_of_actions joined.actions joined.sequence

/-- The tables a claim's sweep makes of the committed ones. -/
def Swept (system : System) (abandoned : List Nat) (store : Actions) : Prop :=
  ∃ now, store = system.store.sweep platform system.owners.boot abandoned now

/-- What the claim that writes has done so far. -/
def Provenance (system : System) (claiming : Claiming) : Prop :=
  match claiming.phase with
  | .begun => True
  | .swept abandoned store => Swept platform system abandoned store
  | .reused abandoned store saved => ∃ start, Swept platform system abandoned start ∧
      Answers platform claiming.invocation claiming.kind claiming.before system.owners.boot start
        (.reused store saved)
  | .fresh abandoned store actionId token =>
      (∃ start, Swept platform system abandoned start ∧
        Answers platform claiming.invocation claiming.kind claiming.before system.owners.boot start
          (.fresh store actionId)) ∧
      token < system.tokens ∧ (∀ worker ∈ system.workers, worker.token ≠ token) ∧
      ∀ lease ∈ system.owners.leases, lease.1 = actionId → lease.2 = token

/-- What identifies a worker, whatever it does. -/
def identity (worker : Worker) : Nat × Nat × ActionKind × Option String × Option String :=
  (worker.token, worker.actionId, worker.scope)

structure Base (system : System) : Prop where
  tokens : ∀ worker ∈ system.workers, worker.token < system.tokens
  leased : ∀ lease ∈ system.owners.leases, lease.2 < system.tokens
  distinct : Distinct Worker.token system.workers
  apart : Distinct Worker.actionId system.workers
  rows : ∀ worker ∈ system.workers, ∃ row, system.store.find? worker.actionId = some row ∧
    row.scope = worker.scope ∧ row.bootId = some system.owners.boot
  upheld : ∀ worker ∈ system.workers, ∀ lease ∈ system.owners.leases,
    lease.1 = worker.actionId → lease.2 = worker.token
  boots : ∀ actionId row, system.store.find? actionId = some row →
    ∀ boot, row.bootId = some boot → boot ∈ system.history.boots
  current : system.owners.boot ∈ system.history.boots
  writing : ∀ claiming ∈ system.writer, Provenance platform system claiming

theorem base_initial (boot : String) : Base platform (System.initial boot) where
  tokens := by simp [System.initial]
  leased := by simp [System.initial, ActionOwners.new]
  distinct := List.Pairwise.nil
  apart := List.Pairwise.nil
  rows := by simp [System.initial]
  upheld := by simp [System.initial]
  boots := by simp [System.initial, Actions.empty, Actions.find?, lookup]
  current := by simp [System.initial, ActionOwners.new]
  writing := by simp [System.initial]

variable {platform}

/-- Each worker of the next state is one of the given states's, in their order. -/
def Narrows (workers next : List Worker) : Prop :=
  (next.map identity).Sublist (workers.map identity)

theorem Narrows.mem {workers next : List Worker} (narrows : Narrows workers next) {worker : Worker}
    (member : worker ∈ next) : ∃ old ∈ workers, identity old = identity worker :=
  List.mem_map.mp (narrows.subset (List.mem_map_of_mem member))

theorem Narrows.distinct {Key : Type*} {key : Worker → Key} {workers next : List Worker}
    (narrows : Narrows workers next)
    (same : ∀ first second, identity first = identity second → key first = key second)
    (distinct : Distinct key workers) : Distinct key next := by
  have apart : (workers.map identity).Pairwise fun first second =>
      ∀ left right, identity left = first → identity right = second → key left ≠ key right := by
    refine List.pairwise_map.mpr (distinct.imp fun {first second} differs => ?_)
    intro left right left' right' equal
    exact differs ((same _ _ left').symm.trans (equal.trans (same _ _ right')))
  exact (List.pairwise_map.mp (apart.sublist narrows)).imp
    fun {first second} differs => differs first second rfl rfl

theorem narrows_become (system : System) (token : Nat) (phase : WorkerPhase) :
    Narrows system.workers (system.become token phase) := by
  have same : (system.become token phase).map identity = system.workers.map identity := by
    rw [System.become, List.map_map]
    refine List.map_congr_left fun worker _ => ?_
    simp only [Function.comp_apply]
    split <;> rfl
  rw [Narrows, same]

theorem narrows_filter (workers : List Worker) (kept : Worker → Bool) :
    Narrows workers (workers.filter kept) := List.filter_sublist.map identity

/-- A step that adds no worker, lease or boot keeps the base invariant. -/
theorem Base.narrow {system next : System} (base : Base platform system)
    (workers : Narrows system.workers next.workers)
    (leases : ∀ lease ∈ next.owners.leases, lease ∈ system.owners.leases)
    (boot : next.owners.boot = system.owners.boot)
    (store : RowsKept system.owners.boot system.store next.store)
    (tokens : next.tokens = system.tokens) (boots : next.history.boots = system.history.boots)
    (writing : ∀ claiming ∈ next.writer, Provenance platform next claiming) :
    Base platform next where
  tokens := by
    intro worker member
    obtain ⟨old, stored, same⟩ := workers.mem member
    have bound := base.tokens old stored
    rw [tokens, ← (Prod.mk.inj same).1]
    exact bound
  leased := fun lease member => tokens ▸ base.leased lease (leases lease member)
  distinct := workers.distinct (fun _ _ same => (Prod.mk.inj same).1) base.distinct
  apart := workers.distinct (fun _ _ same => (Prod.mk.inj (Prod.mk.inj same).2).1) base.apart
  rows := by
    intro worker member
    obtain ⟨old, stored, same⟩ := workers.mem member
    obtain ⟨row, found, scope, current⟩ := base.rows old stored
    obtain ⟨later, found, scope', current'⟩ := store.kept _ row found
    obtain ⟨-, named⟩ := Prod.mk.inj same
    obtain ⟨named, scopes⟩ := Prod.mk.inj named
    exact ⟨later, named ▸ found, scope'.trans (scope.trans scopes), boot ▸ current'.trans current⟩
  upheld := by
    intro worker member lease held names
    obtain ⟨old, stored, same⟩ := workers.mem member
    obtain ⟨token, named⟩ := Prod.mk.inj same
    rw [base.upheld old stored lease (leases lease held) (names.trans (Prod.mk.inj named).1.symm)]
    exact token
  boots := by
    intro actionId later found boot' current
    rw [boots]
    rcases store.boots actionId later found (by simp [current]) with own | ⟨row, stored, same⟩
    · rw [current] at own
      exact Option.some.inj own ▸ base.current
    · exact base.boots actionId row stored boot' (same.trans current)
  current := by
    rw [boot, boots]
    exact base.current
  writing := writing

/-- What a claim has done so far stands while nobody else writes. -/
theorem Provenance.narrow {system next : System} {claiming : Claiming}
    (done : Provenance platform system claiming) (store : next.store = system.store)
    (workers : Narrows system.workers next.workers)
    (leases : ∀ lease ∈ next.owners.leases, lease ∈ system.owners.leases)
    (boot : next.owners.boot = system.owners.boot) (tokens : next.tokens = system.tokens) :
    Provenance platform next claiming := by
  have swept {abandoned : List Nat} {start : Actions}
      (made : Swept platform system abandoned start) : Swept platform next abandoned start := by
    obtain ⟨now, rfl⟩ := made
    exact ⟨now, by rw [store, boot]⟩
  simp only [Provenance] at done ⊢
  split at done
  · trivial
  · exact swept done
  · obtain ⟨start, made, answered⟩ := done
    exact ⟨start, swept made, boot ▸ answered⟩
  · obtain ⟨⟨start, made, answered⟩, bound, apart, own⟩ := done
    refine ⟨⟨start, swept made, boot ▸ answered⟩, tokens ▸ bound, fun worker member => ?_,
      fun lease member => own lease (leases lease member)⟩
    obtain ⟨old, stored, same⟩ := workers.mem member
    rw [← (Prod.mk.inj same).1]
    exact apart old stored

theorem mem_forget {owners : ActionOwners} {ids : List Nat} {lease : Nat × Nat} :
    lease ∈ (owners.forget ids).leases ↔ lease ∈ owners.leases ∧ lease.1 ∉ ids := by
  simp [ActionOwners.forget]

theorem mem_claim {owners : ActionOwners} {actionId token : Nat} {lease : Nat × Nat} :
    lease ∈ (owners.claim actionId token).leases ↔
      lease ∈ owners.leases ∧ lease.1 ≠ actionId ∨ lease = (actionId, token) := by
  simp [ActionOwners.claim]

theorem mem_abandoned {owners : ActionOwners} {live : List Nat} {actionId : Nat} :
    actionId ∈ owners.abandoned live ↔ ∃ token, (actionId, token) ∈ owners.leases ∧ token ∉ live := by
  simp [ActionOwners.abandoned]

/-- A fresh claim's id is above every committed one. -/
theorem fresh_above {system : System} {abandoned : List Nat} {start next : Actions}
    {claiming : Claiming} {actionId : Nat} (made : Swept platform system abandoned start)
    (answered : Answers platform claiming.invocation claiming.kind claiming.before
      system.owners.boot start (.fresh next actionId)) :
    actionId = system.store.sequence + 1 := by
  obtain ⟨now, rfl⟩ := made
  cases answered with
  | fresh _ _ _ _ => rw [sweep_sequence]

theorem base_commit {system next : System} {claiming : Claiming} (base : Base platform system)
    (writes : system.writer = some claiming) (commits : commit system claiming = some next) :
    Base platform next := by
  have done := base.writing claiming writes
  simp only [commit] at commits
  simp only [Provenance] at done
  split at commits
  · rename_i abandoned store saved phase
    cases commits
    rw [phase] at done
    obtain ⟨start, ⟨now, rfl⟩, answered⟩ := done
    exact base.narrow (List.Sublist.refl _) (fun _ member => member) rfl
      ((rowsKept_sweep platform _ _ _ _).trans (rowsKept_reused platform answered)) rfl rfl (by simp)
  · rename_i abandoned store actionId token phase
    cases commits
    rw [phase] at done
    obtain ⟨⟨start, made, answered⟩, bound, unused, own⟩ := done
    have above := fresh_above made answered
    obtain ⟨now, rfl⟩ := made
    have kept := (rowsKept_sweep platform system.owners.boot system.store abandoned now).trans
      (rowsKept_fresh platform answered)
    have narrowed : Base platform { system with store := store, writer := none } :=
      base.narrow (List.Sublist.refl _) (fun _ member => member) rfl kept rfl rfl (by simp)
    have stored : ∃ row, store.find? actionId = some row ∧
        row.scope = claiming.invocation.scope claiming.kind ∧
          row.bootId = some system.owners.boot :=
      ⟨_, (find_fresh platform answered actionId).trans (if_pos rfl), rfl, rfl⟩
    have absent (worker : Worker) (member : worker ∈ system.workers) : worker.actionId ≠ actionId := by
      obtain ⟨row, found, -⟩ := base.rows worker member
      have bound := find_le_sequence found
      omega
    exact {
      tokens := by
        intro worker member
        rcases List.mem_append.mp member with old | new
        · exact base.tokens worker old
        · rw [List.mem_singleton.mp new]
          exact bound
      leased := base.leased
      distinct := base.distinct.append_singleton unused
      apart := base.apart.append_singleton absent
      rows := by
        intro worker member
        rcases List.mem_append.mp member with old | new
        · exact narrowed.rows worker old
        · rw [List.mem_singleton.mp new]
          exact stored
      upheld := by
        intro worker member lease held names
        rcases List.mem_append.mp member with old | new
        · exact base.upheld worker old lease held names
        · rw [List.mem_singleton.mp new] at names ⊢
          exact own lease held names
      boots := narrowed.boots
      current := base.current
      writing := by simp }
  · cases commits

theorem base_step {system next : System} {event : Event} (base : Base platform system)
    (taken : step platform system event = some next) : Base platform next := by
  have same (workers : List Worker) : Narrows workers workers := List.Sublist.refl _
  cases stepped_of_step platform taken with
  | begin invocation kind before free =>
    refine base.narrow (same _) (fun _ member => member) rfl (RowsKept.refl _ _) rfl rfl ?_
    rintro claiming ⟨⟩
    trivial
  | sweep claiming now writes phase =>
    refine base.narrow (same _) (fun _ member => member) rfl (RowsKept.refl _ _) rfl rfl ?_
    rintro claiming ⟨⟩
    exact ⟨now, rfl⟩
  | failed now | conflict claiming now | rollback =>
    exact base.narrow (same _) (fun _ member => member) rfl (RowsKept.refl _ _) rfl rfl (by simp)
  | reused claiming now abandoned store reused saved writes phase answered =>
    have done := base.writing claiming writes
    simp only [Provenance, phase] at done
    refine base.narrow (same _) (fun _ member => member) rfl (RowsKept.refl _ _) rfl rfl ?_
    rintro claiming ⟨⟩
    exact ⟨store, done, answered⟩
  | fresh claiming now abandoned store fresh actionId writes phase answered =>
    have done := base.writing claiming writes
    simp only [Provenance, phase] at done
    have above := fresh_above done answered
    exact {
      tokens := fun worker member => Nat.lt_succ_of_lt (base.tokens worker member)
      leased := by
        intro lease member
        rcases mem_claim.mp member with ⟨old, -⟩ | rfl
        · exact Nat.lt_succ_of_lt (base.leased lease old)
        · exact Nat.lt_succ_self _
      distinct := base.distinct
      apart := base.apart
      rows := base.rows
      upheld := by
        intro worker member lease held names
        rcases mem_claim.mp held with ⟨old, -⟩ | rfl
        · exact base.upheld worker member lease old names
        · obtain ⟨row, found, -⟩ := base.rows worker member
          have bound := find_le_sequence found
          dsimp only at names
          omega
      boots := base.boots
      current := base.current
      writing := by
        rintro claiming ⟨⟩
        refine ⟨⟨store, done, answered⟩, Nat.lt_succ_self _,
          fun worker member => (base.tokens worker member).ne, fun lease member named => ?_⟩
        rcases mem_claim.mp member with ⟨-, other⟩ | rfl
        · exact absurd named other
        · rfl }
  | commit claiming _ writes commits => exact base_commit base writes commits
  | forget turn ids waits =>
    have fewer : ∀ lease ∈ (system.owners.forget ids).leases, lease ∈ system.owners.leases :=
      fun lease member => (mem_forget.mp member).1
    exact base.narrow (same _) fewer rfl (RowsKept.refl _ _) rfl rfl fun claiming writes =>
      (base.writing claiming writes).narrow rfl (same _) fewer rfl rfl
  | settle worker abandoned member phase =>
    have fewer : ∀ lease ∈ (system.owners.forget abandoned).leases, lease ∈ system.owners.leases :=
      fun lease member => (mem_forget.mp member).1
    have narrows := narrows_become system worker.token .queued
    exact base.narrow narrows fewer rfl (RowsKept.refl _ _) rfl rfl fun claiming writes =>
      (base.writing claiming writes).narrow rfl narrows fewer rfl rfl
  | acquire worker member phase | lost worker status body now persisted member phase
  | release worker member phase =>
    have narrows := narrows_become system worker.token
    exact base.narrow (narrows _) (fun _ member => member) rfl (RowsKept.refl _ _) rfl rfl
      fun claiming writes =>
        (base.writing claiming writes).narrow rfl (narrows _) (fun _ member => member) rfl rfl
  | completed worker status body now store member phase free wrote =>
    exact base.narrow (narrows_become _ _ _) (fun _ member => member) rfl
      (rowsKept_complete platform wrote) rfl rfl (by simp [free])
  | saveAfter worker after member free =>
    exact base.narrow (same _) (fun _ member => member) rfl (rowsKept_saveAfter _ _ _ _) rfl rfl
      (by simp [free])
  | drop token =>
    have narrows := narrows_filter system.workers fun other => other.token ≠ token
    exact base.narrow narrows (fun _ member => member) rfl (RowsKept.refl _ _) rfl rfl
      fun claiming writes =>
        (base.writing claiming writes).narrow rfl narrows (fun _ member => member) rfl rfl
  | reconcile worker accountId now member free =>
    exact base.narrow (same _) (fun _ member => member) rfl (rowsKept_reconcile _ _ _ _ _) rfl rfl
      (by simp [free])
  | reject kind invocation status body now store free wrote =>
    exact base.narrow (same _) (fun _ member => member) rfl (rowsKept_reject platform wrote) rfl rfl
      (by simp [free])
  | unrejected => exact base
  | restart boot unused =>
    exact {
      tokens := by simp
      leased := by simp [ActionOwners.new]
      distinct := List.Pairwise.nil
      apart := List.Pairwise.nil
      rows := by simp
      upheld := by simp
      boots := fun actionId row found boot' current =>
        List.mem_cons_of_mem _ (base.boots actionId row found boot' current)
      current := by simp [ActionOwners.new]
      writing := by simp }

end

end MeteredUsage.QuotaActions.Invariant

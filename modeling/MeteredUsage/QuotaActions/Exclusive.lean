import MeteredUsage.QuotaActions.Invariant

/-! One worker for one provider action, and the two ways the service breaks it: a hard
refresh that closes the row of a reset still waiting to run, and a claim let in between a
worker's completion and the drop of its lease. -/

namespace MeteredUsage.QuotaActions.Exclusive
open MeteredUsage.Values MeteredUsage.QuotaActions.Store MeteredUsage.QuotaActions.Claim
open MeteredUsage.QuotaActions.Service MeteredUsage.QuotaActions.Invariant
open MeteredUsage.Library.Keyed MeteredUsage.Library.Execution

/-- The action's row is stored and unfinished. -/
def Unfinished (store : Actions) (actionId : Nat) : Prop :=
  ∃ row, store.find? actionId = some row ∧ row.finishedAt = none

/-- No two live workers have one kind, account and source, and the row of each stays
unfinished until its own `complete`. -/
structure OneWorker (system : System) : Prop where
  alone : Distinct Worker.scope system.workers
  unfinished : ∀ worker ∈ system.workers, worker.done = false →
    Unfinished system.store worker.actionId

/-- No hard refresh reconciles an account while a reset of it is live and not completed,
and no fresh claim commits while a completed worker of its scope still holds its lease. -/
def Undisturbed (system : System) : Event → Prop
  | .reconcile _ accountId _ => ∀ worker ∈ system.workers, worker.kind = .quotaReset →
      worker.invocation.accountId = some (encode accountId) → worker.done = true
  | .commit => ∀ claiming ∈ system.writer, ∀ abandoned store actionId token,
      claiming.phase = .fresh abandoned store actionId token →
        ∀ worker ∈ system.workers, worker.done = true →
          worker.scope ≠ claiming.invocation.scope claiming.kind
  | _ => True

section
variable {platform : Platform}

variable (platform) in
structure Invariant (system : System) : Prop where
  base : Base platform system
  one : OneWorker system
  spared : ∀ claiming ∈ system.writer, ∀ abandoned ∈ claiming.phase.abandoned,
    ∀ worker ∈ system.workers, worker.actionId ∉ abandoned

theorem unfinished_of_actions {store next : Actions} (actions : next.actions = store.actions)
    {actionId : Nat} (held : Unfinished store actionId) : Unfinished next actionId := by
  obtain ⟨row, found, open_⟩ := held
  exact ⟨row, by rw [Actions.find?, actions]; exact found, open_⟩

theorem unfinished_map {store next : Actions} {change : QuotaAction → QuotaAction} {actionId : Nat}
    (mapped : next.find? actionId = (store.find? actionId).map change)
    (held : Unfinished store actionId)
    (kept : ∀ row, store.find? actionId = some row → row.finishedAt = none →
      (change row).finishedAt = none) : Unfinished next actionId := by
  obtain ⟨row, found, open_⟩ := held
  refine ⟨change row, ?_, kept row found open_⟩
  rw [mapped, found, Option.map_some]

theorem unfinished_insert {store : Actions} (action : QuotaAction) {actionId : Nat}
    (held : Unfinished store actionId) : Unfinished (store.insert action) actionId := by
  obtain ⟨row, found, open_⟩ := held
  have bound := find_le_sequence found
  refine ⟨row, ?_, open_⟩
  rw [find_insert, if_neg (by omega)]
  exact found

/-- The sweep leaves a live worker's row open. -/
theorem unfinished_swept {system : System} (base : Base platform system) {worker : Worker}
    (member : worker ∈ system.workers) {abandoned : List Nat} {start : Actions}
    (made : Swept platform system abandoned start) (spared : worker.actionId ∉ abandoned)
    (held : Unfinished system.store worker.actionId) :
    ∃ row, start.find? worker.actionId = some row ∧ row.finishedAt = none ∧
      row.scope = worker.scope := by
  obtain ⟨now, rfl⟩ := made
  obtain ⟨row, found, open_⟩ := held
  obtain ⟨other, same, scope, current⟩ := base.rows worker member
  rw [found] at same
  cases same
  have alive : row.actionId ∉ abandoned := (find_eq_some.mp found).2 ▸ spared
  refine ⟨row, ?_, open_, scope⟩
  rw [find_sweep, found, Option.map_some, swept_kept platform now current alive]

/-- Where each worker goes on from one of the state before, the property goes on too. -/
theorem OneWorker.narrow {system next : System} (one : OneWorker system)
    (narrows : Narrows system.workers next.workers)
    (undone : ∀ worker ∈ next.workers, worker.done = false →
      ∃ old ∈ system.workers, old.actionId = worker.actionId ∧ old.done = false)
    (store : ∀ worker ∈ next.workers, worker.done = false →
      Unfinished system.store worker.actionId → Unfinished next.store worker.actionId) :
    OneWorker next where
  alone := narrows.distinct
    (fun _ _ same => (Prod.mk.inj (Prod.mk.inj same).2).2) one.alone
  unfinished := by
    intro worker member running
    obtain ⟨old, stored, same, before⟩ := undone worker member running
    exact store worker member running (same ▸ one.unfinished old stored before)

theorem undone_same {workers : List Worker} : ∀ worker ∈ workers, worker.done = false →
    ∃ old ∈ workers, old.actionId = worker.actionId ∧ old.done = false :=
  fun worker member running => ⟨worker, member, rfl, running⟩

theorem undone_become {system : System} (distinct : Distinct Worker.token system.workers)
    {worker : Worker} (stored : worker ∈ system.workers) (before : worker.done = false)
    (phase : WorkerPhase) : ∀ other ∈ system.become worker.token phase, other.done = false →
      ∃ old ∈ system.workers, old.actionId = other.actionId ∧ old.done = false := by
  intro other member running
  obtain ⟨old, old_, rfl⟩ := List.mem_map.mp member
  split at running
  · rename_i same
    rw [distinct.eq_of_key old_ stored same] at running ⊢
    exact ⟨worker, stored, by simp, before⟩
  · rename_i other_
    exact ⟨old, old_, by simp [other_], running⟩

/-- Only a worker that is not the one that became done is still to complete. -/
theorem undone_finished {system : System} {token : Nat} {phase : WorkerPhase}
    (done : phase = .completed ∨ phase = .released) :
    ∀ other ∈ system.become token phase, other.done = false →
      other ∈ system.workers ∧ other.token ≠ token := by
  intro other member running
  obtain ⟨old, stored, rfl⟩ := List.mem_map.mp member
  by_cases same : old.token = token
  · rcases done with rfl | rfl <;> simp [same, Worker.done] at running
  · simp only [if_neg same]
    exact ⟨stored, same⟩

/-- A claim is fresh only where no live worker of its scope is still to complete. -/
theorem fresh_alone {system : System} (held : Invariant platform system) {claiming : Claiming}
    (writes : system.writer = some claiming) {abandoned : List Nat} {store : Actions}
    {actionId token : Nat} (phase : claiming.phase = .fresh abandoned store actionId token)
    {worker : Worker} (member : worker ∈ system.workers) (running : worker.done = false) :
    worker.scope ≠ claiming.invocation.scope claiming.kind := by
  have done := held.base.writing claiming writes
  have spared := held.spared claiming writes abandoned (by rw [phase]; rfl) worker member
  simp only [Provenance, phase] at done
  obtain ⟨⟨start, made, answered⟩, -⟩ := done
  obtain ⟨row, stored, open_, scope⟩ := unfinished_swept held.base member made spared
    (held.one.unfinished worker member running)
  cases answered with
  | fresh _ joined free alone => exact scope ▸ alone _ row stored open_

theorem one_commit {system next : System} (held : Invariant platform system) {claiming : Claiming}
    (writes : system.writer = some claiming) (admitted : Undisturbed system .commit)
    (commits : commit system claiming = some next) : OneWorker next := by
  have done := held.base.writing claiming writes
  simp only [commit] at commits
  simp only [Provenance] at done
  split at commits
  · rename_i abandoned store saved phase
    cases commits
    have spared := held.spared claiming writes abandoned (by rw [phase]; rfl)
    rw [phase] at done
    obtain ⟨start, made, answered⟩ := done
    refine held.one.narrow (List.Sublist.refl _) undone_same fun worker member _ open_ => ?_
    obtain ⟨row, stored, unfinished, -⟩ :=
      unfinished_swept held.base member made (spared worker member) open_
    cases answered with
    | reused _ _ _ joined => exact unfinished_of_actions joined.actions ⟨row, stored, unfinished⟩
  · rename_i abandoned store actionId token phase
    cases commits
    have apart : ∀ worker ∈ system.workers,
        worker.scope ≠ claiming.invocation.scope claiming.kind := by
      intro worker member
      cases finished : worker.done with
      | true => exact admitted claiming writes _ _ _ _ phase worker member finished
      | false => exact fresh_alone held writes phase member finished
    have spared := held.spared claiming writes abandoned (by rw [phase]; rfl)
    rw [phase] at done
    obtain ⟨⟨start, made, answered⟩, -⟩ := done
    refine ⟨held.one.alone.append_singleton apart, fun worker member running => ?_⟩
    rcases List.mem_append.mp member with old | new
    · obtain ⟨row, stored, unfinished, -⟩ := unfinished_swept held.base old made
        (spared worker old) (held.one.unfinished worker old running)
      cases answered with
      | fresh _ joined =>
        exact unfinished_of_actions joined.actions (unfinished_insert _ ⟨row, stored, unfinished⟩)
    · rw [List.mem_singleton.mp new]
      exact ⟨_, (find_fresh platform answered actionId).trans (if_pos rfl), rfl⟩
  · cases commits

theorem one_step {system next : System} {event : Event} (held : Invariant platform system)
    (admitted : Undisturbed system event) (taken : step platform system event = some next) :
    OneWorker next := by
  have distinct := held.base.distinct
  cases stepped_of_step platform taken with
  | begin | sweep | failed | conflict | reused | fresh | rollback | forget | unrejected =>
    exact ⟨held.one.alone, held.one.unfinished⟩
  | commit claiming _ writes commits => exact one_commit held writes admitted commits
  | settle worker abandoned member phase =>
    exact held.one.narrow (narrows_become _ _ _)
      (undone_become distinct member (by simp [Worker.done, phase]) _) fun _ _ _ open_ => open_
  | acquire worker member phase =>
    exact held.one.narrow (narrows_become _ _ _)
      (undone_become distinct member (by simp [Worker.done, phase]) _) fun _ _ _ open_ => open_
  | lost worker status body now persisted member phase =>
    refine held.one.narrow (narrows_become _ _ _) (fun other kept running => ?_) fun _ _ _ open_ => open_
    obtain ⟨stored, -⟩ := undone_finished (Or.inl rfl) other kept running
    exact ⟨other, stored, rfl, running⟩
  | release worker member phase =>
    refine held.one.narrow (narrows_become _ _ _) (fun other kept running => ?_) fun _ _ _ open_ => open_
    obtain ⟨stored, -⟩ := undone_finished (Or.inr rfl) other kept running
    exact ⟨other, stored, rfl, running⟩
  | completed worker status body now store member phase free wrote =>
    obtain ⟨outcome, agree⟩ := complete_cases platform wrote
    refine held.one.narrow (narrows_become _ _ _) (fun other kept running => ?_)
      fun other kept running open_ => ?_
    · obtain ⟨stored, -⟩ := undone_finished (Or.inl rfl) other kept running
      exact ⟨other, stored, rfl, running⟩
    · obtain ⟨stored, apart⟩ := undone_finished (Or.inl rfl) other kept running
      refine unfinished_of_actions agree.actions
        (unfinished_map (find_finish platform _ _ _ _ _ _ _) open_ fun row found open_ => ?_)
      have named := (find_eq_some.mp found).2
      have differs : row.actionId ≠ worker.actionId := fun same =>
        apart (congrArg Worker.token (held.base.apart.eq_of_key stored member (named.symm.trans same)))
      rw [if_neg differs]
      exact open_
  | saveAfter worker after member free =>
    refine held.one.narrow (List.Sublist.refl _) undone_same fun _ _ _ open_ =>
      unfinished_map (find_saveAfter _ _ _ _) open_ fun row _ open_ => ?_
    split <;> exact open_
  | drop token =>
    refine held.one.narrow (narrows_filter _ _) (fun worker member running => ?_)
      fun _ _ _ open_ => open_
    exact ⟨worker, List.mem_of_mem_filter member, rfl, running⟩
  | reconcile worker accountId now member free =>
    refine ⟨held.one.alone, fun other kept running => ?_⟩
    obtain ⟨row, stored, scope, -⟩ := held.base.rows other kept
    refine unfinished_map (find_reconcile platform _ _ _ _) (held.one.unfinished other kept running)
      fun same found open_ => ?_
    rw [stored] at found
    cases found
    obtain ⟨kind, accounts⟩ := Prod.mk.inj scope
    split
    · rename_i selected
      simp only [Bool.and_eq_true, decide_eq_true_eq] at selected
      have disturbed := admitted other kept (kind.symm.trans selected.1.1)
        ((Prod.mk.inj accounts).1.symm.trans selected.1.2)
      rw [running] at disturbed
      cases disturbed
    · exact open_
  | reject kind invocation status body now store free wrote =>
    obtain ⟨row, -, -, agree⟩ := reject_cases platform wrote
    exact held.one.narrow (List.Sublist.refl _) undone_same fun _ _ _ open_ =>
      unfinished_of_actions agree.actions (unfinished_insert row open_)
  | restart boot unused => exact ⟨List.Pairwise.nil, by simp⟩

/-- The ids of live workers stay out of what a claim found abandoned. -/
theorem spared_step {system next : System} {event : Event} (held : Invariant platform system)
    (taken : step platform system event = some next) :
    ∀ claiming ∈ next.writer, ∀ abandoned ∈ claiming.phase.abandoned,
      ∀ worker ∈ next.workers, worker.actionId ∉ abandoned := by
  have narrowed {workers : List Worker} (narrows : Narrows system.workers workers) :
      ∀ claiming ∈ system.writer, ∀ abandoned ∈ claiming.phase.abandoned,
        ∀ worker ∈ workers, worker.actionId ∉ abandoned := by
    intro claiming writes abandoned ids worker member
    obtain ⟨old, stored, same⟩ := narrows.mem member
    rw [← (Prod.mk.inj (Prod.mk.inj same).2).1]
    exact held.spared claiming writes abandoned ids old stored
  cases stepped_of_step platform taken with
  | begin =>
    rintro claiming ⟨⟩ abandoned ⟨⟩
  | sweep claiming now writes phase =>
    rintro claiming ⟨⟩ abandoned ⟨⟩ worker member dead
    obtain ⟨token, leased, gone⟩ := mem_abandoned.mp dead
    have own : token = worker.token := held.base.upheld worker member _ leased rfl
    rw [own] at gone
    exact gone (List.mem_map_of_mem member)
  | reused claiming now abandoned store reused saved writes phase
  | fresh claiming now abandoned store fresh actionId writes phase =>
    rintro claiming ⟨⟩ abandoned ⟨⟩
    exact held.spared claiming writes abandoned (by rw [phase]; rfl)
  | failed | conflict | rollback | restart => simp
  | commit claiming _ writes commits =>
    simp only [commit] at commits
    split at commits <;> cases commits <;> simp
  | settle | acquire | lost | release => exact narrowed (narrows_become _ _ _)
  | drop => exact narrowed (narrows_filter _ _)
  | completed | saveAfter | reconcile | reject => simp [*]
  | forget | unrejected => exact held.spared

theorem invariant_step {system next : System} {event : Event} (held : Invariant platform system)
    (admitted : Undisturbed system event) (taken : step platform system event = some next) :
    Invariant platform next :=
  ⟨base_step held.base taken, one_step held admitted taken, spared_step held taken⟩

theorem invariant_initial (boot : String) : Invariant platform (System.initial boot) where
  base := base_initial platform boot
  one := ⟨List.Pairwise.nil, by simp [System.initial]⟩
  spared := by simp [System.initial]

theorem undisturbed_of_one {system next : System} {event : Event} (held : Invariant platform system)
    (taken : step platform system event = some next) (one : OneWorker next) :
    Undisturbed system event := by
  cases stepped_of_step platform taken with
  | reconcile worker accountId now member free =>
    intro other kept kind account
    by_contra running
    have running : other.done = false := by simpa using running
    obtain ⟨row, stored, scope, -⟩ := held.base.rows other kept
    obtain ⟨found, later, open_⟩ := one.unfinished other kept running
    rw [find_reconcile, stored, Option.map_some] at later
    cases later
    obtain ⟨kinds, accounts⟩ := Prod.mk.inj scope
    have selected : row.kind = .quotaReset ∧ row.accountId = some (encode accountId) :=
      ⟨kinds.trans kind, (Prod.mk.inj accounts).1.trans account⟩
    cases finished : row.finishedAt with
    | none => simp [selected, finished, QuotaAction.reconciled] at open_
    | some at_ => simp [finished] at open_
  | commit claiming _ writes commits =>
    intro other same abandoned store actionId token phase worker member finished
    rw [writes] at same
    cases same
    simp only [commit, phase] at commits
    cases commits
    obtain ⟨-, -, apart⟩ := List.pairwise_append.mp one.alone
    exact apart worker member _ (List.mem_singleton_self _)
  | _ => trivial

/-- There is one worker for each action throughout a run exactly when every step of it is
undisturbed. -/
theorem always_one_worker_iff (platform : Platform) (boot : String) (events : List Event) :
    Always (step platform) OneWorker (System.initial boot) events ↔
      Meets (step platform) Undisturbed (System.initial boot) events :=
  always_iff_meets (fun _ held => Invariant.one held)
    (fun _ _ _ held admitted taken => invariant_step held admitted taken)
    (fun _ _ _ held taken one => undisturbed_of_one held taken one) (invariant_initial boot) events

end

/-- A bulk hard refresh is running when a reset of account 7 is claimed, reconciles that
account while the reset waits for the family lock, and the next claim of it is fresh. -/
def twoResets : List Event :=
  claimed none .hardRefresh none ++ [.settle 0, .acquire 0] ++
    claimed (some (encode 7)) .quotaReset none ++ [.settle 1, .reconcile 0 7 (seconds 60)] ++
      claimed (some (encode 7)) .quotaReset none

theorem two_live_resets :
    ∃ finish, run (step firstMinute) (System.initial "5c0ffee05c0ffee05c0ffee05c0ffee0") twoResets =
      some finish ∧ ¬OneWorker finish := by
  have scopes : (run (step firstMinute) (System.initial "5c0ffee05c0ffee05c0ffee05c0ffee0")
      twoResets).map (fun finish => finish.workers.map Worker.scope) =
      some [(.hardRefresh, none, none), (.quotaReset, some "00000000007", none),
        (.quotaReset, some "00000000007", none)] := by
    decide
  obtain ⟨finish, reached, scopes⟩ := Option.map_eq_some_iff.mp scopes
  refine ⟨finish, reached, fun one => ?_⟩
  have apart := List.pairwise_map.mpr one.alone
  rw [scopes] at apart
  exact absurd apart (by decide)

end MeteredUsage.QuotaActions.Exclusive

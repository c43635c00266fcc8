import MeteredUsage.QuotaActions.Invariant

/-! No orphaned action: each unfinished action of the boot keeps the lease entry of its own
worker, so the next claim can tell whether anybody still runs it. An id that a rolled-back
claim left in the map and a later one is handed again is where the service loses it. -/

namespace MeteredUsage.QuotaActions.Ownership
open MeteredUsage.Values MeteredUsage.QuotaActions.Store MeteredUsage.QuotaActions.Claim
open MeteredUsage.QuotaActions.Service MeteredUsage.QuotaActions.Invariant
open MeteredUsage.Library.Keyed MeteredUsage.Library.Execution

/-- Every unfinished action of the boot has the entry granted to its own worker, and no
committed claim left one of an earlier boot or of a worker dead when it took the lock. -/
structure Owned (system : System) : Prop where
  entry : ∀ actionId row, system.store.find? actionId = some row → row.finishedAt = none →
    row.bootId = some system.owners.boot → ∃ token, (actionId, token) ∈ system.owners.leases ∧
      (actionId, token) ∈ system.history.granted
  own : Distinct Prod.fst system.history.granted
  clean : ∀ claim ∈ system.history.committed, ∀ row ∈ claim.unfinished,
    row.bootId = some claim.boot ∧
      ∃ token ∈ claim.live, (row.actionId, token) ∈ system.history.granted

def Worker.forgets (worker : Worker) : List Nat :=
  match worker.phase with
  | .claimed abandoned => abandoned
  | _ => []

/-- The ids that committed claims found abandoned and have still to forget. -/
def marked (system : System) : List Nat :=
  system.forgetting.flatten ++ system.workers.flatMap Worker.forgets

/-- The id of a fresh claim that commits is none that it or an earlier claim found abandoned
and has still to forget, nor has its lease been forgotten since it was inserted. -/
def Unmarked (system : System) : Event → Prop
  | .commit => ∀ claiming ∈ system.writer, ∀ abandoned store actionId token,
      claiming.phase = .fresh abandoned store actionId token →
        actionId ∉ abandoned ∧ actionId ∉ marked system ∧
          (actionId, token) ∈ system.owners.leases
  | _ => True

section
variable {platform : Platform}

variable (platform) in
structure Invariant (system : System) : Prop where
  base : Base platform system
  owned : Owned system
  granted : ∀ grant ∈ system.history.granted, grant.1 ≤ system.store.sequence
  unmarked : ∀ actionId row, system.store.find? actionId = some row → row.finishedAt = none →
    row.bootId = some system.owners.boot → actionId ∉ marked system
  live : ∀ claiming ∈ system.writer, ∀ worker ∈ system.workers, worker.token ∈ claiming.live
  upheld : ∀ claiming ∈ system.writer, ∀ abandoned ∈ claiming.phase.abandoned,
    ∀ actionId row, system.store.find? actionId = some row → row.finishedAt = none →
      row.bootId = some system.owners.boot → actionId ∉ abandoned →
        ∃ token ∈ claiming.live, (actionId, token) ∈ system.history.granted

/-- Each unfinished row of the next tables was one of these. -/
def Shrinks (store next : Actions) : Prop :=
  ∀ actionId row, next.find? actionId = some row → row.finishedAt = none →
    ∃ old, store.find? actionId = some old ∧ old.finishedAt = none ∧ old.bootId = row.bootId

theorem shrinks_refl (store : Actions) : Shrinks store store :=
  fun _ row found open_ => ⟨row, found, open_, rfl⟩

theorem shrinks_map {store next : Actions} {change : QuotaAction → QuotaAction}
    (mapped : ∀ actionId, next.find? actionId = (store.find? actionId).map change)
    (closes : ∀ row, (change row).finishedAt = none →
      row.finishedAt = none ∧ row.bootId = (change row).bootId) : Shrinks store next := by
  intro actionId row found open_
  rw [mapped, Option.map_eq_some_iff] at found
  obtain ⟨old, stored, rfl⟩ := found
  exact ⟨old, stored, closes old open_⟩

theorem find_of_actions {store next : Actions} (actions : next.actions = store.actions)
    (actionId : Nat) : next.find? actionId = store.find? actionId := by
  rw [Actions.find?, actions]
  rfl

theorem shrinks_reject {store next : Actions} {kind : ActionKind} {invocation : Invocation}
    {status : Nat} {body : String} {now : Timestamp}
    (wrote : store.reject platform kind invocation status body now = .ok next) :
    Shrinks store next := by
  obtain ⟨inserted, -, finished, agree⟩ := reject_cases platform wrote
  intro actionId row found open_
  rw [find_of_actions agree.actions, find_insert] at found
  split at found
  · cases found
    exact absurd open_ finished
  · exact ⟨row, found, open_, rfl⟩

/-- A step that commits no claim keeps the invariant when it opens no row, forgets no
unfinished one and marks no id. -/
theorem Invariant.narrow {system next : System} (held : Invariant platform system)
    (base : Base platform next) (store : Shrinks system.store next.store)
    (sequence : system.store.sequence ≤ next.store.sequence)
    (boot : next.owners.boot = system.owners.boot)
    (leases : ∀ actionId row, system.store.find? actionId = some row → row.finishedAt = none →
      row.bootId = some system.owners.boot → ∀ token, (actionId, token) ∈ system.owners.leases →
        (actionId, token) ∈ next.owners.leases)
    (fewer : ∀ actionId ∈ marked next, actionId ∈ marked system)
    (granted : next.history.granted = system.history.granted)
    (committed : next.history.committed = system.history.committed)
    (live : ∀ claiming ∈ next.writer, ∀ worker ∈ next.workers, worker.token ∈ claiming.live)
    (upheld : ∀ claiming ∈ next.writer, ∀ abandoned ∈ claiming.phase.abandoned,
      ∀ actionId row, system.store.find? actionId = some row → row.finishedAt = none →
        row.bootId = some system.owners.boot → actionId ∉ abandoned →
          ∃ token ∈ claiming.live, (actionId, token) ∈ system.history.granted) :
    Invariant platform next where
  base := base
  owned := {
    entry := by
      intro actionId row found open_ current
      obtain ⟨old, stored, before, same⟩ := store actionId row found open_
      rw [boot, ← same] at current
      obtain ⟨token, leased, own⟩ := held.owned.entry actionId old stored before current
      exact ⟨token, leases actionId old stored before current token leased, granted ▸ own⟩
    own := granted ▸ held.owned.own
    clean := by
      rw [granted, committed]
      exact held.owned.clean }
  granted := by
    rw [granted]
    exact fun grant member => (held.granted grant member).trans sequence
  unmarked := by
    intro actionId row found open_ current member
    obtain ⟨old, stored, before, same⟩ := store actionId row found open_
    rw [boot, ← same] at current
    exact held.unmarked actionId old stored before current (fewer actionId member)
  live := live
  upheld := by
    intro claiming writes abandoned phase actionId row found open_ current spared
    obtain ⟨old, stored, before, same⟩ := store actionId row found open_
    rw [boot, ← same] at current
    rw [granted]
    exact upheld claiming writes abandoned phase actionId old stored before current spared

theorem mem_marked {system : System} {actionId : Nat} :
    actionId ∈ marked system ↔ (∃ ids ∈ system.forgetting, actionId ∈ ids) ∨
      ∃ worker ∈ system.workers, actionId ∈ Worker.forgets worker := by
  simp [marked, List.mem_append, List.mem_flatten, List.mem_flatMap]

theorem marked_workers {system next : System} (forgetting : next.forgetting = system.forgetting)
    (workers : ∀ worker ∈ next.workers, Worker.forgets worker ≠ [] → worker ∈ system.workers) :
    ∀ actionId ∈ marked next, actionId ∈ marked system := by
  intro actionId member
  rcases mem_marked.mp member with ⟨ids, stored, named⟩ | ⟨worker, stored, named⟩
  · exact mem_marked.mpr (Or.inl ⟨ids, forgetting ▸ stored, named⟩)
  · exact mem_marked.mpr (Or.inr ⟨worker, workers worker stored (List.ne_nil_of_mem named), named⟩)

theorem forgets_become {system : System} {token : Nat} {phase : WorkerPhase}
    (moved : ∀ abandoned, phase ≠ .claimed abandoned) :
    ∀ worker ∈ system.become token phase, Worker.forgets worker ≠ [] → worker ∈ system.workers := by
  intro worker member forgets
  obtain ⟨old, stored, rfl⟩ := List.mem_map.mp member
  split at forgets
  · cases phase with
    | claimed abandoned => exact absurd rfl (moved abandoned)
    | _ => exact absurd rfl forgets
  · rename_i other
    rw [if_neg other]
    exact stored

/-- An unfinished row the sweep leaves was stored so, of this boot and not abandoned. -/
theorem open_swept {system : System} {abandoned : List Nat} {start : Actions}
    (made : Swept platform system abandoned start) {actionId : Nat} {row : QuotaAction}
    (found : start.find? actionId = some row) (open_ : row.finishedAt = none) :
    system.store.find? actionId = some row ∧ row.bootId = some system.owners.boot ∧
      actionId ∉ abandoned := by
  obtain ⟨now, rfl⟩ := made
  rw [find_sweep, Option.map_eq_some_iff] at found
  obtain ⟨old, stored, rfl⟩ := found
  obtain ⟨same, -, current, spared⟩ := swept_open platform open_
  rw [same]
  exact ⟨stored, current, (find_eq_some.mp stored).2 ▸ spared⟩

/-- What holds of a row that the sweep of the claim that writes leaves unfinished: it has the
entry of its own worker, which was live when the claim took the lock, and no forget is due. -/
structure Upheld (system : System) (claiming : Claiming) (abandoned : List Nat) (actionId : Nat)
    (row : QuotaAction) : Prop where
  current : row.bootId = some system.owners.boot
  spared : actionId ∉ abandoned
  unmarked : actionId ∉ marked system
  entry : ∃ token, (actionId, token) ∈ system.owners.leases ∧
    (actionId, token) ∈ system.history.granted
  live : ∃ token ∈ claiming.live, (actionId, token) ∈ system.history.granted

theorem upheld_open {system : System} (held : Invariant platform system) {claiming : Claiming}
    (writes : system.writer = some claiming) {abandoned : List Nat}
    (phase : claiming.phase.abandoned = some abandoned) {start : Actions}
    (made : Swept platform system abandoned start) {actionId : Nat} {row : QuotaAction}
    (found : start.find? actionId = some row) (open_ : row.finishedAt = none) :
    Upheld system claiming abandoned actionId row := by
  obtain ⟨stored, current, spared⟩ := open_swept made found open_
  exact ⟨current, spared, held.unmarked actionId row stored open_ current,
    held.owned.entry actionId row stored open_ current,
    held.upheld claiming writes abandoned phase actionId row stored open_ current spared⟩

theorem invariant_reused {system next : System} (held : Invariant platform system) (base : Base platform next)
    {claiming : Claiming} {abandoned : List Nat} {store : Actions} {saved : QuotaAction}
    (writes : system.writer = some claiming) (phase : claiming.phase = .reused abandoned store saved)
    (committed : next = { system with
      store := store
      writer := none
      forgetting := system.forgetting ++ [abandoned]
      history := (system.history.answered claiming (.reused saved.actionId)).commits
        system.owners.boot claiming.live store }) : Invariant platform next := by
  subst committed
  have done := held.base.writing claiming writes
  simp only [Provenance] at done
  rw [phase] at done
  obtain ⟨start, made, answered⟩ := done
  have left {actionId : Nat} {row : QuotaAction} (found : store.find? actionId = some row)
      (open_ : row.finishedAt = none) : Upheld system claiming abandoned actionId row := by
    cases answered with
    | reused _ _ _ joined =>
      exact upheld_open held writes (by rw [phase]; rfl) made
        ((find_of_actions joined.actions _).symm.trans found) open_
  have grown : system.store.sequence ≤ store.sequence := by
    obtain ⟨now, rfl⟩ := made
    exact ((rowsKept_sweep platform _ _ _ _).trans (rowsKept_reused platform answered)).sequence
  refine ⟨base, ⟨fun actionId row found open_ _ => (left found open_).entry,
    held.owned.own, fun claim member row unfinished => ?_⟩,
    fun grant member => (held.granted grant member).trans grown, ?_, by simp, by simp⟩
  · rcases List.mem_append.mp member with old | new
    · exact held.owned.clean claim old row unfinished
    · rw [List.mem_singleton.mp new] at unfinished ⊢
      obtain ⟨listed, open_⟩ := List.mem_filter.mp unfinished
      have kept := left (find_eq_some.mpr ⟨listed, rfl⟩) (by simpa using open_)
      exact ⟨kept.current, kept.live⟩
  · intro actionId row found open_ _ member
    have kept := left found open_
    rcases mem_marked.mp member with ⟨ids, waits, named⟩ | worker
    · rcases List.mem_append.mp waits with earlier | last
      · exact kept.unmarked (mem_marked.mpr (Or.inl ⟨ids, earlier, named⟩))
      · rw [List.mem_singleton.mp last] at named
        exact kept.spared named
    · exact kept.unmarked (mem_marked.mpr (Or.inr worker))

/-- The rows that a fresh claim leaves are those the sweep left, and its own. -/
theorem invariant_inserted {system next : System} (held : Invariant platform system) (base : Base platform next)
    {claiming : Claiming} {abandoned : List Nat} {store : Actions} {actionId token : Nat}
    (writes : system.writer = some claiming) (phase : claiming.phase = .fresh abandoned store actionId token)
    (unfound : actionId ∉ abandoned) (unmarked : actionId ∉ marked system)
    (leased : (actionId, token) ∈ system.owners.leases)
    (committed : next = { system with
      store := store
      writer := none
      workers := system.workers ++
        [⟨token, actionId, claiming.kind, claiming.invocation, .claimed abandoned⟩]
      history := { (system.history.answered claiming (.fresh actionId)).commits
        system.owners.boot (token :: claiming.live) store with
        granted := system.history.granted ++ [(actionId, token)] } }) : Invariant platform next := by
  subst committed
  have done := held.base.writing claiming writes
  simp only [Provenance] at done
  rw [phase] at done
  obtain ⟨⟨start, made, answered⟩, -⟩ := done
  have above := fresh_above made answered
  have left {other : Nat} {row : QuotaAction} (found : store.find? other = some row)
      (open_ : row.finishedAt = none) (old : other ≠ actionId) :
      Upheld system claiming abandoned other row := by
    rw [find_fresh platform answered, if_neg old] at found
    exact upheld_open held writes (by rw [phase]; rfl) made found open_
  have own (row : QuotaAction) (found : store.find? actionId = some row) :
      row.bootId = some system.owners.boot := by
    rw [find_fresh platform answered, if_pos rfl] at found
    cases found
    rfl
  have grown : actionId ≤ store.sequence :=
    find_le_sequence ((find_fresh platform answered actionId).trans (if_pos rfl))
  have fresh : ∀ grant ∈ system.history.granted, grant.1 ≠ actionId := fun grant member => by
    have bound := held.granted grant member
    omega
  refine ⟨base, ⟨fun other row found open_ _ => ?_,
    held.owned.own.append_singleton fresh, fun claim member row unfinished => ?_⟩,
    fun grant member => ?_, ?_, by simp, by simp⟩
  · by_cases same : other = actionId
    · subst same
      exact ⟨token, leased, List.mem_append_right _ (List.mem_singleton_self _)⟩
    · obtain ⟨upholds, held, granted⟩ := (left found open_ same).entry
      exact ⟨upholds, held, List.mem_append_left _ granted⟩
  · rcases List.mem_append.mp member with old | new
    · obtain ⟨boot, upholds, live, granted⟩ := held.owned.clean claim old row unfinished
      exact ⟨boot, upholds, live, List.mem_append_left _ granted⟩
    · rw [List.mem_singleton.mp new] at unfinished ⊢
      obtain ⟨listed, open_⟩ := List.mem_filter.mp unfinished
      have found := find_eq_some.mpr ⟨listed, rfl⟩
      by_cases same : row.actionId = actionId
      · exact ⟨own row (same ▸ found), token, List.mem_cons_self,
          List.mem_append_right _ (List.mem_singleton.mpr (by rw [same]))⟩
      · have kept := left found (by simpa using open_) same
        obtain ⟨upholds, live, granted⟩ := kept.live
        exact ⟨kept.current, upholds, List.mem_cons_of_mem _ live, List.mem_append_left _ granted⟩
  · rcases List.mem_append.mp member with old | new
    · have bound := held.granted grant old
      change grant.1 ≤ store.sequence
      omega
    · rw [List.mem_singleton.mp new]
      exact grown
  · intro other row found open_ _ member
    have cases_ : other ∈ marked system ∨ other ∈ abandoned := by
      rcases mem_marked.mp member with waits | ⟨worker, stored, named⟩
      · exact Or.inl (mem_marked.mpr (Or.inl waits))
      · rcases List.mem_append.mp stored with old | new
        · exact Or.inl (mem_marked.mpr (Or.inr ⟨worker, old, named⟩))
        · rw [List.mem_singleton.mp new] at named
          exact Or.inr named
    by_cases same : other = actionId
    · subst same
      exact cases_.elim unmarked unfound
    · have kept := left found open_ same
      exact cases_.elim kept.unmarked kept.spared

theorem invariant_commit {system next : System} (held : Invariant platform system)
    {claiming : Claiming} (writes : system.writer = some claiming)
    (admitted : Unmarked system .commit) (commits : commit system claiming = some next) :
    Invariant platform next := by
  have base := base_commit held.base writes commits
  simp only [commit] at commits
  split at commits
  next abandoned store saved phase =>
    cases commits
    exact invariant_reused held base writes phase rfl
  next abandoned store actionId token phase =>
    cases commits
    obtain ⟨unfound, unmarked, leased⟩ := admitted claiming writes _ _ _ _ phase
    exact invariant_inserted held base writes phase unfound unmarked leased rfl
  next => cases commits

theorem kept_leases (system : System) (actionId : Nat) (row : QuotaAction)
    (_ : system.store.find? actionId = some row) (_ : row.finishedAt = none)
    (_ : row.bootId = some system.owners.boot) (token : Nat)
    (leased : (actionId, token) ∈ system.owners.leases) : (actionId, token) ∈ system.owners.leases := leased

theorem Invariant.forgotten {system : System} (held : Invariant platform system) {ids : List Nat}
    (due : ∀ actionId ∈ ids, actionId ∈ marked system)
    (actionId : Nat) (row : QuotaAction) (found : system.store.find? actionId = some row)
    (unfinished : row.finishedAt = none) (current : row.bootId = some system.owners.boot) (token : Nat)
    (leased : (actionId, token) ∈ system.owners.leases) : (actionId, token) ∈ (system.owners.forget ids).leases :=
  mem_forget.mpr ⟨leased, fun named => held.unmarked actionId row found unfinished current (due actionId named)⟩

theorem Invariant.narrows_live {system : System} (held : Invariant platform system) {workers : List Worker}
    (narrows : Narrows system.workers workers) :
    ∀ claiming ∈ system.writer, ∀ worker ∈ workers, worker.token ∈ claiming.live := by
  intro claiming writes worker member
  obtain ⟨old, stored, same⟩ := narrows.mem member
  rw [← (Prod.mk.inj same).1]
  exact held.live claiming writes old stored

/-- A sweep spares the rows whose workers live. -/
theorem invariant_sweep {system next : System} (held : Invariant platform system) (base : Base platform next)
    {claiming : Claiming} {now : Timestamp} (writes : system.writer = some claiming)
    (swept : next = { system with
      writer := some { claiming with
        phase := .swept (system.owners.abandoned system.live)
          (system.store.sweep platform system.owners.boot (system.owners.abandoned system.live) now) } }) :
    Invariant platform next := by
  subst swept
  refine held.narrow base (shrinks_refl system.store) le_rfl rfl (kept_leases system) (fun _ member => member)
    rfl rfl ?_ ?_
  · rintro swept ⟨⟩
    exact held.live claiming writes
  · rintro swept ⟨⟩ abandoned ⟨⟩ actionId row found unfinished current spared
    obtain ⟨token, leased, granted⟩ := held.owned.entry actionId row found unfinished current
    refine ⟨token, ?_, granted⟩
    by_contra dead
    refine spared (mem_abandoned.mpr ⟨token, leased, fun alive => dead ?_⟩)
    obtain ⟨worker, member, rfl⟩ := List.mem_map.mp alive
    exact held.live claiming writes worker member

/-- A fresh claim is granted a lease under an id no stored row has. -/
theorem invariant_fresh {system next : System} (held : Invariant platform system) (base : Base platform next)
    {claiming : Claiming} {abandoned : List Nat} {store fresh : Actions} {actionId : Nat}
    (writes : system.writer = some claiming) (phase : claiming.phase = .swept abandoned store)
    (answered : Answers platform claiming.invocation claiming.kind claiming.before system.owners.boot store
      (.fresh fresh actionId))
    (claimed : next = { system with
      writer := some { claiming with phase := .fresh abandoned fresh actionId system.tokens }
      owners := system.owners.claim actionId system.tokens
      tokens := system.tokens + 1 }) : Invariant platform next := by
  subst claimed
  have done := held.base.writing claiming writes
  simp only [Provenance, phase] at done
  have above := fresh_above done answered
  refine held.narrow base (shrinks_refl system.store) le_rfl rfl (fun other row found _ _ token leased => ?_)
    (fun _ member => member) rfl rfl ?_ ?_
  · have bound := find_le_sequence found
    exact mem_claim.mpr (Or.inl ⟨leased, by dsimp only; omega⟩)
  · rintro swept ⟨⟩
    exact held.live claiming writes
  · rintro swept ⟨⟩ ids ⟨⟩
    exact held.upheld claiming writes abandoned (by rw [phase]; rfl)

/-- Where a change closes a row, an unfinished row is one it left as it was. -/
theorem unchanged_of_unfinished {closes : Prop} [Decidable closes] {row changed : QuotaAction}
    (finished : changed.finishedAt ≠ none) (unfinished : (if closes then changed else row).finishedAt = none) :
    row.finishedAt = none ∧ row.bootId = (if closes then changed else row).bootId := by
  split at unfinished
  next => exact absurd unfinished finished
  next other =>
    rw [if_neg other]
    exact ⟨unfinished, rfl⟩

theorem invariant_restart {system : System} (held : Invariant platform system) {boot : String}
    (unused : boot ∉ system.history.boots) {next : System} (base : Base platform next)
    (restarted : next = { system with
      owners := ActionOwners.new boot
      writer := none
      forgetting := []
      workers := []
      history := { system.history with boots := boot :: system.history.boots } }) : Invariant platform next := by
  subst restarted
  have foreign (actionId : Nat) (row : QuotaAction)
      (found : system.store.find? actionId = some row) : row.bootId ≠ some boot :=
    fun current => unused (held.base.boots actionId row found boot current)
  exact ⟨base, ⟨fun actionId row found _ current => absurd current (foreign actionId row found),
    held.owned.own, held.owned.clean⟩, held.granted,
    fun actionId row found _ current => absurd current (foreign actionId row found),
    by simp, by simp⟩

theorem invariant_step {system next : System} {event : Event} (held : Invariant platform system)
    (admitted : Unmarked system event) (taken : step platform system event = some next) :
    Invariant platform next := by
  have base := base_step held.base taken
  have refl := shrinks_refl system.store
  have leases := kept_leases system
  cases stepped_of_step platform taken with
  | begin invocation kind before free =>
    refine held.narrow base refl le_rfl rfl leases (fun _ member => member) rfl rfl ?_ ?_
    · rintro claiming ⟨⟩ worker member
      exact List.mem_map_of_mem member
    · rintro claiming ⟨⟩ abandoned ⟨⟩
  | sweep claiming now writes phase => exact invariant_sweep held base writes rfl
  | reused claiming now abandoned store reused saved writes phase =>
    refine held.narrow base refl le_rfl rfl leases (fun _ member => member) rfl rfl ?_ ?_
    · rintro swept ⟨⟩
      exact held.live claiming writes
    · rintro swept ⟨⟩ ids ⟨⟩
      exact held.upheld claiming writes abandoned (by rw [phase]; rfl)
  | fresh claiming now abandoned store fresh actionId writes phase answered =>
    exact invariant_fresh held base writes phase answered rfl
  | failed | conflict | rollback =>
    exact held.narrow base refl le_rfl rfl leases (fun _ member => member) rfl rfl (by simp) (by simp)
  | commit claiming _ writes commits => exact invariant_commit held writes admitted commits
  | forget turn ids waits =>
    have due : ∀ actionId ∈ ids, actionId ∈ marked system := fun actionId named =>
      mem_marked.mpr (Or.inl ⟨ids, List.mem_of_getElem? waits, named⟩)
    refine held.narrow base refl le_rfl rfl (held.forgotten due) (fun actionId member => ?_) rfl rfl
      held.live held.upheld
    rcases mem_marked.mp member with ⟨other, kept, named⟩ | worker
    · exact mem_marked.mpr (Or.inl ⟨other, List.mem_of_mem_eraseIdx kept, named⟩)
    · exact mem_marked.mpr (Or.inr worker)
  | settle worker abandoned member phase =>
    have due : ∀ actionId ∈ abandoned, actionId ∈ marked system := fun actionId named =>
      mem_marked.mpr (Or.inr ⟨worker, member, by rw [Worker.forgets, phase]; exact named⟩)
    exact held.narrow base refl le_rfl rfl (held.forgotten due)
      (marked_workers rfl (forgets_become (by simp))) rfl rfl (held.narrows_live (narrows_become _ _ _)) held.upheld
  | acquire worker member phase | lost worker status body now persisted member phase
  | release worker member phase =>
    exact held.narrow base refl le_rfl rfl leases (marked_workers rfl (forgets_become (by simp)))
      rfl rfl (held.narrows_live (narrows_become _ _ _)) held.upheld
  | completed worker status body now store member phase free wrote =>
    obtain ⟨outcome, agree⟩ := complete_cases platform wrote
    have mapped (actionId : Nat) := (find_of_actions agree.actions actionId).trans
      (find_finish platform system.store worker.actionId status body outcome now actionId)
    exact held.narrow base (shrinks_map mapped fun _ => unchanged_of_unfinished (by simp [QuotaAction.completed]))
      agree.sequence.ge rfl leases (marked_workers rfl (forgets_become (by simp))) rfl rfl (by simp [free])
      (by simp [free])
  | saveAfter worker after member free =>
    refine held.narrow base (shrinks_map (find_saveAfter _ _ _) fun row unfinished => ?_) le_rfl rfl leases
      (fun _ member => member) rfl rfl (by simp [free]) (by simp [free])
    split at unfinished <;> split <;> exact ⟨unfinished, rfl⟩
  | drop token =>
    refine held.narrow base refl le_rfl rfl leases ?_ rfl rfl (held.narrows_live (narrows_filter _ _)) held.upheld
    exact marked_workers rfl fun worker member _ => List.mem_of_mem_filter member
  | reconcile worker accountId now member free =>
    have closed := shrinks_map (find_reconcile platform system.store accountId now) fun row =>
      unchanged_of_unfinished (by simp [QuotaAction.reconciled])
    exact held.narrow base closed le_rfl rfl leases (fun _ member => member) rfl rfl (by simp [free])
      (by simp [free])
  | reject kind invocation status body now store free wrote =>
    obtain ⟨row, -, -, agree⟩ := reject_cases platform wrote
    exact held.narrow base (shrinks_reject wrote)
      ((Nat.le_succ _).trans agree.sequence.ge) rfl leases (fun _ member => member) rfl rfl
      (by simp [free]) (by simp [free])
  | unrejected => exact held
  | restart boot unused => exact invariant_restart held unused base rfl

theorem invariant_initial (boot : String) : Invariant platform (System.initial boot) where
  base := base_initial platform boot
  owned := ⟨by simp [System.initial, Actions.empty, Actions.find?, lookup], List.Pairwise.nil,
    by simp [System.initial]⟩
  granted := by simp [System.initial]
  unmarked := by simp [System.initial, Actions.empty, Actions.find?, lookup]
  live := by simp [System.initial]
  upheld := by simp [System.initial]

/-- A state whose map has no entry for an unfinished action of its boot has lost it. -/
theorem not_owned {system : System} {actionId : Nat} {row : QuotaAction}
    (found : system.store.find? actionId = some row) (open_ : row.finishedAt = none)
    (current : row.bootId = some system.owners.boot)
    (gone : ∀ token, (actionId, token) ∈ system.owners.leases →
      (actionId, token) ∉ system.history.granted) : ¬Owned system := by
  intro owned
  obtain ⟨token, leased, granted⟩ := owned.entry actionId row found open_ current
  exact gone token leased granted

/-- Once a fresh claim commits an id that is marked or already forgotten, its action is lost,
or is when the next forget of that id runs. -/
theorem lost_of_marked {system next : System} (held : Invariant platform system)
    (taken : step platform system .commit = some next) (marks : ¬Unmarked system .commit) :
    ¬Owned next ∨ ∃ event after, step platform next event = some after ∧ ¬Owned after := by
  have base := base_step held.base taken
  simp only [Unmarked, not_forall] at marks
  obtain ⟨claiming, writes, abandoned, store, actionId, token, phase, marks⟩ := marks
  have writes : system.writer = some claiming := writes
  have done := held.base.writing claiming writes
  simp only [step, writes, Option.bind_some, commit, phase] at taken
  simp only [Provenance, phase] at done
  obtain ⟨⟨start, made, answered⟩, -⟩ := done
  have above := fresh_above made answered
  obtain ⟨row, found, open_, current⟩ : ∃ row, next.store.find? actionId = some row ∧
      row.finishedAt = none ∧ row.bootId = some next.owners.boot := by
    cases taken
    exact ⟨_, (find_fresh platform answered actionId).trans (if_pos rfl), rfl, rfl⟩
  have forgotten (after : System) (ids : List Nat) (stored : after.store = next.store)
      (owners : after.owners = next.owners.forget ids) (named : actionId ∈ ids) : ¬Owned after := by
    refine not_owned (stored ▸ found) open_ (by rw [owners]; exact current) fun other leased => ?_
    rw [owners] at leased
    exact absurd named (mem_forget.mp leased).2
  have settles (worker : Worker) {ids : List Nat} (member : worker ∈ next.workers)
      (waits : worker.phase = .claimed ids) (named : actionId ∈ ids) :
      ∃ event after, step platform next event = some after ∧ ¬Owned after := by
    have looked : next.worker worker.token = some worker :=
      (lookup_eq_some base.distinct).mpr ⟨member, rfl⟩
    refine ⟨.settle worker.token, { next with
      owners := next.owners.forget ids, workers := next.become worker.token .queued }, ?_,
      forgotten _ ids rfl rfl named⟩
    simp only [step, looked, Option.bind_some, waits]
  by_cases leased : (actionId, token) ∈ system.owners.leases
  · right
    by_cases own : actionId ∈ abandoned
    · refine settles ⟨token, actionId, claiming.kind, claiming.invocation, .claimed abandoned⟩ ?_
        rfl own
      cases taken
      exact List.mem_append_right _ (List.mem_singleton_self _)
    · have due : actionId ∈ marked system := by
        by_contra clear
        exact marks ⟨own, clear, leased⟩
      rcases mem_marked.mp due with ⟨ids, waits, named⟩ | ⟨worker, stored, named⟩
      · obtain ⟨turn, turns⟩ := List.mem_iff_getElem?.mp waits
        have turns : next.forgetting[turn]? = some ids := by
          cases taken
          exact turns
        refine ⟨.forget turn, { next with
          owners := next.owners.forget ids, forgetting := next.forgetting.eraseIdx turn }, ?_,
          forgotten _ ids rfl rfl named⟩
        simp only [step, turns, Option.bind_some]
      · have stored : worker ∈ next.workers := by
          cases taken
          exact List.mem_append_left _ stored
        cases waits : worker.phase with
        | claimed ids =>
          rw [Worker.forgets, waits] at named
          exact settles worker stored waits named
        | _ => simp [Worker.forgets, waits] at named
  · left
    refine not_owned found open_ current fun other kept granted => ?_
    cases taken
    rcases List.mem_append.mp granted with old | new
    · have bound := held.granted _ old
      dsimp only at bound
      omega
    · cases List.mem_singleton.mp new
      exact leased kept

/-- A run all of whose fresh claims commit under unmarked ids loses no action; a commit under
a marked one loses its action at once or with the forget that is due. -/
theorem owned_while_unmarked (platform : Platform) (boot : String) :
    (∀ events, Meets (step platform) Unmarked (System.initial boot) events →
      Always (step platform) Owned (System.initial boot) events) ∧
    ∀ events start next, Meets (step platform) Unmarked (System.initial boot) events →
      run (step platform) (System.initial boot) events = some start →
        step platform start .commit = some next → ¬Unmarked start .commit →
          ¬Owned next ∨ ∃ event after, step platform next event = some after ∧ ¬Owned after := by
  refine ⟨fun events met => ?_, fun events start next met reached taken marks => ?_⟩
  · exact always_of_meets (fun _ held => Invariant.owned held)
      (fun _ _ _ held admitted taken => invariant_step held admitted taken)
      (invariant_initial boot) met
  · have held := invariant_run (fun _ _ _ held admitted taken => invariant_step held admitted taken)
      (invariant_initial boot) met reached
    exact lost_of_marked held taken marks

end

/-- A claim that commits under the first id of an empty map. -/
theorem one_claim_owned :
    Always (step firstMinute) Owned (System.initial "5c0ffee05c0ffee05c0ffee05c0ffee0")
      (claimed (some (encode 7)) .quotaReset none) := by
  refine (owned_while_unmarked firstMinute _).1 _ ?_
  rintro begun ⟨⟩
  refine ⟨trivial, ?_⟩
  rintro swept ⟨⟩
  refine ⟨trivial, ?_⟩
  rintro answered ⟨⟩
  refine ⟨trivial, ?_⟩
  rintro committed ⟨⟩
  refine ⟨?_, trivial⟩
  rintro claiming ⟨⟩ abandoned store actionId token ⟨⟩
  decide

/-- A claim rolls back after its lease was inserted; the next one is handed the same id and
forgets it with the dead lease it found. -/
def reissued : List Event :=
  (claimed (some (encode 7)) .quotaReset none).dropLast ++ [.rollback] ++
    claimed (some (encode 7)) .quotaReset none ++ [.settle 1]

theorem a_reissued_action_is_orphaned :
    ∃ finish, run (step firstMinute) (System.initial "5c0ffee05c0ffee05c0ffee05c0ffee0") reissued =
      some finish ∧ ¬Owned finish := by
  have ends : (run (step firstMinute) (System.initial "5c0ffee05c0ffee05c0ffee05c0ffee0")
      reissued).map (fun finish => (finish.owners.leases, (finish.store.find? 1).map fun row =>
        (row.finishedAt, decide (row.bootId = some finish.owners.boot)))) =
      some ([], some (none, true)) := by
    decide
  obtain ⟨finish, reached, ends⟩ := Option.map_eq_some_iff.mp ends
  obtain ⟨leases, rows⟩ := Prod.mk.inj ends
  obtain ⟨row, found, columns⟩ := Option.map_eq_some_iff.mp rows
  obtain ⟨open_, current⟩ := Prod.mk.inj columns
  refine ⟨finish, reached, not_owned found open_ (of_decide_eq_true current) fun token leased => ?_⟩
  rw [leases] at leased
  cases leased

end MeteredUsage.QuotaActions.Ownership

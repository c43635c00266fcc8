import MeteredUsage.QuotaActions.Store
import MeteredUsage.Library.Outcome

/-! What the statements of a claim do, seen through the lookups of the tables: the row an
id names and the action a key is bound to. -/

namespace MeteredUsage.QuotaActions.Claim
open MeteredUsage.Values MeteredUsage.QuotaActions.Store MeteredUsage.Library.Keyed
open MeteredUsage.Library.Outcome

theorem distinct_actions (store : Actions) : Distinct QuotaAction.actionId store.actions :=
  store.ordered.imp fun before => Nat.ne_of_lt before

theorem find_eq_some {store : Actions} {actionId : Nat} {action : QuotaAction} :
    store.find? actionId = some action ↔ action ∈ store.actions ∧ action.actionId = actionId :=
  lookup_eq_some (distinct_actions store)

theorem find_le_sequence {store : Actions} {actionId : Nat} {action : QuotaAction}
    (found : store.find? actionId = some action) : actionId ≤ store.sequence := by
  obtain ⟨member, rfl⟩ := find_eq_some.mp found
  exact store.bounded action member

@[simp] theorem find_update (store : Actions) (change : QuotaAction → QuotaAction)
    (same : ∀ action, (change action).actionId = action.actionId) (actionId : Nat) :
    (store.update change same).find? actionId = (store.find? actionId).map change :=
  lookup_map same store.actions actionId

theorem find_insert (store : Actions) (action : QuotaAction) (actionId : Nat) :
    (store.insert action).find? actionId =
      if actionId = store.sequence + 1 then some { action with actionId := store.sequence + 1 }
      else store.find? actionId := by
  by_cases fresh : actionId = store.sequence + 1
  · rw [if_pos fresh]
    exact find_eq_some.mpr ⟨by simp [Actions.insert], fresh.symm⟩
  · rw [if_neg fresh]
    refine (lookup_append _ _ _).trans ?_
    rw [lookup_singleton, if_neg (Ne.symm fresh), Option.or_none]
    rfl

theorem boundTo_eq_some {store : Actions} {credentialId key : String} {bound : ActionKey} :
    store.boundTo credentialId key = some bound ↔
      bound ∈ store.keys ∧ bound.name = (credentialId, key) :=
  lookup_eq_some store.unique

/-- A bound key names an action that exists. -/
theorem find_of_boundTo {store : Actions} {credentialId key : String} {bound : ActionKey}
    (found : store.boundTo credentialId key = some bound) :
    ∃ action, store.find? bound.actionId = some action := by
  obtain ⟨member, -⟩ := boundTo_eq_some.mp found
  obtain ⟨action, stored, names⟩ := store.referenced bound member
  exact ⟨action, find_eq_some.mpr ⟨stored, names⟩⟩

theorem newest_eq_some {store : Actions} {selected : QuotaAction → Bool} {action : QuotaAction}
    (found : store.newest selected = some action) :
    store.find? action.actionId = some action ∧ selected action = true := by
  obtain ⟨member, chosen⟩ := List.mem_filter.mp (List.mem_of_getLast? found)
  exact ⟨find_eq_some.mpr ⟨member, rfl⟩, chosen⟩

theorem newest_eq_none {store : Actions} {selected : QuotaAction → Bool}
    (none_ : store.newest selected = none) {actionId : Nat} {action : QuotaAction}
    (found : store.find? actionId = some action) : selected action = false := by
  have empty := List.getLast?_eq_none_iff.mp none_
  have kept := List.filter_eq_nil_iff.mp empty action (find_eq_some.mp found).1
  simpa using kept

section
variable (platform : Platform)

/-- What the sweep makes of a row. -/
def swept (boot : String) (abandoned : List Nat) (now : Timestamp) (action : QuotaAction) :
    QuotaAction :=
  if action.finishedAt.isNone && action.bootId ≠ some boot then
    action.interrupted platform now previousProcess
  else if action.finishedAt.isNone && abandoned.contains action.actionId then
    action.interrupted platform now workerEnded
  else action

@[simp] theorem interrupted_actionId (action : QuotaAction) (now : Timestamp) (body : String) :
    (action.interrupted platform now body).actionId = action.actionId := rfl

@[simp] theorem interrupted_finishedAt (action : QuotaAction) (now : Timestamp) (body : String) :
    (action.interrupted platform now body).finishedAt = some (platform.display now) := rfl

theorem find_sweep (store : Actions) (boot : String) (abandoned : List Nat) (now : Timestamp)
    (actionId : Nat) :
    (store.sweep platform boot abandoned now).find? actionId =
      (store.find? actionId).map (swept platform boot abandoned now) := by
  have folded (start : Actions) :
      (abandoned.foldl (fun store actionId => store.interrupt platform
        (fun action => action.actionId = actionId) now workerEnded) start).find? actionId =
      (start.find? actionId).map fun action =>
        if action.finishedAt.isNone && abandoned.contains action.actionId then
          action.interrupted platform now workerEnded else action := by
    induction abandoned generalizing start with
    | nil => simp
    | cons first rest ih =>
      rw [List.foldl_cons, ih, Actions.interrupt, find_update, Option.map_map]
      refine congrArg (fun change => (start.find? actionId).map change) (funext fun action => ?_)
      cases closed : action.finishedAt with
      | none => by_cases named : action.actionId = first <;> simp [closed, named]
      | some finished => simp [closed]
  have closed : (store.sweep platform boot abandoned now).find? actionId =
      (abandoned.foldl (fun store actionId => store.interrupt platform
        (fun action => action.actionId = actionId) now workerEnded)
        (store.interrupt platform (fun action => action.bootId ≠ some boot) now
          previousProcess)).find? actionId := by
    simp only [Actions.sweep]
    split <;> rfl
  rw [closed, folded, Actions.interrupt, find_update, Option.map_map]
  refine congrArg (fun change => (store.find? actionId).map change) (funext fun action => ?_)
  cases closed : action.finishedAt with
  | none => by_cases earlier : action.bootId = some boot <;> simp [swept, closed, earlier]
  | some finished => simp [swept, closed]

@[simp] theorem swept_scope (boot : String) (abandoned : List Nat) (now : Timestamp)
    (action : QuotaAction) : (swept platform boot abandoned now action).scope = action.scope := by
  simp only [swept]
  split
  · rfl
  · split <;> rfl

@[simp] theorem swept_bootId (boot : String) (abandoned : List Nat) (now : Timestamp)
    (action : QuotaAction) : (swept platform boot abandoned now action).bootId = action.bootId := by
  simp only [swept]
  split
  · rfl
  · split <;> rfl

/-- A row the sweep leaves open is one of this boot whose worker is not abandoned. -/
theorem swept_open {boot : String} {abandoned : List Nat} {now : Timestamp} {action : QuotaAction}
    (unfinished : (swept platform boot abandoned now action).finishedAt = none) :
    swept platform boot abandoned now action = action ∧ action.finishedAt = none ∧
      action.bootId = some boot ∧ action.actionId ∉ abandoned := by
  simp only [swept] at unfinished ⊢
  split at unfinished
  · cases unfinished
  · rename_i earlier
    split at unfinished
    · cases unfinished
    · rename_i dead
      simp only [unfinished, Option.isNone_none, Bool.true_and] at earlier dead ⊢
      simp_all

theorem swept_kept {boot : String} {abandoned : List Nat} (now : Timestamp) {action : QuotaAction}
    (current : action.bootId = some boot) (alive : action.actionId ∉ abandoned) :
    swept platform boot abandoned now action = action := by
  simp [swept, current, alive]

theorem foldl_interrupt {View : Type*} (view : Actions → View)
    (same : ∀ store selected now body,
      view (Actions.interrupt platform store selected now body) = view store)
    (store : Actions) (abandoned : List Nat) (now : Timestamp) :
    view (abandoned.foldl (fun store actionId => store.interrupt platform
      (fun action => action.actionId = actionId) now workerEnded) store) = view store := by
  induction abandoned generalizing store with
  | nil => rfl
  | cons first rest ih => rw [List.foldl_cons, ih, same]

theorem sweep_keys (store : Actions) (boot : String) (abandoned : List Nat) (now : Timestamp) :
    (store.sweep platform boot abandoned now).keys = store.keys := by
  have folded := foldl_interrupt platform Actions.keys (fun _ _ _ _ => rfl)
    (store.interrupt platform (fun action => action.bootId ≠ some boot) now previousProcess)
    abandoned now
  simp only [Actions.sweep]
  split <;> exact folded

theorem sweep_sequence (store : Actions) (boot : String) (abandoned : List Nat) (now : Timestamp) :
    (store.sweep platform boot abandoned now).sequence = store.sequence := by
  have folded := foldl_interrupt platform Actions.sequence (fun _ _ _ _ => rfl)
    (store.interrupt platform (fun action => action.bootId ≠ some boot) now previousProcess)
    abandoned now
  simp only [Actions.sweep]
  split <;> exact folded

/-- What joining a claim to an action leaves of the tables: its rows, and every key but the
claim's own, which is now bound to the action. -/
structure Joined (invocation : Invocation) (kind : ActionKind) (actionId : Nat)
    (store next : Actions) : Prop where
  actions : next.actions = store.actions
  sequence : next.sequence = store.sequence
  kept : ∀ credentialId key bound,
    store.boundTo credentialId key = some bound → next.boundTo credentialId key = some bound
  bound : ∀ key, invocation.idempotencyKey = some key →
    ∃ bound, next.boundTo invocation.credentialId key = some bound ∧ bound.actionId = actionId ∧
      (store.boundTo invocation.credentialId key = none → bound.scope = invocation.scope kind)

theorem insertKey_cases {store next : Actions} {bound : ActionKey} {inserted : Bool}
    (taken : store.insertKey bound = .ok (inserted, next)) :
    next.actions = store.actions ∧ next.sequence = store.sequence ∧
      (inserted = true ∧ next.keys = store.keys ++ [bound] ∧
          (∀ other ∈ store.keys, other.name ≠ bound.name) ∨
        inserted = false ∧ next = store ∧ ∃ other ∈ store.keys, other.name = bound.name) := by
  simp only [Actions.insertKey] at taken
  split at taken
  · rename_i free
    split at taken
    · cases taken
      exact ⟨rfl, rfl, Or.inl ⟨rfl, rfl, free⟩⟩
    · cases taken
  · rename_i taken'
    cases taken
    refine ⟨rfl, rfl, Or.inr ⟨rfl, rfl, ?_⟩⟩
    simpa using taken'

theorem recordKey_cases {invocation : Invocation} {store next : Actions} {actionId : Nat}
    {kind : ActionKind} {owned : Bool}
    (taken : invocation.recordKey store actionId kind = .ok (owned, next)) :
    (owned = true ∧ Joined invocation kind actionId store next) ∨
      owned = false ∧ ∃ key bound, invocation.idempotencyKey = some key ∧
        store.boundTo invocation.credentialId key = some bound ∧ bound.actionId ≠ actionId := by
  simp only [Invocation.recordKey] at taken
  split at taken
  · rename_i absent
    cases taken
    exact Or.inl ⟨rfl, rfl, rfl, fun _ _ _ found => found, fun key named => by simp [absent] at named⟩
  · rename_i key named
    obtain ⟨⟨inserted, keyed⟩, stored, answered⟩ := bind_ok.mp taken
    obtain ⟨actions, sequence, ⟨rfl, keys, free⟩ | ⟨rfl, rfl, other, member, same⟩⟩ :=
      insertKey_cases stored
    · simp only [if_true, pure_ok, Prod.mk.injEq] at answered
      obtain ⟨rfl, rfl⟩ := answered
      have added (credentialId name : String) : keyed.boundTo credentialId name =
          (store.boundTo credentialId name).or
            (lookup ActionKey.name [⟨invocation.credentialId, key, kind, invocation.accountId,
              invocation.sourceId, actionId⟩] (credentialId, name)) := by
        rw [Actions.boundTo, keys, lookup_append]
        rfl
      refine Or.inl ⟨rfl, actions, sequence, fun credentialId name bound found => ?_,
        fun name named' => ?_⟩
      · rw [added, found, Option.some_or]
      · rw [named] at named'
        cases named'
        have unbound : store.boundTo invocation.credentialId key = none := lookup_eq_none.mpr free
        refine ⟨⟨invocation.credentialId, key, kind, invocation.accountId, invocation.sourceId,
          actionId⟩, ?_, rfl, fun _ => rfl⟩
        rw [added, unbound, Option.none_or, lookup_singleton]
        exact if_pos rfl
    · cases found : keyed.boundTo invocation.credentialId key with
      | none =>
        exact absurd same (lookup_eq_none.mp found other member)
      | some bound =>
        simp only [found, Bool.false_eq_true, if_false, pure_ok, Prod.mk.injEq] at answered
        obtain ⟨rfl, rfl⟩ := answered
        by_cases same_ : bound.actionId = actionId
        · refine Or.inl ⟨by simpa using same_, rfl, rfl, fun _ _ _ found => found, fun name named' => ?_⟩
          rw [named] at named'
          cases named'
          exact ⟨bound, found, same_, fun unbound => by simp [found] at unbound⟩
        · exact Or.inr ⟨by simpa using same_, key, bound, named, found, same_⟩

theorem join_cases {invocation : Invocation} {store : Actions} {actionId : Nat} {kind : ActionKind}
    {now : Timestamp} {joined : Option Actions}
    (taken : invocation.join platform store actionId kind now = .ok joined) :
    (∃ next, joined = some next ∧ Joined invocation kind actionId store next) ∨
      joined = none ∧ ∃ key bound, invocation.idempotencyKey = some key ∧
        store.boundTo invocation.credentialId key = some bound ∧ bound.actionId ≠ actionId := by
  obtain ⟨⟨owned, keyed⟩, recorded, taken⟩ := bind_ok.mp taken
  rcases recordKey_cases recorded with ⟨rfl, same⟩ | ⟨rfl, other⟩
  · simp only [if_true] at taken
    obtain ⟨requested, request, taken⟩ := bind_ok.mp taken
    simp only [pure_ok] at taken
    subst taken
    simp only [Actions.recordRequest] at request
    split at request
    · cases request
      exact Or.inl ⟨_, rfl, same.actions, same.sequence, same.kept, same.bound⟩
    · cases request
  · simp only [Bool.false_eq_true, if_false, pure_ok] at taken
    exact Or.inr ⟨taken.symm, other⟩

theorem keyed_cases {invocation : Invocation} {store : Actions} {key : String} {bound : ActionKey}
    (named : invocation.idempotencyKey = some key)
    (found : store.boundTo invocation.credentialId key = some bound) :
    ∃ action, invocation.keyed store = some action ∧ action.actionId = bound.actionId := by
  obtain ⟨action, stored⟩ := find_of_boundTo found
  refine ⟨action, ?_, (find_eq_some.mp stored).2⟩
  simp [Invocation.keyed, named, found, stored]

theorem keyed_none {invocation : Invocation} {store : Actions} (absent : invocation.keyed store = none)
    {key : String} (named : invocation.idempotencyKey = some key) :
    store.boundTo invocation.credentialId key = none := by
  cases found : store.boundTo invocation.credentialId key with
  | none => rfl
  | some bound =>
    obtain ⟨action, keyed, -⟩ := keyed_cases named found
    rw [absent] at keyed
    cases keyed

theorem not_conflicts {invocation : Invocation} {store : Actions} {kind : ActionKind}
    (agrees : invocation.conflicts store kind = false) {key : String} {bound : ActionKey}
    (named : invocation.idempotencyKey = some key)
    (found : store.boundTo invocation.credentialId key = some bound) :
    bound.scope = invocation.scope kind := by
  simpa [Invocation.conflicts, named, found] using agrees

/-- What a claim can answer: a conflict only when its key is bound to another scope, an
existing action (the one its key is bound to, if any), or a new one when its key is free
and its scope has no unfinished action. -/
inductive Answers (invocation : Invocation) (kind : ActionKind) (before boot : String)
    (store : Actions) : Claim → Prop where
  | conflict (key : String) (bound : ActionKey) (named : invocation.idempotencyKey = some key)
      (found : store.boundTo invocation.credentialId key = some bound)
      (differs : bound.scope ≠ invocation.scope kind) :
      Answers invocation kind before boot store .conflict
  | reused (next : Actions) (saved : QuotaAction)
      (stored : store.find? saved.actionId = some saved)
      (joined : Joined invocation kind saved.actionId store next)
      (keyed : ∀ key bound, invocation.idempotencyKey = some key →
        store.boundTo invocation.credentialId key = some bound →
          bound.actionId = saved.actionId ∧ bound.scope = invocation.scope kind) :
      Answers invocation kind before boot store (.reused next saved)
  | fresh (next : Actions)
      (joined : Joined invocation kind (store.sequence + 1)
        (store.insert (invocation.row platform kind before boot)) next)
      (free : ∀ key, invocation.idempotencyKey = some key →
        store.boundTo invocation.credentialId key = none)
      (alone : ∀ actionId action, store.find? actionId = some action →
        action.finishedAt = none → action.scope ≠ invocation.scope kind) :
      Answers invocation kind before boot store (.fresh next (store.sequence + 1))

/-- A fresh claim's tables hold its own row beside the rows there were. -/
theorem find_fresh {invocation : Invocation} {kind : ActionKind} {before boot : String}
    {store next : Actions} {actionId : Nat}
    (answered : Answers platform invocation kind before boot store (.fresh next actionId))
    (other : Nat) :
    next.find? other = if other = actionId then
      some { invocation.row platform kind before boot with actionId := actionId }
    else store.find? other := by
  cases answered with
  | fresh _ joined =>
    rw [Actions.find?, joined.actions]
    exact find_insert _ _ _

theorem answers_of_answer {invocation : Invocation} {kind : ActionKind} {before boot : String}
    {now : Timestamp} {store : Actions} {claim : Claim}
    (taken : invocation.answer platform kind before boot now store = .ok claim) :
    Answers platform invocation kind before boot store claim := by
  simp only [Invocation.answer] at taken
  cases conflicts : invocation.conflicts store kind with
  | true =>
    simp only [conflicts, if_true, pure_ok] at taken
    subst taken
    simp only [Invocation.conflicts, Option.any_eq_true, decide_eq_true_eq] at conflicts
    obtain ⟨key, named, bound, found, differs⟩ := conflicts
    exact .conflict key bound named found differs
  | false =>
    simp only [conflicts, Bool.false_eq_true, if_false] at taken
    split at taken
    · rename_i saved chosen
      have stored : store.find? saved.actionId = some saved := by
        rcases Option.or_eq_some_iff.mp chosen with chosen | ⟨-, chosen⟩
        · rcases Option.or_eq_some_iff.mp chosen with keyed | ⟨-, pending⟩
          · obtain ⟨key, -, keyed⟩ := Option.bind_eq_some_iff.mp keyed
            obtain ⟨bound, -, keyed⟩ := Option.bind_eq_some_iff.mp keyed
            rw [(find_eq_some.mp keyed).2]
            exact keyed
          · exact (newest_eq_some pending).1
        · exact (newest_eq_some chosen).1
      have preferred (key : String) (bound : ActionKey)
          (named : invocation.idempotencyKey = some key)
          (found : store.boundTo invocation.credentialId key = some bound) :
          bound.actionId = saved.actionId := by
        obtain ⟨action, keyed, same⟩ := keyed_cases named found
        rw [keyed, Option.some_or, Option.some_or] at chosen
        cases chosen
        exact same.symm
      obtain ⟨joined, joins, taken⟩ := bind_ok.mp taken
      rcases join_cases platform joins with ⟨next, rfl, same⟩ | ⟨rfl, key, bound, named, found, other⟩
      · cases taken
        exact .reused next saved stored same fun key bound named found =>
          ⟨preferred key bound named found, not_conflicts conflicts named found⟩
      · exact absurd (preferred key bound named found) other
    · rename_i chosen
      rw [Option.or_eq_none_iff, Option.or_eq_none_iff] at chosen
      obtain ⟨⟨absent, alone⟩, -⟩ := chosen
      obtain ⟨joined, joins, taken⟩ := bind_ok.mp taken
      rcases join_cases platform joins with ⟨next, rfl, same⟩ | ⟨rfl, key, bound, named, found, other⟩
      · cases taken
        refine .fresh next same (fun key named => keyed_none absent named) ?_
        intro actionId action found unfinished same
        have closed := newest_eq_none alone found
        rw [unfinished, same] at closed
        simp [Invocation.scope] at closed
      · have unbound := keyed_none absent named
        change store.boundTo invocation.credentialId key = _ at found
        rw [unbound] at found
        cases found

theorem find_reconcile (store : Actions) (accountId : AccountId) (now : Timestamp) (actionId : Nat) :
    (store.reconcile platform accountId now).find? actionId =
      (store.find? actionId).map fun action =>
        if action.kind = .quotaReset && action.accountId = some (encode accountId) &&
            action.finishedAt.isNone then action.reconciled platform now
        else action := find_update _ _ _ _

theorem find_finish (store : Actions) (own status : Nat) (body outcome : String) (now : Timestamp)
    (actionId : Nat) :
    (store.finish platform own status body outcome now).find? actionId =
      (store.find? actionId).map fun action =>
        if action.actionId = own then action.completed platform status body outcome now
        else action := find_update _ _ _ _

theorem find_saveAfter (store : Actions) (own : Nat) (after : String) (actionId : Nat) :
    (store.saveAfter own after).find? actionId = (store.find? actionId).map fun action =>
      if action.actionId = own then { action with afterState := some after } else action :=
  find_update _ _ _ _

/-- The tables agree in all but the requests and the change feed. -/
structure Agree (store next : Actions) : Prop where
  actions : next.actions = store.actions
  sequence : next.sequence = store.sequence
  keys : next.keys = store.keys

theorem Agree.refl (store : Actions) : Agree store store := ⟨rfl, rfl, rfl⟩

theorem Agree.trans (store middle next : Actions) (first : Agree store middle)
    (second : Agree middle next) : Agree store next :=
  ⟨second.actions.trans first.actions, second.sequence.trans first.sequence,
    second.keys.trans first.keys⟩

theorem agree_recordRequest {store next : Actions} {request : ActionRequest}
    (taken : store.recordRequest request = .ok next) : Agree store next := by
  simp only [Actions.recordRequest] at taken
  split at taken
  · cases taken
    exact ⟨rfl, rfl, rfl⟩
  · cases taken

/-- A completion that commits finishes its own row and no other. -/
theorem complete_cases {store next : Actions} {invocation : Invocation} {actionId status : Nat}
    {body : String} {now : Timestamp}
    (wrote : store.complete platform invocation actionId status body now = .ok next) :
    ∃ outcome, Agree (store.finish platform actionId status body outcome now) next := by
  obtain ⟨requested, folded, wrote⟩ := bind_ok.mp wrote
  cases wrote
  have agree := foldlM_keeps Agree.refl Agree.trans (fun _ _ _ => agree_recordRequest) folded
  exact ⟨_, agree.actions, agree.sequence, agree.keys⟩

/-- A rejection that commits adds one finished row of no boot. -/
theorem reject_cases {store next : Actions} {kind : ActionKind} {invocation : Invocation}
    {status : Nat} {body : String} {now : Timestamp}
    (wrote : store.reject platform kind invocation status body now = .ok next) :
    ∃ row, row.bootId = none ∧ row.finishedAt ≠ none ∧ Agree (store.insert row) next := by
  obtain ⟨requested, recorded, wrote⟩ := bind_ok.mp wrote
  cases wrote
  have agree := agree_recordRequest recorded
  exact ⟨_, rfl, by simp, agree.actions, agree.sequence, agree.keys⟩

end

end MeteredUsage.QuotaActions.Claim

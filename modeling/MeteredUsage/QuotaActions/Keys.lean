import MeteredUsage.QuotaActions.Invariant

/-! Idempotency keys: what a key was bound to by one claim decides every later claim that
names it, whatever closed, reconciled or restarted in between. -/

namespace MeteredUsage.QuotaActions.Keys
open MeteredUsage.Values MeteredUsage.QuotaActions.Store MeteredUsage.QuotaActions.Claim
open MeteredUsage.QuotaActions.Service MeteredUsage.QuotaActions.Invariant
open MeteredUsage.Library.Keyed MeteredUsage.Library.Execution

def Answer.scope (answer : Answer) : ActionKind × Option String × Option String :=
  answer.invocation.scope answer.kind

/-- The claim names this key of this credential. -/
def Names (answer : Answer) (credentialId key : String) : Prop :=
  answer.invocation.credentialId = credentialId ∧ answer.invocation.idempotencyKey = some key

/-- A claim under a key an earlier one was answered with: the same action for the same
scope, and a conflict for any other. -/
def Honoured (earlier later : Answer) : Prop :=
  ∀ credentialId key actionId, Names earlier credentialId key → Names later credentialId key →
    earlier.verdict.action = some actionId →
      Answer.scope later = Answer.scope earlier ∧ later.verdict = .reused actionId ∨
        Answer.scope later ≠ Answer.scope earlier ∧ later.verdict = .conflict

/-- The key of an answer is bound to its action under its scope. -/
def Bound (store : Actions) (answer : Answer) : Prop :=
  ∀ credentialId key actionId, Names answer credentialId key →
    answer.verdict.action = some actionId →
      ∃ bound, store.boundTo credentialId key = some bound ∧ bound.actionId = actionId ∧
        bound.scope = Answer.scope answer

/-- Every binding stands in the next tables. -/
def KeysKept (store next : Actions) : Prop :=
  ∀ credentialId key bound, store.boundTo credentialId key = some bound →
    next.boundTo credentialId key = some bound

theorem keysKept_of_keys {store next : Actions} (keys : next.keys = store.keys) :
    KeysKept store next := by
  intro credentialId key bound found
  rw [Actions.boundTo, keys]
  exact found

theorem Bound.kept {store next : Actions} {answer : Answer} (held : Bound store answer)
    (keys : KeysKept store next) : Bound next answer := by
  intro credentialId key actionId named acts
  obtain ⟨bound, found, same, scope⟩ := held credentialId key actionId named acts
  exact ⟨bound, keys _ _ _ found, same, scope⟩

section
variable {platform : Platform}

variable (platform) in
structure Invariant (system : System) : Prop where
  base : Base platform system
  bound : ∀ answer ∈ system.history.answers, Bound system.store answer
  honoured : system.history.answers.Pairwise Honoured

theorem keysKept_swept {system : System} {abandoned : List Nat} {start : Actions}
    (made : Swept platform system abandoned start) : KeysKept system.store start := by
  obtain ⟨now, rfl⟩ := made
  exact keysKept_of_keys (sweep_keys platform _ _ _ _)

/-- The tables a claim commits bind its key, and keep every other. -/
theorem answers_keys {invocation : Invocation} {kind : ActionKind} {before boot : String}
    {start next : Actions} {saved : QuotaAction}
    (answered : Answers platform invocation kind before boot start (.reused next saved)) :
    KeysKept start next ∧ Bound next ⟨invocation, kind, .reused saved.actionId⟩ := by
  cases answered with
  | reused _ _ stored joined keyed =>
    refine ⟨joined.kept, ?_⟩
    rintro credentialId key actionId ⟨rfl, named⟩ ⟨⟩
    obtain ⟨bound, found, same, scope⟩ := joined.bound key named
    refine ⟨bound, found, same, ?_⟩
    cases before_ : start.boundTo invocation.credentialId key with
    | none => exact scope before_
    | some other =>
      have kept := joined.kept _ _ _ before_
      rw [found] at kept
      cases kept
      exact (keyed key bound named before_).2

theorem fresh_keys {invocation : Invocation} {kind : ActionKind} {before boot : String}
    {start next : Actions} {actionId : Nat}
    (answered : Answers platform invocation kind before boot start (.fresh next actionId)) :
    KeysKept start next ∧ Bound next ⟨invocation, kind, .fresh actionId⟩ := by
  cases answered with
  | fresh _ joined free alone =>
    refine ⟨joined.kept, ?_⟩
    rintro credentialId key actionId ⟨rfl, named⟩ ⟨⟩
    obtain ⟨bound, found, same, scope⟩ := joined.bound key named
    exact ⟨bound, found, same, scope (free key named)⟩

theorem honoured_of_answers {invocation : Invocation} {kind : ActionKind} {before boot : String}
    {start : Actions} {claim : Claim} (answered : Answers platform invocation kind before boot start claim)
    {earlier : Answer} (held : Bound start earlier) :
    match claim with
    | .conflict => Honoured earlier ⟨invocation, kind, .conflict⟩
    | .reused _ saved => Honoured earlier ⟨invocation, kind, .reused saved.actionId⟩
    | .fresh _ actionId => Honoured earlier ⟨invocation, kind, .fresh actionId⟩ := by
  cases answered with
  | conflict name other named found differs =>
    rintro credentialId key actionId first ⟨rfl, named'⟩ acts
    rw [named] at named'
    cases named'
    obtain ⟨bound, found', -, scope⟩ := held _ _ actionId first acts
    rw [found] at found'
    cases found'
    exact Or.inr ⟨fun same => differs (scope.trans same.symm), rfl⟩
  | reused next saved stored joined keyed =>
    rintro credentialId key actionId first ⟨rfl, named⟩ acts
    obtain ⟨bound, found, same, scope⟩ := held _ _ actionId first acts
    obtain ⟨own, owned⟩ := keyed key bound named found
    refine Or.inl ⟨owned.symm.trans scope, ?_⟩
    rw [← own, same]
  | fresh next joined free alone =>
    rintro credentialId key actionId first ⟨rfl, named⟩ acts
    obtain ⟨bound, found, -, -⟩ := held _ _ actionId first acts
    have unbound := free key named
    rw [unbound] at found
    cases found

theorem Invariant.answered {system next : System} (held : Invariant platform system)
    (base : Base platform next) (keys : KeysKept system.store next.store) {answer : Answer}
    (answers : next.history.answers = system.history.answers ++ [answer])
    (bound : Bound next.store answer)
    (honoured : ∀ earlier ∈ system.history.answers, Honoured earlier answer) :
    Invariant platform next where
  base := base
  bound := by
    rw [answers]
    intro other member
    rcases List.mem_append.mp member with old | new
    · exact (held.bound other old).kept keys
    · rw [List.mem_singleton.mp new]
      exact bound
  honoured := by
    rw [answers]
    refine List.pairwise_append.mpr ⟨held.honoured, List.pairwise_singleton _ _, ?_⟩
    intro earlier member later new
    rw [List.mem_singleton.mp new]
    exact honoured earlier member

theorem Invariant.unanswered {system next : System} (held : Invariant platform system)
    (base : Base platform next) (keys : KeysKept system.store next.store)
    (answers : next.history.answers = system.history.answers) : Invariant platform next where
  base := base
  bound := by
    rw [answers]
    exact fun answer member => (held.bound answer member).kept keys
  honoured := by
    rw [answers]
    exact held.honoured

theorem invariant_commit {system next : System} (held : Invariant platform system)
    {claiming : Claiming} (writes : system.writer = some claiming)
    (commits : commit system claiming = some next) : Invariant platform next := by
  have base := base_commit held.base writes commits
  have done := held.base.writing claiming writes
  simp only [commit] at commits
  simp only [Provenance] at done
  split at commits
  · rename_i abandoned store saved phase
    cases commits
    rw [phase] at done
    obtain ⟨start, made, answered⟩ := done
    obtain ⟨kept, bound⟩ := answers_keys answered
    have swept := keysKept_swept made
    refine held.answered base (fun _ _ _ found => kept _ _ _ (swept _ _ _ found)) rfl bound ?_
    exact fun earlier member =>
      honoured_of_answers answered ((held.bound earlier member).kept swept)
  · rename_i abandoned store actionId token phase
    cases commits
    rw [phase] at done
    obtain ⟨⟨start, made, answered⟩, -⟩ := done
    obtain ⟨kept, bound⟩ := fresh_keys answered
    have swept := keysKept_swept made
    refine held.answered base (fun _ _ _ found => kept _ _ _ (swept _ _ _ found)) rfl bound ?_
    exact fun earlier member =>
      honoured_of_answers answered ((held.bound earlier member).kept swept)
  · cases commits

theorem invariant_step {system next : System} {event : Event} (held : Invariant platform system)
    (taken : step platform system event = some next) : Invariant platform next := by
  have base := base_step held.base taken
  have same : KeysKept system.store system.store := keysKept_of_keys rfl
  cases stepped_of_step platform taken with
  | conflict claiming now abandoned store writes phase answered =>
    have done := held.base.writing claiming writes
    simp only [Provenance, phase] at done
    refine held.answered base same rfl (by rintro _ _ _ _ ⟨⟩) fun earlier member => ?_
    exact honoured_of_answers answered ((held.bound earlier member).kept (keysKept_swept done))
  | commit claiming _ writes commits => exact invariant_commit held writes commits
  | completed worker status body now store member phase free wrote =>
    obtain ⟨outcome, agree⟩ := complete_cases platform wrote
    exact held.unanswered base (keysKept_of_keys agree.keys) rfl
  | reject kind invocation status body now store free wrote =>
    obtain ⟨row, -, -, agree⟩ := reject_cases platform wrote
    exact held.unanswered base (keysKept_of_keys agree.keys) rfl
  | saveAfter | reconcile => exact held.unanswered base (keysKept_of_keys rfl) rfl
  | _ => exact held.unanswered base same rfl

theorem invariant_initial (boot : String) : Invariant platform (System.initial boot) where
  base := base_initial platform boot
  bound := by simp [System.initial]
  honoured := List.Pairwise.nil

end

/-- In every run, each answer under a key that an earlier claim was answered with is that
claim's action for its scope and a conflict for any other; an answer that conflicts leaves
the tables alone; and no key is bound twice. -/
theorem keys_hold_for_ever (platform : Platform) (boot : String) (events : List Event)
    (finish : System) (reached : run (step platform) (System.initial boot) events = some finish) :
    finish.history.answers.Pairwise Honoured ∧
    (∀ event next answer, step platform finish event = some next →
      next.history.answers = finish.history.answers ++ [answer] → answer.verdict = .conflict →
        next.store = finish.store) ∧
    ∀ first ∈ finish.store.keys, ∀ second ∈ finish.store.keys,
      first.name = second.name → first.actionId = second.actionId := by
  have held := invariant_run_free (fun _ _ _ held taken => invariant_step held taken)
    (@invariant_initial platform boot) reached
  refine ⟨held.honoured, ?_, fun first left second right same =>
    congrArg ActionKey.actionId (finish.store.unique.eq_of_key left right same)⟩
  intro event next answer taken answers conflict
  cases stepped_of_step platform taken with
  | commit claiming _ writes commits =>
    simp only [commit] at commits
    split at commits <;> cases commits
    all_goals
      have last := List.append_cancel_left answers
      cases last
      cases conflict
  | conflict => rfl
  | _ => simp at answers

/-- A reset claimed under a key, again after a restart closed it, and for another account. -/
def retries : List Event :=
  claimed (some (encode 7)) .quotaReset (some "retry") ++
    [.settle 0, .restart "decafbaddecafbaddecafbaddecafbad"] ++
    claimed (some (encode 7)) .quotaReset (some "retry") ++
    (claimed (some (encode 8)) .quotaReset (some "retry")).dropLast

theorem retries_honour_their_key :
    ∃ finish, run (step firstMinute) (System.initial "5c0ffee05c0ffee05c0ffee05c0ffee0") retries =
      some finish ∧
      finish.history.answers.map Answer.verdict = [.fresh 1, .reused 1, .conflict] ∧
      finish.history.answers.Pairwise Honoured := by
  have verdicts : (run (step firstMinute) (System.initial "5c0ffee05c0ffee05c0ffee05c0ffee0")
      retries).map (fun finish => finish.history.answers.map Answer.verdict) =
      some [.fresh 1, .reused 1, .conflict] := by
    decide
  obtain ⟨finish, reached, verdicts⟩ := Option.map_eq_some_iff.mp verdicts
  exact ⟨finish, reached, verdicts, (keys_hold_for_ever firstMinute _ retries finish reached).1⟩

end MeteredUsage.QuotaActions.Keys

import MeteredUsage.Changes.Delivery

/-! A long poll beside the writers of the feed. A commit is visible before it signals, and the
signals are only counted: a receiver learns that there was one since it last looked, not how
many or of what. -/

namespace MeteredUsage.Changes.LongPoll
open MeteredUsage.Values MeteredUsage.Changes.Table MeteredUsage.Changes.Delivery
open MeteredUsage.Library.Execution MeteredUsage.Library.OrderedLog

inductive WaitPhase where
  /-- About to read from its cursor. -/
  | reading
  /-- Found nothing, and waits for the next signal or for `until`. -/
  | asleep
  | answered (answer : Page) (onTimer : Bool)
  /-- A read failed. -/
  | failed
deriving DecidableEq, Repr

structure Wait where
  asked : Nat
  kinds : List ChangeKind
  cursor : Nat
  /-- The version its receiver has seen. -/
  seen : Nat
  phase : WaitPhase
deriving DecidableEq, Repr

structure Poll where
  service : Service
  /-- Commits that recorded a change and have still to signal it. -/
  unsignalled : Nat
  /-- The version of the watch channel. -/
  version : Nat
  isPast : Bool
  wait : Option Wait

def Poll.initial : Poll := ⟨Service.initial, 0, 0, false, none⟩

inductive Event where
  /-- A step of the writers and the other readers. -/
  | service (action : Action)
  /-- `send_replace`, after a commit. -/
  | signal
  | subscribe (cursor : Nat) (kinds : List ChangeKind)
  | read (fails : Bool)
  | wake
  /-- `until` passes. -/
  | deadline
  | timer
deriving DecidableEq, Repr

/-- The commits a step of the service leaves to be signalled. -/
def marked (service : Service) : Action → Nat
  | .commit => if (service.writer.map Writer.recorded).getD [] = [] then 0 else 1
  | _ => 0

/-- What a wait does with a page: an empty one is gone past. -/
def Wait.receive (wait : Wait) : Page → Wait
  | .changes [] cursor => { wait with cursor := cursor, phase := .asleep }
  | answer => { wait with phase := .answered answer false }

def step (state : Poll) : Event → Option Poll
  | .service action => (Delivery.step state.service action).map fun service =>
    { state with
      service := service, unsignalled := state.unsignalled + marked state.service action }
  | .signal =>
    if state.unsignalled = 0 then none else
      some { state with unsignalled := state.unsignalled - 1, version := state.version + 1 }
  | .subscribe cursor kinds =>
    if state.wait.isSome then none else
      some { state with wait := some ⟨cursor, kinds, cursor, state.version, .reading⟩ }
  | .read fails => state.wait.bind fun wait =>
    if wait.phase ≠ .reading then none
    else if fails then some { state with wait := some { wait with phase := .failed } }
    else match state.service.feed.after wait.cursor wait.kinds with
      | .ok answer => some { state with wait := some (wait.receive answer) }
      | .error _ => some { state with wait := some { wait with phase := .failed } }
  | .wake => state.wait.bind fun wait =>
    if wait.phase = .asleep ∧ wait.seen ≠ state.version then
      some { state with wait := some { wait with seen := state.version, phase := .reading } }
    else none
  | .deadline => some { state with isPast := true }
  | .timer => state.wait.bind fun wait =>
    if wait.phase = .asleep ∧ state.isPast = true then
      some { state with
        wait := some { wait with phase := .answered (.changes [] wait.cursor) true } }
    else none

/-- The page holds the change, or says the cursor is gone, or is full of the wanted changes
before it. -/
def Serves (change : Change) : Page → Prop
  | .expired _ _ => True
  | .changes changes cursor =>
    change ∈ changes ∨ changes.length = page ∧ cursor < change.cursor

def AskedFor (service : Service) (wait : Wait) (change : Change) : Prop :=
  change ∈ service.committed ∧ wantedChange wait.kinds change = true ∧ wait.asked < change.cursor

/-- A wait has gone past nothing it was asked for, and sleeps only while a commit above its
cursor has still to signal or its receiver is behind. -/
structure Watching (service : Service) (unsignalled version : Nat) (wait : Wait) : Prop where
  reached : wait.asked ≤ wait.cursor
  bound : wait.cursor = wait.asked ∨ wait.cursor ≤ service.feed.sequence
  quiet : ∀ change, AskedFor service wait change → wait.cursor < change.cursor
  seen : wait.seen ≤ version
  asleep : wait.phase = .asleep → wait.cursor ≤ service.feed.sequence ∧
    ((∃ change, AskedFor service wait change) → 0 < unsignalled ∨ wait.seen ≠ version)
  onTimer : ∀ answer, wait.phase = .answered answer true → answer = .changes [] wait.cursor

structure Invariant (state : Poll) : Prop where
  service : Delivery.Invariant state.service
  watching : ∀ wait ∈ state.wait, Watching state.service state.unsignalled state.version wait

theorem invariant_initial : Invariant Poll.initial :=
  ⟨Delivery.invariant_initial, by simp [Poll.initial]⟩

theorem after_serves {service : Service} (held : Delivery.Invariant service) {unsignalled version : Nat}
    {wait : Wait} (watching : Watching service unsignalled version wait) :
    ∃ answer, service.feed.after wait.cursor wait.kinds = .ok answer ∧
      (∀ change, AskedFor service wait change → Serves change answer) ∧
      ∀ cursor, answer = .changes [] cursor →
        wait.cursor ≤ cursor ∧ cursor = service.feed.sequence := by
  by_cases outside : wait.cursor < service.feed.prunedThrough ∨ wait.cursor > service.feed.latest
  · refine ⟨_, after_expired outside wait.kinds, fun _ _ => trivial, ?_⟩
    rintro cursor ⟨⟩
  · rw [held.keeps.latest, not_or, not_lt, not_lt] at outside
    obtain ⟨changes, next, answered, lower, upper, exact, full⟩ :=
      after_covered held.keeps outside.1 outside.2 wait.kinds
    refine ⟨_, answered, ?_, ?_⟩
    · rintro change ⟨member, wanted, above⟩
      have later := watching.quiet change ⟨member, wanted, above⟩
      by_cases within : change.cursor ≤ next
      · exact .inl (exact ▸ mem_window.mpr ⟨member, later, within, wanted⟩)
      · refine .inr ⟨?_, not_le.mp within⟩
        rcases full with last | full
        · exact absurd (last ▸ held.keeps.bounded change member) within
        · exact full
    · rintro cursor ⟨⟩
      refine ⟨lower, full.resolve_right ?_⟩
      decide

theorem committed_step {service next : Service} {action : Action} (held : Delivery.Invariant service)
    (taken : Delivery.step service action = some next) :
    ∃ recorded, next.committed = service.committed ++ recorded ∧
      ∀ change ∈ recorded, service.feed.sequence < change.cursor ∧ 0 < marked service action := by
  obtain ⟨recorded, committed, above⟩ := (extends_step held taken).committed
  refine ⟨recorded, committed, fun change member => ⟨above change member, ?_⟩⟩
  have grew : next.committed ≠ service.committed := by
    intro same
    rw [same, List.self_eq_append_right] at committed
    rw [committed] at member
    cases member
  cases action with
  | commit =>
    simp only [Delivery.step, Option.map_eq_some_iff] at taken
    obtain ⟨writer, writes, rfl⟩ := taken
    have wrote : writer.recorded ≠ [] := fun empty => grew (by simp [empty])
    simp [marked, writes, wrote]
  | begin | start =>
    simp only [Delivery.step, Option.ite_none_left_eq_some] at taken
    cases taken.2
    exact absurd rfl grew
  | latest =>
    refine absurd ?_ grew
    cases taken
    rfl
  | read cursor kinds =>
    refine absurd ?_ grew
    simp only [Delivery.step] at taken
    split at taken <;> cases taken <;> rfl
  | follow =>
    obtain ⟨reader, answer, -, -, -, rfl⟩ := follow_cases held taken
    exact absurd rfl grew
  | record | prune | rollback =>
    refine absurd ?_ grew
    simp only [Delivery.step, Option.map_eq_some_iff] at taken
    obtain ⟨-, -, rfl⟩ := taken
    rfl

theorem watching_service {service next : Service} {action : Action} {unsignalled version : Nat}
    {wait : Wait} (held : Delivery.Invariant service)
    (watching : Watching service unsignalled version wait)
    (taken : Delivery.step service action = some next) :
    Watching next (unsignalled + marked service action) version wait := by
  have grown := (extends_step held taken).grown
  obtain ⟨recorded, committed, fresh⟩ := committed_step held taken
  -- What was asked for was asked for before, or is recorded by this step.
  have asked (change : Change) (asks : AskedFor next wait change) :
      AskedFor service wait change ∨ change ∈ recorded := by
    obtain ⟨member, wants, above⟩ := asks
    rw [committed, List.mem_append] at member
    exact member.imp_left fun earlier => ⟨earlier, wants, above⟩
  refine ⟨watching.reached, watching.bound.imp_right fun bound => bound.trans grown, ?_,
    watching.seen, ?_, watching.onTimer⟩
  · intro change asks
    rcases asked change asks with earlier | later
    · exact watching.quiet change earlier
    · have above := (fresh change later).1
      have started := asks.2.2
      rcases watching.bound with same | bound <;> omega
  · intro sleeps
    obtain ⟨bound, woken⟩ := watching.asleep sleeps
    refine ⟨bound.trans grown, ?_⟩
    rintro ⟨change, asks⟩
    rcases asked change asks with earlier | later
    · exact (woken ⟨change, earlier⟩).imp_left fun waits => Nat.add_pos_left waits _
    · exact .inl (Nat.add_pos_right _ (fresh change later).2)

theorem receive_cases {service : Service} (held : Delivery.Invariant service)
    {unsignalled version : Nat} {wait : Wait}
    (watching : Watching service unsignalled version wait) :
    ∃ answer, service.feed.after wait.cursor wait.kinds = .ok answer ∧
      ((wait.receive answer = { wait with phase := .answered answer false } ∧
          ∀ change, AskedFor service wait change → Serves change answer) ∨
        (wait.receive answer = { wait with cursor := service.feed.sequence, phase := .asleep } ∧
          wait.cursor ≤ service.feed.sequence ∧ ∀ change, ¬AskedFor service wait change)) := by
  obtain ⟨answer, answered, serves, ends⟩ := after_serves held watching
  refine ⟨answer, answered, ?_⟩
  match answer, serves, ends with
  | .expired _ _, serves, _ => exact .inl ⟨rfl, serves⟩
  | .changes (_ :: _) _, serves, _ => exact .inl ⟨rfl, serves⟩
  | .changes [] cursor, serves, ends =>
    obtain ⟨lower, same⟩ := ends cursor rfl
    subst same
    refine .inr ⟨rfl, lower, fun change asks => ?_⟩
    rcases serves change asks with member | ⟨full, -⟩
    · cases member
    · exact absurd full (by decide)

theorem watching_read {service : Service} (held : Delivery.Invariant service)
    {unsignalled version : Nat} {wait : Wait}
    (watching : Watching service unsignalled version wait) {answer : Page}
    (answered : service.feed.after wait.cursor wait.kinds = .ok answer) :
    Watching service unsignalled version (wait.receive answer) := by
  obtain ⟨_, same, served | slept⟩ := receive_cases held watching
  all_goals rw [answered] at same; cases same
  · rw [served.1]
    exact ⟨watching.reached, watching.bound, watching.quiet, watching.seen, by simp, by simp⟩
  · obtain ⟨sleeps, lower, none⟩ := slept
    rw [sleeps]
    exact ⟨watching.reached.trans lower, .inr le_rfl, fun change asks => absurd asks (none change),
      watching.seen, fun _ => ⟨le_rfl, fun ⟨change, asks⟩ => absurd asks (none change)⟩, by simp⟩

theorem invariant_step {state next : Poll} {event : Event} (held : Invariant state)
    (taken : step state event = some next) : Invariant next := by
  cases event with
  | service action =>
    simp only [step, Option.map_eq_some_iff] at taken
    obtain ⟨service, acted, rfl⟩ := taken
    exact ⟨Delivery.invariant_step held.service acted, fun wait waits =>
      watching_service held.service (held.watching wait waits) acted⟩
  | signal =>
    simp only [step, Option.ite_none_left_eq_some] at taken
    cases taken.2
    refine ⟨held.service, fun wait waits => ?_⟩
    have watching := held.watching wait waits
    have seen := watching.seen
    exact ⟨watching.reached, watching.bound, watching.quiet, Nat.le_succ_of_le seen,
      fun sleeps => ⟨(watching.asleep sleeps).1, fun _ => .inr (Nat.lt_succ_of_le seen).ne⟩,
      watching.onTimer⟩
  | subscribe cursor kinds =>
    simp only [step, Option.ite_none_left_eq_some] at taken
    cases taken.2
    refine ⟨held.service, ?_⟩
    rintro wait ⟨⟩
    exact ⟨le_rfl, .inl rfl, fun change asks => asks.2.2, le_rfl, by simp, by simp⟩
  | read fails =>
    simp only [step, Option.bind_eq_some_iff, Option.ite_none_left_eq_some] at taken
    obtain ⟨wait, waits, -, taken⟩ := taken
    have watching := held.watching wait waits
    obtain ⟨answer, answered, -⟩ := after_serves held.service watching
    have failed : Watching state.service state.unsignalled state.version
        { wait with phase := .failed } :=
      ⟨watching.reached, watching.bound, watching.quiet, watching.seen, by simp, by simp⟩
    rw [answered] at taken
    split at taken <;> cases taken <;> refine ⟨held.service, ?_⟩ <;> rintro _ ⟨⟩
    · exact failed
    · exact watching_read held.service watching answered
  | wake =>
    simp only [step, Option.bind_eq_some_iff, Option.ite_none_right_eq_some] at taken
    obtain ⟨wait, waits, -, taken⟩ := taken
    cases taken
    have watching := held.watching wait waits
    refine ⟨held.service, ?_⟩
    rintro _ ⟨⟩
    exact ⟨watching.reached, watching.bound, watching.quiet, le_rfl, by simp, by simp⟩
  | deadline =>
    cases taken
    exact ⟨held.service, held.watching⟩
  | timer =>
    simp only [step, Option.bind_eq_some_iff, Option.ite_none_right_eq_some] at taken
    obtain ⟨wait, waits, -, taken⟩ := taken
    cases taken
    have watching := held.watching wait waits
    refine ⟨held.service, ?_⟩
    rintro _ ⟨⟩
    refine ⟨watching.reached, watching.bound, watching.quiet, watching.seen, by simp, ?_⟩
    rintro _ ⟨⟩
    rfl

/-- What is still to happen for a wait to answer without its timer: the signals of the commits
so far and a wake of it, and its next read. -/
def untimed (state : Poll) (wait : Wait) : List Event :=
  match wait.phase with
  | .asleep => List.replicate state.unsignalled .signal ++ [.wake, .read false]
  | _ => [.read false]

theorem signals_run (state : Poll) :
    run step state (List.replicate state.unsignalled .signal) =
      some { state with unsignalled := 0, version := state.version + state.unsignalled } := by
  obtain ⟨service, unsignalled, version, isPast, wait⟩ := state
  induction unsignalled generalizing version with
  | zero => rfl
  | succ unsignalled ih =>
    have rest := ih (version + 1)
    rw [Nat.add_assoc, Nat.add_comm 1] at rest
    exact rest

theorem read_answers {state : Poll} (held : Invariant state) {wait : Wait}
    (waits : state.wait = some wait) (reading : wait.phase = .reading)
    (asked : ∃ change, AskedFor state.service wait change) :
    ∃ answer, state.service.feed.after wait.cursor wait.kinds = .ok answer ∧
      step state (.read false) =
        some { state with wait := some { wait with phase := .answered answer false } } ∧
      ∀ change, AskedFor state.service wait change → Serves change answer := by
  obtain ⟨answer, answered, served | slept⟩ := receive_cases held.service (held.watching wait waits)
  · refine ⟨answer, answered, ?_, served.2⟩
    simp [step, waits, reading, answered, served.1]
  · obtain ⟨change, asks⟩ := asked
    exact absurd asks (slept.2.2 change)

theorem answers_untimed {state : Poll} (held : Invariant state) {wait : Wait}
    (waits : state.wait = some wait) (waiting : wait.phase = .reading ∨ wait.phase = .asleep)
    (asked : ∃ change, AskedFor state.service wait change) :
    ∃ done answered answer, run step state (untimed state wait) = some done ∧
      done.wait = some answered ∧ answered.phase = .answered answer false ∧
      ∀ change, AskedFor state.service wait change → Serves change answer := by
  rcases waiting with reading | asleep
  · obtain ⟨answer, -, read, serves⟩ := read_answers held waits reading asked
    refine ⟨{ state with wait := some { wait with phase := .answered answer false } }, _, answer,
      ?_, rfl, rfl, serves⟩
    rw [untimed, reading, run_cons]
    exact ⟨_, read, rfl⟩
  · -- Once every commit has signalled, the receiver is behind.
    have watching := held.watching wait waits
    have behind : wait.seen ≠ state.version + state.unsignalled := by
      have seen := watching.seen
      rcases (watching.asleep asleep).2 asked with owed | missed <;> omega
    let signalled : Poll :=
      { state with unsignalled := 0, version := state.version + state.unsignalled }
    have signals := signals_run state
    have kept := invariant_run_free (fun _ _ _ => invariant_step) held signals
    have woken : step signalled .wake = some { signalled with
        wait := some { wait with seen := signalled.version, phase := .reading } } := by
      simp [step, signalled, waits, asleep, behind]
    obtain ⟨answer, -, read, serves⟩ := read_answers (invariant_step kept woken) rfl rfl asked
    let awake : Wait := { wait with seen := signalled.version, phase := .reading }
    refine ⟨{ signalled with wait := some { awake with phase := .answered answer false } }, _,
      answer, ?_, rfl, rfl, serves⟩
    rw [untimed, asleep, run_append]
    refine ⟨signalled, signals, ?_⟩
    rw [run_cons]
    refine ⟨_, woken, ?_⟩
    rw [run_cons]
    exact ⟨_, read, rfl⟩

/-- What a later state still has of a wait: all it was asked for, and in an answer a read
gave, the changes that were committed when it waited. -/
structure Carries (service : Service) (wait : Wait) (state : Poll) (final : Wait) : Prop where
  waits : state.wait = some final
  asked : final.asked = wait.asked
  kinds : final.kinds = wait.kinds
  committed : ∀ change, AskedFor service wait change → AskedFor state.service final change
  answered : ∀ answer, final.phase = .answered answer false →
    ∀ change, AskedFor service wait change → Serves change answer

theorem Carries.moved {service : Service} {wait final moved : Wait} {state next : Poll}
    (carries : Carries service wait state final) (waits : next.wait = some moved)
    (same : next.service = state.service) (asked : moved.asked = final.asked)
    (kinds : moved.kinds = final.kinds)
    (phase : ∀ answer, moved.phase = .answered answer false → moved.phase = final.phase) :
    Carries service wait next moved where
  waits := waits
  asked := asked.trans carries.asked
  kinds := kinds.trans carries.kinds
  committed := by
    intro change asks
    obtain ⟨member, wants, above⟩ := carries.committed change asks
    exact ⟨same ▸ member, kinds ▸ wants, asked ▸ above⟩
  answered := fun answer done => carries.answered answer ((phase answer done).symm.trans done)

theorem carries_step {service : Service} {wait final : Wait} {state next : Poll} {event : Event}
    (held : Invariant state) (carries : Carries service wait state final)
    (taken : step state event = some next) : ∃ later, Carries service wait next later := by
  have waits := carries.waits
  cases event with
  | service action =>
    simp only [step, Option.map_eq_some_iff] at taken
    obtain ⟨acted, taken, rfl⟩ := taken
    obtain ⟨recorded, committed, -⟩ := committed_step held.service taken
    refine ⟨final, waits, carries.asked, carries.kinds, fun change asks => ?_, carries.answered⟩
    obtain ⟨member, wants, above⟩ := carries.committed change asks
    exact ⟨committed ▸ List.mem_append_left _ member, wants, above⟩
  | signal =>
    simp only [step, Option.ite_none_left_eq_some] at taken
    cases taken.2
    exact ⟨final, carries.moved waits rfl rfl rfl fun _ _ => rfl⟩
  | subscribe cursor kinds => simp [step, waits] at taken
  | read fails =>
    simp only [step, waits, Option.bind_some, Option.ite_none_left_eq_some] at taken
    obtain ⟨-, taken⟩ := taken
    obtain ⟨answer, answered, effect⟩ :=
      receive_cases held.service (held.watching final waits)
    rw [answered] at taken
    split at taken <;> cases taken
    · exact ⟨_, carries.moved rfl rfl rfl rfl (by simp)⟩
    · rcases effect with ⟨received, serves⟩ | ⟨received, -⟩
      all_goals rw [received]
      · refine ⟨_, rfl, carries.asked, carries.kinds, fun change asks => ?_, ?_⟩
        · exact carries.committed change asks
        · rintro _ ⟨⟩ change asks
          exact serves change (carries.committed change asks)
      · exact ⟨_, carries.moved rfl rfl rfl rfl (by simp)⟩
  | wake =>
    simp only [step, waits, Option.bind_some, Option.ite_none_right_eq_some] at taken
    cases taken.2
    exact ⟨_, carries.moved rfl rfl rfl rfl (by simp)⟩
  | deadline =>
    cases taken
    exact ⟨final, carries.moved waits rfl rfl rfl fun _ _ => rfl⟩
  | timer =>
    simp only [step, waits, Option.bind_some, Option.ite_none_right_eq_some] at taken
    cases taken.2
    exact ⟨_, carries.moved rfl rfl rfl rfl (by simp)⟩

theorem carries_run {service : Service} {wait final : Wait} {state finish : Poll}
    {events : List Event} (held : Invariant state) (carries : Carries service wait state final)
    (reached : run step state events = some finish) :
    ∃ later, Carries service wait finish later := by
  induction events generalizing state final with
  | nil =>
    cases reached
    exact ⟨final, carries⟩
  | cons event rest ih =>
    obtain ⟨next, taken, later⟩ := (run_cons step _ _ _ _).mp reached
    obtain ⟨moved, carries⟩ := carries_step held carries taken
    exact ih (invariant_step held taken) carries later

/-- Whatever happens while a wait goes on: an answer a read gives it serves every change it
was asked for; as long as it has none, the signals still owed, a wake and a read give it one;
and the empty page it answers on its timer has passed none of them, so that the next read
from its cursor serves them. -/
theorem a_long_poll_loses_no_wakeup {before later : List Event} {state finish : Poll} {wait : Wait}
    (reached : run step Poll.initial before = some state) (waits : state.wait = some wait)
    (waiting : wait.phase = .reading ∨ wait.phase = .asleep)
    (continued : run step state later = some finish) :
    ∃ final, finish.wait = some final ∧ final.asked = wait.asked ∧ final.kinds = wait.kinds ∧
      (∀ answer, final.phase = .answered answer false →
        ∀ change, AskedFor state.service wait change → Serves change answer) ∧
      ((∃ change, AskedFor finish.service final change) →
        final.phase = .reading ∨ final.phase = .asleep →
        ∃ done answered answer, run step finish (untimed finish final) = some done ∧
          done.wait = some answered ∧ answered.phase = .answered answer false ∧
          ∀ change, AskedFor finish.service final change → Serves change answer) ∧
      (∀ answer, final.phase = .answered answer true →
        ∃ cursor following, answer = .changes [] cursor ∧
          finish.service.feed.after cursor final.kinds = .ok following ∧
          ∀ change, AskedFor finish.service final change →
            cursor < change.cursor ∧ Serves change following) := by
  have held := invariant_run_free (fun _ _ _ => invariant_step) invariant_initial reached
  have begun : Carries state.service wait state wait :=
    ⟨waits, rfl, rfl, fun _ asks => asks, fun answer done => by simp [done] at waiting⟩
  obtain ⟨final, carries⟩ := carries_run held begun continued
  have kept := invariant_run_free (fun _ _ _ => invariant_step) held continued
  have watching := kept.watching final carries.waits
  refine ⟨final, carries.waits, carries.asked, carries.kinds, carries.answered,
    fun asked waiting => answers_untimed kept carries.waits waiting asked, fun answer timed => ?_⟩
  obtain ⟨following, answered, serves, -⟩ := after_serves kept.service watching
  exact ⟨final.cursor, following, watching.onTimer answer timed, answered, fun change asks =>
    ⟨watching.quiet change asks, serves change asks⟩⟩

/-- A wait subscribes, sleeps, misses a commit of another kind and is woken by one of its own. -/
theorem a_wait_sleeps_until_its_kind : ∃ wait final answer,
    (run step Poll.initial [.subscribe 0 [.planChanged]]).bind Poll.wait = some wait ∧
    (run step Poll.initial ([.subscribe 0 [.planChanged]] ++
      [.read false, .service .begin, .service (.record .usage 0), .service .commit, .signal, .wake,
        .read false, .service .begin, .service (.record (.plan 4) 0), .service .commit, .signal,
        .wake, .read false])).bind Poll.wait = some final ∧
    final.phase = .answered answer false ∧
    (∀ change, AskedFor Poll.initial.service wait change → Serves change answer) ∧
    answer = .changes [⟨2, 0, .plan 4⟩] 2 := by
  obtain ⟨final, waits, -, -, serves, -⟩ := @a_long_poll_loses_no_wakeup
    [.subscribe 0 [.planChanged]]
    [.read false, .service .begin, .service (.record .usage 0), .service .commit, .signal, .wake,
      .read false, .service .begin, .service (.record (.plan 4) 0), .service .commit, .signal,
      .wake, .read false]
    _ _ ⟨0, [.planChanged], 0, 0, .reading⟩ rfl rfl (.inl rfl) rfl
  cases waits
  exact ⟨_, _, _, rfl, rfl, rfl, serves _ rfl, rfl⟩

theorem records_run (state : Poll) {writer : Writer} (writes : state.service.writer = some writer)
    (count : Nat) :
    ∃ written : Writer,
      run step state (List.replicate count (.service (.record .usage 0))) =
        some { state with service := { state.service with writer := some written } } ∧
      written.recorded.length = writer.recorded.length + count ∧
      written.feed.prunedThrough = writer.feed.prunedThrough := by
  induction count generalizing state writer with
  | zero =>
    refine ⟨writer, ?_, rfl, rfl⟩
    rw [← writes]
    rfl
  | succ count ih =>
    let change := writer.feed.next .usage 0
    let written : Writer := ⟨writer.feed.record .usage 0, writer.recorded ++ [change]⟩
    let next : Poll := { state with service := { state.service with writer := some written } }
    have recorded : step state (.service (.record .usage 0)) = some next := by
      simp [step, Delivery.step, writes, marked, next, written, change]
    obtain ⟨final, rest, length, horizon⟩ := @ih next written rfl
    refine ⟨final, ?_, ?_, horizon⟩
    · rw [List.replicate_succ, run_cons]
      exact ⟨next, recorded, rest⟩
    · rw [length, List.length_append, List.length_singleton]
      omega

/-- A commit of one more change than a page holds: the answer leaves one out, before the
deadline. -/
theorem a_full_page_leaves_a_change_out : ∃ state wait changes cursor change,
    run step Poll.initial ([.subscribe 0 [], .service .begin] ++
      List.replicate (page + 1) (.service (.record .usage 0)) ++
      [.service .commit, .signal, .read false]) = some state ∧
    state.isPast = false ∧ state.wait = some wait ∧
    wait.phase = .answered (.changes changes cursor) false ∧
    AskedFor state.service wait change ∧ change ∉ changes := by
  let wait : Wait := ⟨0, [], 0, 0, .reading⟩
  let opened : Poll :=
    { Poll.initial with
      service := { Service.initial with writer := some ⟨Feed.empty, []⟩ }, wait := some wait }
  obtain ⟨written, records, length, horizon⟩ := records_run opened rfl (page + 1)
  let service : Service :=
    { Service.initial with feed := written.feed, committed := written.recorded }
  let signalled : Poll := { opened with service := service, version := 1 }
  have wrote : written.recorded ≠ [] := by
    rw [← List.length_pos_iff, length]
    decide
  have recorded := (run_append step Poll.initial _ [.subscribe 0 [], .service .begin] _).mpr
    ⟨opened, rfl, records⟩
  have before : run step Poll.initial ([.subscribe 0 [], .service .begin] ++
      List.replicate (page + 1) (.service (.record .usage 0)) ++ [.service .commit, .signal]) =
        some signalled := by
    rw [run_append]
    refine ⟨_, recorded, ?_⟩
    simp [run, step, Delivery.step, marked, wrote, opened, signalled, service, Poll.initial,
      Service.initial]
  have held := invariant_run_free (fun _ _ _ => invariant_step) invariant_initial before
  have keeps : Keeps written.feed written.recorded := held.service.keeps
  have writing := (invariant_run_free (fun _ _ _ => invariant_step) invariant_initial
    recorded).service.writing written rfl
  have asked (change : Change) (member : change ∈ written.recorded) :
      AskedFor service wait change := ⟨member, rfl, writing.fresh change member⟩
  obtain ⟨first, committed⟩ := List.exists_mem_of_ne_nil _ wrote
  obtain ⟨answer, answered, read, -⟩ :=
    @read_answers signalled held wait rfl rfl ⟨first, asked first committed⟩
  obtain ⟨changes, cursor, answers, -⟩ := after_covered keeps horizon.le (Nat.zero_le _) []
  obtain rfl := Except.ok.inj (answered.symm.trans answers)
  have short := length_after_le keeps horizon.le (Nat.zero_le _) answers
  have left : ∃ change ∈ written.recorded, change ∉ changes := by
    by_contra! all
    have distinct : written.recorded.Nodup := keeps.ordered.imp fun lower same => by
      rw [same] at lower
      exact lt_irrefl _ lower
    have fits := (List.subperm_of_subset distinct all).length_le
    rw [length] at fits
    exact absurd (fits.trans short) (by decide)
  obtain ⟨change, member, absent⟩ := left
  let final : Wait := { wait with phase := .answered (.changes changes cursor) false }
  refine ⟨{ signalled with wait := some final }, final, changes, cursor, change, ?_, rfl, rfl, rfl,
    asked change member, absent⟩
  have whole := (run_append step Poll.initial _ _ [.read false]).mpr
    ⟨signalled, before, (run_cons step _ _ _ _).mpr ⟨_, read, rfl⟩⟩
  rw [List.append_assoc] at whole
  exact whole

end MeteredUsage.Changes.LongPoll

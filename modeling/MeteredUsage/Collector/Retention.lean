import MeteredUsage.Collector.Cliproxy
import Mathlib.Algebra.Order.Group.Multiset
import Mathlib.Data.List.TakeWhile
import Mathlib.Tactic.Abel

/-! What the collector holds of what it has read: every payload is committed, unsaved or in
the hands of the live session, as long as no session ends with payloads in its hands. -/

namespace MeteredUsage.Collector.Retention
open MeteredUsage.Values MeteredUsage.Library.Execution MeteredUsage.Collector.Cliproxy

def hand : Reader → List Payload
  | .sending (.payload bytes) => [bytes]
  | _ => []

/-- The pushed payloads between the subscription and `unsaved`. -/
def waiting (session : Session) : List Payload :=
  session.channel.filterMap Arrival.read ++ hand session.reader

/-- The popped payloads whose answer is still being read. -/
def popped : Stage → List Payload
  | .reading read _ => read.filterMap Frame.payload
  | _ => []

def held (intake : Intake) : List Payload :=
  match intake.session with
  | some session => popped session.stage ++ waiting session
  | none => []

section
variable (decode : Payload → Except String Json)

/-- The payloads among these that are no notice, as they are kept. -/
def records (payloads : List Payload) : Multiset Kept := payloads.filterMap (kept decode)

/-- Every payload read that is no notice is committed, unsaved or held by the live session. -/
def NothingLost (intake : Intake) : Prop :=
  records decode intake.received =
    (intake.committed : Multiset Kept) + intake.unsaved + records decode (held intake)

/-- When a commit, the progress or the popper fails, nothing but notices waits in the channel,
in the reader's hand or in an answer half read; when a popped answer is malformed, nothing
but notices follows in it or waits. -/
def Drained (intake : Intake) : Event → Prop
  | .store .unannounced | .store .failed | .popperFails => records decode (held intake) = 0
  | .keepPopped => ∀ session ∈ intake.session, ∀ read, session.stage = .reading read [] →
      (∃ frame ∈ read, frame.payload = none) →
        records decode (trailing read ++ waiting session) = 0
  | _ => True

/-- Nothing follows a failure through the channel. -/
structure Ordered (session : Session) : Prop where
  live : session.reader ≠ .stopped → .failure ∉ session.channel
  last : .failure ∉ session.channel.dropLast

structure Invariant (intake : Intake) : Prop where
  balanced : NothingLost decode intake
  ordered : ∀ session ∈ intake.session, Ordered session

variable {decode}

theorem records_append (first second : List Payload) :
    records decode (first ++ second) = records decode first + records decode second := by
  rw [records, List.filterMap_append, ← Multiset.coe_add]
  rfl

theorem records_nil : records decode [] = 0 := rfl

theorem coe_keep (unsaved : List Kept) (payload : Payload) :
    (keep decode unsaved payload : Multiset Kept) = unsaved + records decode [payload] := by
  rw [keep, ← Multiset.coe_add, records]
  cases found : kept decode payload <;> simp [found]

theorem coe_keep_foldl (payloads : List Payload) (unsaved : List Kept) :
    ((payloads.foldl (keep decode) unsaved : List Kept) : Multiset Kept) = unsaved + records decode payloads := by
  induction payloads generalizing unsaved with
  | nil => rw [records_nil, add_zero, List.foldl_nil]
  | cons payload rest ih =>
    rw [List.foldl_cons, ih, coe_keep, add_assoc, ← records_append]
    rfl

theorem leading_append_trailing (frames : List Frame) :
    leading frames ++ trailing frames = frames.filterMap Frame.payload := by
  rw [leading, trailing, ← List.filterMap_append, List.takeWhile_append_dropWhile]

/-- Of an answer without a malformed element everything is kept. -/
theorem trailing_eq_nil {frames : List Frame} (sound : ∀ frame ∈ frames, frame.payload.isSome) :
    trailing frames = [] := by
  have empty : frames.dropWhile (fun frame => frame.payload.isSome) = [] :=
    List.dropWhile_eq_nil_iff.mpr sound
  rw [trailing, empty]
  rfl

/-- The session waits for what is pushed. -/
def Receives (intake : Intake) (session : Session) : Prop :=
  session.stage = .receiving ∨ session.stage = .batching ∧ intake.unsaved.length < batchRecords

/-- What each event does, where it is taken. -/
inductive Took (decode : Payload → Except String Json) (intake : Intake) : Event → Intake → Prop
  | published (payload : Payload) (buffered : List Payload) (subscription : Option (List Payload)) :
    Took decode intake (.publish payload) { intake with buffered := buffered, subscription := subscription }
  | subscribed : Took decode intake .subscribe { intake with subscription := some [] }
  | spawned (absent : intake.session = none) :
    Took decode intake .spawn { intake with session := some ⟨.reading, [], .resuming⟩ }
  | refused : Took decode intake .refuse { intake with subscription := none }
  | pushed (session : Session) (payload : Payload) (pushes : List Payload) (live : intake.session = some session)
    (reader : session.reader = .reading) :
    Took decode intake .push { intake with
      subscription := some pushes
      session := some { session with reader := .sending (.payload payload) }
      received := intake.received ++ [payload] }
  | broke (session : Session) (live : intake.session = some session) (reader : session.reader = .reading) :
    Took decode intake .pushFails { intake with session := some { session with reader := .sending .failure } }
  | sent (session : Session) (arrival : Arrival) (live : intake.session = some session)
    (reader : session.reader = .sending arrival) :
    Took decode intake .send { intake with session := some { session with
      channel := session.channel ++ [arrival]
      reader := if arrival = .failure then .stopped else .reading } }
  | stored (session : Session) (stage : Stage) (outcome : Stored) (next : Intake)
    (live : intake.session = some session) (follows : session.stage.stored = some stage)
    (taken : store intake session stage outcome = some next) : Took decode intake (.store outcome) next
  | connected (session : Session) (live : intake.session = some session) (stage : session.stage = .connecting) :
    Took decode intake .connect (intake.advance session .popping)
  | answered (session : Session) (frames : List Frame) (buffered : List Payload)
    (live : intake.session = some session) (stage : session.stage = .popping) :
    Took decode intake (.answer frames)
      ({ intake with buffered := buffered }.advance session (.reading [] frames))
  | read (session : Session) (before : List Frame) (frame : Frame) (left : List Frame)
    (live : intake.session = some session) (stage : session.stage = .reading before (frame :: left)) :
    Took decode intake .element ({ intake with received := intake.received ++ frame.payload.toList }.advance session
      (.reading (before ++ [frame]) left))
  | nothing (session : Session) (live : intake.session = some session) (stage : session.stage = .reading [] []) :
    Took decode intake .keepPopped (intake.advance session .receiving)
  | malformed (session : Session) (frames : List Frame) (live : intake.session = some session)
    (stage : session.stage = .reading frames []) (broken : ∃ frame ∈ frames, frame.payload = none) :
    Took decode intake .keepPopped
      ({ intake with unsaved := (leading frames).foldl (keep decode) intake.unsaved }.close)
  | whole (session : Session) (frames : List Frame) (live : intake.session = some session)
    (stage : session.stage = .reading frames []) (sound : ∀ frame ∈ frames, frame.payload.isSome) :
    Took decode intake .keepPopped
      ({ intake with unsaved := (leading frames).foldl (keep decode) intake.unsaved }.advance session .storing)
  | failed : Took decode intake .popperFails intake.close
  | received (session : Session) (payload : Payload) (rest : List Arrival) (live : intake.session = some session)
    (receives : Receives intake session) (channel : session.channel = .payload payload :: rest) :
    Took decode intake .receive ({ intake with unsaved := keep decode intake.unsaved payload }.advance
      { session with channel := rest } .batching)
  | broken (session : Session) (rest : List Arrival) (live : intake.session = some session)
    (receives : Receives intake session) (channel : session.channel = .failure :: rest) :
    Took decode intake .receive intake.close
  | ended (session : Session) (live : intake.session = some session) (receives : Receives intake session)
    (channel : session.channel = []) (stopped : session.reader = .stopped) :
    Took decode intake .receive intake.close
  | flushed (session : Session) (live : intake.session = some session) (stage : session.stage = .batching) :
    Took decode intake .flush (intake.advance session .flushing)

theorem took_keepPopped {intake next : Intake} (taken : step decode intake .keepPopped = some next) :
    Took decode intake .keepPopped next := by
  simp only [step, Option.bind_eq_some_iff] at taken
  obtain ⟨session, live, taken⟩ := taken
  split at taken
  next frames stage =>
    split at taken
    next empty =>
      cases taken
      exact .nothing session live (empty ▸ stage)
    next =>
      split at taken
      next broken =>
        cases taken
        exact .malformed session frames live stage (by simpa using broken)
      next sound =>
        cases taken
        refine .whole session frames live stage fun frame member => ?_
        by_contra missing
        exact sound (List.any_eq_true.mpr ⟨frame, member, by simpa using missing⟩)
  next => cases taken

theorem took_receive {intake next : Intake} (taken : step decode intake .receive = some next) :
    Took decode intake .receive next := by
  simp only [step, Option.bind_eq_some_iff, Option.ite_none_right_eq_some] at taken
  obtain ⟨session, live, receives, taken⟩ := taken
  split at taken
  next payload rest channel =>
    cases taken
    exact .received session payload rest live receives channel
  next rest channel =>
    cases taken
    exact .broken session rest live receives channel
  next channel =>
    simp only [Option.ite_none_right_eq_some] at taken
    obtain ⟨stopped, taken⟩ := taken
    cases taken
    exact .ended session live receives channel stopped

theorem took_of_step {intake next : Intake} {event : Event} (taken : step decode intake event = some next) :
    Took decode intake event next := by
  cases event with
  | publish payload =>
    simp only [step] at taken
    split at taken <;> cases taken <;> exact .published payload _ _
  | subscribe =>
    simp only [step, Option.ite_none_left_eq_some] at taken
    cases taken.2
    exact .subscribed
  | spawn =>
    simp only [step, Option.ite_none_left_eq_some, not_or] at taken
    obtain ⟨⟨absent, -⟩, taken⟩ := taken
    cases taken
    exact .spawned (Option.not_isSome_iff_eq_none.mp absent)
  | refuse =>
    simp only [step, Option.ite_none_left_eq_some] at taken
    cases taken.2
    exact .refused
  | push =>
    simp only [step, Option.bind_eq_some_iff] at taken
    obtain ⟨session, live, taken⟩ := taken
    split at taken
    next payload pushes reader subscription =>
      cases taken
      exact .pushed session payload pushes live reader
    next => cases taken
  | pushFails =>
    simp only [step, Option.bind_eq_some_iff, Option.ite_none_right_eq_some] at taken
    obtain ⟨session, live, reader, taken⟩ := taken
    cases taken
    exact .broke session live reader
  | send =>
    simp only [step, Option.bind_eq_some_iff] at taken
    obtain ⟨session, live, taken⟩ := taken
    split at taken
    next arrival reader =>
      simp only [Option.ite_none_right_eq_some] at taken
      cases taken.2
      exact .sent session arrival live reader
    next => cases taken
  | store outcome =>
    simp only [step, Option.bind_eq_some_iff] at taken
    obtain ⟨session, live, stage, follows, taken⟩ := taken
    exact .stored session stage outcome next live follows taken
  | connect =>
    simp only [step, Option.bind_eq_some_iff, Option.ite_none_right_eq_some] at taken
    obtain ⟨session, live, stage, taken⟩ := taken
    cases taken
    exact .connected session live stage
  | answer frames =>
    simp only [step, Option.bind_eq_some_iff, Option.ite_none_right_eq_some] at taken
    obtain ⟨session, live, ⟨stage, -⟩, taken⟩ := taken
    cases taken
    exact .answered session frames _ live stage
  | element =>
    simp only [step, Option.bind_eq_some_iff] at taken
    obtain ⟨session, live, taken⟩ := taken
    split at taken
    next before frame left stage =>
      cases taken
      exact .read session before frame left live stage
    next => cases taken
  | keepPopped => exact took_keepPopped taken
  | popperFails =>
    simp only [step, Option.bind_eq_some_iff] at taken
    obtain ⟨session, live, taken⟩ := taken
    split at taken <;> cases taken <;> exact .failed
  | receive => exact took_receive taken
  | flush =>
    simp only [step, Option.bind_eq_some_iff, Option.ite_none_right_eq_some] at taken
    obtain ⟨session, live, stage, taken⟩ := taken
    cases taken
    exact .flushed session live stage

theorem nothingLost_close {intake : Intake} {dropped : List Payload}
    (balance : records decode intake.received =
      (intake.committed : Multiset Kept) + intake.unsaved + records decode dropped) :
    NothingLost decode intake.close ↔ records decode dropped = 0 := by
  have same : NothingLost decode intake.close ↔
      records decode intake.received = (intake.committed : Multiset Kept) + intake.unsaved + 0 :=
    Iff.rfl
  rw [same, balance]
  exact add_right_inj _

theorem nothingLost_of_held {intake next : Intake} (balanced : NothingLost decode intake)
    (received : next.received = intake.received) (committed : next.committed = intake.committed)
    (unsaved : next.unsaved = intake.unsaved)
    (same : records decode (held next) = records decode (held intake)) :
    NothingLost decode next := by
  unfold NothingLost at *
  rw [received, committed, unsaved, same]
  exact balanced

theorem nothingLost_read {intake next : Intake} {added : List Payload}
    (balanced : NothingLost decode intake) (received : next.received = intake.received ++ added)
    (committed : next.committed = intake.committed) (unsaved : next.unsaved = intake.unsaved)
    (holds : records decode (held next) = records decode (held intake) + records decode added) :
    NothingLost decode next := by
  unfold NothingLost at *
  rw [received, committed, unsaved, holds, records_append, balanced]
  abel

theorem held_eq {intake : Intake} {session : Session} (live : intake.session = some session) :
    held intake = popped session.stage ++ waiting session := by
  rw [held, live]

/-- `store` moves what is unsaved to what is committed, or closes with it as it was. -/
theorem nothingLost_store {intake next : Intake} {session : Session} {stage : Stage}
    {outcome : Stored} (balanced : NothingLost decode intake)
    (live : intake.session = some session) (idle : popped session.stage = [])
    (after : popped stage = [])
    (taken : store intake session stage outcome = some next) :
    NothingLost decode next ↔ Drained decode intake (.store outcome) := by
  cases outcome with
  | committed =>
    cases taken
    refine ⟨fun _ => trivial, fun _ => ?_⟩
    have same : records decode (held ({ intake with
        unsaved := [], committed := intake.committed ++ intake.unsaved }.advance session stage)) =
        records decode (held intake) := by
      rw [held_eq live, held_eq rfl, idle]
      exact congrArg (fun payloads => records decode (payloads ++ waiting session)) after
    unfold NothingLost at *
    rw [same]
    change records decode intake.received =
      ((intake.committed ++ intake.unsaved : List Kept) : Multiset Kept) + ([] : List Kept) + _
    rw [balanced, ← Multiset.coe_add, Multiset.coe_nil, add_zero]
  | unannounced =>
    simp only [store, Option.ite_none_left_eq_some] at taken
    obtain ⟨-, taken⟩ := taken
    cases taken
    apply nothingLost_close
    change records decode intake.received =
      ((intake.committed ++ intake.unsaved : List Kept) : Multiset Kept) + ([] : List Kept) + _
    unfold NothingLost at balanced
    rw [balanced, ← Multiset.coe_add, Multiset.coe_nil, add_zero]
  | failed =>
    simp only [store, Option.ite_none_left_eq_some] at taken
    obtain ⟨-, taken⟩ := taken
    cases taken
    exact nothingLost_close balanced

/-- The popped answer goes to `unsaved`, but for what follows a malformed element. -/
theorem balance_popped {intake : Intake} {session : Session} {frames : List Frame}
    (balanced : NothingLost decode intake) (live : intake.session = some session)
    (stage : session.stage = .reading frames []) :
    records decode intake.received = (intake.committed : Multiset Kept) +
      ((leading frames).foldl (keep decode) intake.unsaved : List Kept) +
        records decode (trailing frames ++ waiting session) := by
  unfold NothingLost at balanced
  rw [balanced, held_eq live, stage]
  change _ + records decode (frames.filterMap Frame.payload ++ _) = _
  rw [← leading_append_trailing, coe_keep_foldl, records_append, records_append, records_append]
  abel

theorem drained_keepPopped {intake : Intake} {session : Session} {frames : List Frame}
    (live : intake.session = some session) (stage : session.stage = .reading frames []) :
    Drained decode intake .keepPopped ↔ ((∃ frame ∈ frames, frame.payload = none) →
      records decode (trailing frames ++ waiting session) = 0) := by
  constructor
  · intro drained
    exact drained session live frames stage
  · intro drained other same again phase
    rw [live] at same
    cases same
    rw [stage] at phase
    cases phase
    exact drained

theorem popped_of_receives {intake : Intake} {session : Session} (receives : Receives intake session) :
    popped session.stage = [] := by
  rcases receives with stage | ⟨stage, -⟩ <;> rw [stage] <;> rfl

theorem nothingLost_received {intake : Intake} {session : Session} {payload : Payload} {rest : List Arrival}
    (balanced : NothingLost decode intake) (live : intake.session = some session)
    (idle : popped session.stage = []) (channel : session.channel = .payload payload :: rest) :
    NothingLost decode ({ intake with unsaved := keep decode intake.unsaved payload }.advance
      { session with channel := rest } .batching) := by
  have split : waiting session = payload :: waiting { session with channel := rest } := by
    simp only [waiting, channel]
    rfl
  unfold NothingLost at *
  rw [held_eq live, idle, split] at balanced
  change records decode intake.received = (intake.committed : Multiset Kept) +
    (keep decode intake.unsaved payload : List Kept) +
      records decode (waiting { session with channel := rest })
  rw [coe_keep, balanced, ← List.singleton_append, List.nil_append, records_append]
  abel

/-- A failure is the last thing the reader sends. -/
theorem waiting_failure {session : Session} {rest : List Arrival} (ordered : Ordered session)
    (channel : session.channel = .failure :: rest) : waiting session = [] := by
  have alone : rest = [] := by
    by_contra more
    apply ordered.last
    rw [channel, List.dropLast_cons_of_ne_nil more]
    exact List.mem_cons_self
  have stopped : session.reader = .stopped := by
    by_contra live
    apply ordered.live live
    rw [channel]
    exact List.mem_cons_self
  rw [waiting, channel, alone, stopped]
  rfl

theorem held_sent {intake : Intake} {session : Session} {arrival : Arrival}
    (live : intake.session = some session) (reader : session.reader = .sending arrival) :
    held { intake with session := some { session with
      channel := session.channel ++ [arrival]
      reader := if arrival = .failure then .stopped else .reading } } = held intake := by
  rw [held_eq live, held_eq rfl, waiting, waiting, reader]
  cases arrival with
  | payload bytes => simp [Arrival.read, hand]
  | failure => simp [Arrival.read, hand]

theorem popped_of_stored {session : Session} {stage : Stage} (follows : session.stage.stored = some stage) :
    popped session.stage = [] ∧ popped stage = [] := by
  cases phase : session.stage <;> simp [phase, Stage.stored] at follows <;> subst follows <;> exact ⟨rfl, rfl⟩

theorem records_read {intake : Intake} {session : Session} {before : List Frame} {frame : Frame}
    {left : List Frame} (live : intake.session = some session)
    (stage : session.stage = .reading before (frame :: left)) (received : List Payload) :
    records decode (held ({ intake with received := received }.advance session (.reading (before ++ [frame]) left))) =
      records decode (held intake) + records decode frame.payload.toList := by
  have split : popped (.reading (before ++ [frame]) left) =
      popped (.reading before (frame :: left)) ++ frame.payload.toList := by
    cases found : frame.payload <;> simp [popped, found]
  rw [held_eq live, held_eq rfl, stage, split, records_append, records_append, records_append]
  change _ + records decode (waiting session) = _
  abel

/-- What each step keeps and what it needs: nothing is lost after it exactly when it is
drained. -/
theorem nothingLost_step {intake next : Intake} {event : Event}
    (invariant : Invariant decode intake) (taken : step decode intake event = some next) :
    NothingLost decode next ↔ Drained decode intake event := by
  have balanced := invariant.balanced
  have stays {other : Intake} (received : other.received = intake.received)
      (committed : other.committed = intake.committed) (unsaved : other.unsaved = intake.unsaved)
      (same : held other = held intake) : NothingLost decode other ↔ True :=
    ⟨fun _ => trivial, fun _ =>
      nothingLost_of_held balanced received committed unsaved (congrArg (records decode) same)⟩
  have moves {session : Session} {stage : Stage} (live : intake.session = some session)
      (before : popped session.stage = []) (after : popped stage = []) :
      held (intake.advance session stage) = held intake := by
    rw [held_eq live, held_eq rfl, before]
    exact congrArg (fun payloads => payloads ++ waiting session) after
  cases took_of_step taken with
  | published payload buffered subscription => exact stays rfl rfl rfl rfl
  | subscribed => exact stays rfl rfl rfl rfl
  | spawned absent =>
    have empty : held intake = [] := by rw [held, absent]
    exact stays rfl rfl rfl empty.symm
  | refused => exact stays rfl rfl rfl rfl
  | pushed session payload pushes live reader =>
    refine ⟨fun _ => trivial, fun _ => nothingLost_read balanced rfl rfl rfl ?_⟩
    rw [held_eq live, held_eq rfl, waiting, waiting, reader, ← records_append]
    exact congrArg (records decode) (by simp [hand])
  | broke session live reader =>
    refine stays rfl rfl rfl ?_
    rw [held_eq live, held_eq rfl, waiting, waiting, reader]
    rfl
  | sent session arrival live reader => exact stays rfl rfl rfl (held_sent live reader)
  | stored session stage outcome next live follows taken =>
    obtain ⟨idle, after⟩ := popped_of_stored follows
    exact nothingLost_store balanced live idle after taken
  | connected session live stage => exact stays rfl rfl rfl (moves live (by rw [stage]; rfl) rfl)
  | answered session frames buffered live stage =>
    refine stays rfl rfl rfl ?_
    rw [held_eq live, stage]
    rfl
  | read session before frame left live stage =>
    exact ⟨fun _ => trivial, fun _ =>
      nothingLost_read balanced rfl rfl rfl (records_read live stage _)⟩
  | nothing session live stage =>
    rw [drained_keepPopped live stage]
    refine ⟨fun _ malformed => by simp at malformed, fun _ => ?_⟩
    have same : held (intake.advance session .receiving) = held intake :=
      moves live (by rw [stage]; rfl) rfl
    exact nothingLost_of_held balanced rfl rfl rfl (congrArg (records decode) same)
  | malformed session frames live stage broken =>
    rw [drained_keepPopped live stage, nothingLost_close (balance_popped balanced live stage)]
    exact ⟨fun drained _ => drained, fun drained => drained broken⟩
  | whole session frames live stage sound =>
    rw [drained_keepPopped live stage]
    refine ⟨fun _ malformed => ?_, fun _ => ?_⟩
    · obtain ⟨frame, member, missing⟩ := malformed
      have present := sound frame member
      rw [missing] at present
      cases present
    · have balance := balance_popped balanced live stage
      rw [trailing_eq_nil sound] at balance
      exact balance
  | failed => exact nothingLost_close balanced
  | received session payload rest live receives channel =>
    exact ⟨fun _ => trivial, fun _ => nothingLost_received balanced live (popped_of_receives receives) channel⟩
  | broken session rest live receives channel =>
    refine ⟨fun _ => trivial, fun _ => (nothingLost_close balanced).mpr ?_⟩
    rw [held_eq live, popped_of_receives receives, waiting_failure (invariant.ordered session live) channel]
    rfl
  | ended session live receives channel stopped =>
    refine ⟨fun _ => trivial, fun _ => (nothingLost_close balanced).mpr ?_⟩
    rw [held_eq live, popped_of_receives receives, waiting, channel, stopped]
    rfl
  | flushed session live stage => exact stays rfl rfl rfl (moves live (by rw [stage]; rfl) rfl)

theorem ordered_store {intake next : Intake} {session : Session} {stage : Stage} {outcome : Stored}
    (ordered : Ordered session) (taken : store intake session stage outcome = some next) :
    ∀ later ∈ next.session, Ordered later := by
  cases outcome with
  | committed =>
    cases taken
    intro later live
    cases live
    exact ⟨ordered.live, ordered.last⟩
  | unannounced | failed =>
    simp only [store, Option.ite_none_left_eq_some] at taken
    cases taken.2
    intro later live
    cases live

theorem Ordered.sent {session : Session} {arrival : Arrival} (ordered : Ordered session)
    (reader : session.reader = .sending arrival) (stage : Stage) :
    Ordered ⟨if arrival = .failure then .stopped else .reading, session.channel ++ [arrival], stage⟩ := by
  have clear := ordered.live (by simp [reader])
  refine ⟨fun running member => ?_, by simpa using clear⟩
  rcases List.mem_append.mp member with earlier | last
  · exact clear earlier
  · rw [← List.mem_singleton.mp last] at running
    exact running rfl

theorem Ordered.received {session : Session} {arrival : Arrival} {rest : List Arrival}
    (ordered : Ordered session) (channel : session.channel = arrival :: rest) (stage : Stage) :
    Ordered ⟨session.reader, rest, stage⟩ := by
  refine ⟨fun running member => ordered.live running ?_, fun member => ordered.last ?_⟩
  · rw [channel]
    exact List.mem_cons_of_mem _ member
  · rw [channel]
    cases rest with
    | nil => cases member
    | cons first others => exact List.mem_cons_of_mem _ member

theorem ordered_step {intake next : Intake} {event : Event}
    (ordered : ∀ session ∈ intake.session, Ordered session)
    (taken : step decode intake event = some next) :
    ∀ session ∈ next.session, Ordered session := by
  have turns {session : Session} (live : intake.session = some session) (reader : Reader)
      (reads : session.reader ≠ .stopped) (stage : Stage) :
      ∀ later ∈ some (⟨reader, session.channel, stage⟩ : Session), Ordered later := by
    rintro _ ⟨⟩
    exact ⟨fun _ => (ordered session live).live reads, (ordered session live).last⟩
  have advances {session : Session} (live : intake.session = some session) (stage : Stage) :
      ∀ later ∈ some { session with stage := stage }, Ordered later := by
    rintro _ ⟨⟩
    exact ⟨(ordered session live).live, (ordered session live).last⟩
  cases took_of_step taken with
  | published payload buffered subscription => exact ordered
  | subscribed => exact ordered
  | spawned absent =>
    rintro _ ⟨⟩
    exact ⟨by simp, by simp⟩
  | refused => exact ordered
  | pushed session payload pushes live reader => exact turns live _ (by simp [reader]) session.stage
  | broke session live reader => exact turns live _ (by simp [reader]) session.stage
  | sent session arrival live reader =>
    rintro _ ⟨⟩
    exact (ordered session live).sent reader session.stage
  | stored session stage outcome next live follows taken => exact ordered_store (ordered session live) taken
  | connected session live stage => exact advances live _
  | answered session frames buffered live stage => exact advances live _
  | read session before frame left live stage => exact advances live _
  | nothing session live stage => exact advances live _
  | malformed session frames live stage broken => exact nofun
  | whole session frames live stage sound => exact advances live _
  | failed => exact nofun
  | received session payload rest live receives channel =>
    rintro _ ⟨⟩
    exact (ordered session live).received channel .batching
  | broken session rest live receives channel => exact nofun
  | ended session live receives channel stopped => exact nofun
  | flushed session live stage => exact advances live _

theorem invariant_initial : Invariant decode Intake.initial :=
  ⟨rfl, by simp [Intake.initial]⟩

/-- Nothing the collector reads is lost throughout a run exactly when each of its sessions
ends drained. -/
theorem always_nothing_lost_iff (decode : Payload → Except String Json) (events : List Event) :
    Always (step decode) (NothingLost decode) Intake.initial events ↔
      Meets (step decode) (Drained decode) Intake.initial events :=
  always_iff_meets (fun _ held => Invariant.balanced held)
    (fun _ _ _ held drained taken =>
      ⟨(nothingLost_step held taken).mpr drained, ordered_step held.ordered taken⟩)
    (fun _ _ _ held taken balanced => (nothingLost_step held taken).mp balanced)
    invariant_initial events

end

/-- The two bytes of an empty object are one, and no other text is looked at. -/
def emptyObject (payload : Payload) : Except String Json :=
  if payload = [0x7b, 0x7d] then .ok (.object []) else .error "expected value at line 1 column 1"

/-- A record is pushed and waits in the channel when the popper cannot connect. -/
def refusedPopper : List Event :=
  [.subscribe, .spawn, .publish [0x7b, 0x7d], .push, .send, .store .committed, .popperFails]

theorem a_pushed_record_is_lost :
    ∃ finish, run (step emptyObject) Intake.initial refusedPopper = some finish ∧
      ¬NothingLost emptyObject finish := by
  refine ⟨_, rfl, fun balanced => ?_⟩
  exact absurd (congrArg Multiset.card balanced) (by decide)

end MeteredUsage.Collector.Retention

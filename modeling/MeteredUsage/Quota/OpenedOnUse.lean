import Mathlib.Data.Int.ConditionallyCompleteOrder
import MeteredUsage.Library.GreedyWindows
import MeteredUsage.Quota.Predictions

/-! The window that holds now, for one that opens on use: the loop walks the windows that opened one
after another since the reset, each at the first successful request at or after the last one's end. -/

namespace MeteredUsage.Quota.OpenedOnUse
open MeteredUsage.Values MeteredUsage.Store.Schema MeteredUsage.Quota.Predictions
open MeteredUsage.Billing.Periods (isTimestamp)
open MeteredUsage.Library.GreedyWindows

/-- When an account was successfully used. -/
def requestsOf (tables : Tables) (id : AccountId) : Set Timestamp :=
  {instant | ∃ event ∈ tables.events, event.accountId = id ∧ event.failed = false ∧ event.occurredAt = instant}

/-- The end of a window: the hour of the request that opens it, and the length. -/
def closes (length : Int) (request : Timestamp) : Timestamp := request / hours 1 * hours 1 + length

/-- The successful requests from an instant on, which every round of the loop leaves fewer of. -/
def pending (tables : Tables) (id : AccountId) (since : Timestamp) : List UsageEvent :=
  tables.events.filter fun event => event.accountId = id && !event.failed && since ≤ event.occurredAt

variable {tables : Tables} {id : AccountId} {reset since now first : Timestamp} {length : Int}
  {close : Timestamp → Timestamp} {left : Nat}

theorem mem_between_iff {instant : Timestamp} :
    instant ∈ (tables.events.filter fun event => event.accountId = id && !event.failed &&
      since ≤ event.occurredAt && event.occurredAt ≤ now).map (·.occurredAt) ↔
        instant ∈ requestsOf tables id ∧ since ≤ instant ∧ instant ≤ now := by
  simp only [requestsOf, List.mem_map, List.mem_filter, Bool.and_eq_true, Bool.not_eq_true',
    decide_eq_true_eq, Set.mem_ofPred_eq]
  constructor
  · rintro ⟨event, ⟨stored, ⟨⟨account, success⟩, after⟩, before⟩, rfl⟩
    exact ⟨⟨event, stored, account, success, rfl⟩, after, before⟩
  · rintro ⟨⟨event, stored, account, success, rfl⟩, after, before⟩
    exact ⟨event, ⟨stored, ⟨⟨account, success⟩, after⟩, before⟩, rfl⟩

theorem firstSuccess_eq_none (none : firstSuccess tables id since now = none) :
    ∀ request ∈ requestsOf tables id, since ≤ request → now < request := by
  intro request member after
  by_contra before
  have listed := mem_between_iff.mpr ⟨member, after, not_lt.mp before⟩
  rw [firstSuccess, List.min?_eq_none_iff] at none
  rw [none] at listed
  cases listed

theorem firstSuccess_eq_some (found : firstSuccess tables id since now = some first) :
    Opens (requestsOf tables id) since first ∧ first ≤ now := by
  obtain ⟨member, least⟩ := List.min?_eq_some_iff.mp found
  obtain ⟨success, after, before⟩ := mem_between_iff.mp member
  refine ⟨⟨⟨success, after⟩, ?_⟩, before⟩
  rintro request ⟨also, later⟩
  rcases le_total request now with past | future
  · exact least request (mem_between_iff.mpr ⟨also, later, past⟩)
  · exact before.trans future

theorem pending_length_le : (pending tables id since).length ≤ tables.events.length :=
  List.length_filter_le _ _

/-- The request that opens a window is not pending once it ended. -/
theorem pending_lt {ends : Timestamp} (opens : Opens (requestsOf tables id) since first)
    (later : first < ends) : (pending tables id ends).length < (pending tables id since).length := by
  obtain ⟨⟨event, stored, account, success, rfl⟩, after⟩ := opens.1
  have fewer : pending tables id ends =
      (pending tables id since).filter fun event => ends ≤ event.occurredAt := by
    rw [pending, pending, List.filter_filter]
    apply List.filter_congr
    intro event _
    rw [Bool.eq_iff_iff]
    simp only [Bool.and_eq_true, decide_eq_true_eq]
    constructor
    · rintro ⟨successful, reached⟩
      exact ⟨reached, successful, (after.trans later.le).trans reached⟩
    · rintro ⟨reached, successful, _⟩
      exact ⟨successful, reached⟩
  rw [fewer, List.length_filter_lt_length_iff_exists]
  refine ⟨event, List.mem_filter.mpr ⟨stored, ?_⟩, ?_⟩
  · simp [account, success, after]
  · simpa using later

/-- A window that closes at no instant closes after every one. -/
theorem lt_of_not_isTimestamp {instant ends now : Int} (lower : isTimestamp instant = true)
    (later : instant < ends) (knows : isTimestamp now = true) (beyond : isTimestamp ends = false) : now < ends := by
  simp only [isTimestamp, Bool.and_eq_true, Bool.and_eq_false_iff, decide_eq_true_eq,
    decide_eq_false_iff_not, Timestamp] at lower knows beyond
  omega

/-- Where the loop stands and what it answers: the last end at or before now, and either no request
since or the window the first of them opened. -/
theorem openedOnUse_answers (knowsReset : isTimestamp reset = true) (knows : isTimestamp now = true)
    (closesLater : ∀ request ∈ requestsOf tables id, request < close request)
    (agrees : ∀ request ∈ requestsOf tables id, reset ≤ request → request ≤ now →
      close request = truncHour request + length)
    (ended : Ended (requestsOf tables id) close reset since) (past : since ≤ now)
    (enough : (pending tables id since).length < left) :
    ∃ last, LastEnd (requestsOf tables id) close reset now last ∧
      ((∀ request ∈ requestsOf tables id, last ≤ request → now < request) ∧
          openedOnUse left tables id since length now = some none ∨
        ∃ first, Opens (requestsOf tables id) last first ∧ first ≤ now ∧ now < close first ∧
          openedOnUse left tables id since length now =
            some (if isTimestamp (close first) then some (first, close first) else none)) := by
  induction left generalizing since with
  | zero => exact absurd enough (Nat.not_lt_zero _)
  | succ left ih =>
    unfold openedOnUse
    rcases Option.eq_none_or_eq_some (firstSuccess tables id since now) with none | ⟨first, found⟩
    · rw [none]
      have idle := firstSuccess_eq_none none
      refine ⟨since, lastEnd_of_ended closesLater ended past ?_, .inl ⟨idle, rfl⟩⟩
      rintro next ⟨first, opens, rfl⟩
      exact (idle first opens.1.1 opens.1.2).trans (closesLater first opens.1.1)
    · rw [found]
      obtain ⟨opens, begun⟩ := firstSuccess_eq_some found
      have after : reset ≤ first := (ended.le closesLater).trans opens.1.2
      have later : first < close first := closesLater first opens.1.1
      have sole (running : now < close first) :
          LastEnd (requestsOf tables id) close reset now since := by
        refine lastEnd_of_ended closesLater ended past ?_
        rintro next ⟨other, also, rfl⟩
        rw [also.unique opens]
        exact running
      simp only [← agrees first opens.1.1 after begun]
      rcases Bool.eq_false_or_eq_true (isTimestamp (close first)) with stored | beyond
      · rw [stored, Bool.not_true, if_neg Bool.false_ne_true]
        by_cases running : now < close first
        · rw [if_pos running]
          exact ⟨since, sole running, .inr ⟨first, opens, begun, running, by rw [stored, if_pos rfl]⟩⟩
        · rw [if_neg running]
          have fewer := pending_lt opens later
          exact ih (ended.tail ⟨first, opens, rfl⟩) (not_lt.mp running) (by omega)
      · rw [beyond, Bool.not_false, if_pos rfl]
        have reached : reset < close first := after.trans_lt later
        have running := lt_of_not_isTimestamp knowsReset reached knows beyond
        exact ⟨since, sole running, .inr ⟨first, opens, begun, running, by rw [beyond, if_neg Bool.false_ne_true]⟩⟩

/-- What the loop answers of a row of windows. -/
structure Walked (requests : Set Timestamp) (close : Timestamp → Timestamp) (reset now : Timestamp)
    (answer : Option (Timestamp × Timestamp)) : Prop where
  some_iff : ∀ first ends, answer = some (first, ends) ↔
    Holding requests close reset now first ends ∧ isTimestamp ends = true
  none_iff : answer = none ↔ ∃ last, LastEnd requests close reset now last ∧
    ((∀ request ∈ requests, last ≤ request → now < request) ∨
      ∃ first, Opens requests last first ∧ first ≤ now ∧ isTimestamp (close first) = false)

/-- Without a request since the last end no window holds now. -/
theorem walked_idle {requests : Set Timestamp} {last : Timestamp}
    (closesLater : ∀ request ∈ requests, request < close request)
    (greatest : LastEnd requests close reset now last)
    (idle : ∀ request ∈ requests, last ≤ request → now < request) : Walked requests close reset now none := by
  refine ⟨fun first ends => ⟨nofun, ?_⟩, fun _ => ⟨last, greatest, .inl idle⟩, fun _ => rfl⟩
  rintro ⟨holds, _⟩
  obtain ⟨last', greatest', opens⟩ := holds.after_lastEnd closesLater
  obtain rfl := greatest.unique greatest'
  exact absurd holds.begun (idle first opens.1.1 opens.1.2).not_ge

theorem walked_opened {requests : Set Timestamp} {last : Timestamp}
    (closesLater : ∀ request ∈ requests, request < close request)
    (greatest : LastEnd requests close reset now last) (opens : Opens requests last first)
    (begun : first ≤ now) (running : now < close first) :
    Walked requests close reset now (if isTimestamp (close first) then some (first, close first) else none) := by
  have holds : Holding requests close reset now first (close first) :=
    ⟨⟨last, greatest.1.1, opens⟩, rfl, begun, running⟩
  constructor
  · intro other ends
    constructor
    · intro answer
      split at answer
      next stored =>
        obtain ⟨rfl, rfl⟩ := Prod.mk.inj (Option.some.inj answer)
        exact ⟨holds, stored⟩
      next => cases answer
    · rintro ⟨also, stored⟩
      obtain ⟨rfl, rfl⟩ := holds.unique closesLater also
      rw [if_pos stored]
  · constructor
    · intro answer
      split at answer
      next => cases answer
      next beyond => exact ⟨last, greatest, .inr ⟨first, opens, begun, Bool.eq_false_of_not_eq_true beyond⟩⟩
    · rintro ⟨last', greatest', reason⟩
      obtain rfl := greatest.unique greatest'
      rcases reason with idle | ⟨other, also, _, beyond⟩
      · exact absurd begun (idle first opens.1.1 opens.1.2).not_ge
      · obtain rfl := opens.unique also
        rw [beyond, if_neg Bool.false_ne_true]

/-- The loop ends within as many rounds as there are events and one more, and answers the window of
the row that holds now. -/
theorem openedOnUse_walks (knowsReset : isTimestamp reset = true) (knows : isTimestamp now = true)
    (closesLater : ∀ request ∈ requestsOf tables id, request < close request)
    (agrees : ∀ request ∈ requestsOf tables id, reset ≤ request → request ≤ now →
      close request = truncHour request + length)
    (past : reset ≤ now) (enough : tables.events.length < left) :
    ∃ answer, openedOnUse left tables id reset length now = some answer ∧
      Walked (requestsOf tables id) close reset now answer := by
  obtain ⟨last, greatest, answers⟩ := openedOnUse_answers knowsReset knows closesLater agrees .refl past
    (pending_length_le.trans_lt enough)
  rcases answers with ⟨idle, answers⟩ | ⟨first, opens, begun, running, answers⟩
  · exact ⟨_, answers, walked_idle closesLater greatest idle⟩
  · exact ⟨_, answers, walked_opened closesLater greatest opens begun running⟩

theorem lt_closes {request length : Int} (long : hours 1 < length) : request < closes length request := by
  simp only [closes, hours, minutes, seconds, Timestamp] at long ⊢
  omega

/-- From 1970 on, and at a full hour before, the hour toward the epoch is the hour of a request. -/
theorem closes_eq {request length : Int} (dated : 0 ≤ request ∨ hours 1 ∣ request) :
    closes length request = truncHour request + length := by
  rcases dated with since | ⟨hour, rfl⟩
  · rw [closes, truncHour, Int.tdiv_eq_ediv_of_nonneg since]
  · simp [closes, truncHour, hours, minutes, seconds]

/-- The loop ends. It answers the window of the greedy row that holds now, unless that one ends at no
instant, and answers none exactly where no request came since the last end or where the window the
first one opened ends at no instant. -/
theorem opened_on_use_walks (long : hours 1 < length) (past : reset ≤ now)
    (instants : isTimestamp reset = true ∧ isTimestamp now = true)
    (dated : ∀ request ∈ requestsOf tables id, reset ≤ request → request ≤ now →
      0 ≤ request ∨ hours 1 ∣ request)
    (enough : tables.events.length < left) :
    (∃ answer, openedOnUse left tables id reset length now = some answer ∧
      Walked (requestsOf tables id) (closes length) reset now answer) ∧
    ∀ first ends first' ends', Holding (requestsOf tables id) (closes length) reset now first ends →
      Holding (requestsOf tables id) (closes length) reset now first' ends' → first = first' ∧ ends = ends' := by
  have closesLater : ∀ request ∈ requestsOf tables id, request < closes length request :=
    fun _ _ => lt_closes long
  constructor
  · exact openedOnUse_walks instants.1 instants.2 closesLater
      (fun request member after before => closes_eq (dated request member after before)) past enough
  · exact fun _ _ _ _ holds also => holds.unique closesLater also

/-- A successful request of account 1. -/
def usedAt (instant : Timestamp) : UsageEvent :=
  ⟨1, 1, 1, "", "", instant, "claude", "opus", none, "", none, none, none, none, 1, 0, 0, 0, 0, 0, 1, none, none,
    none, false, 200, false, none, none, none, none, none, none⟩

def usedAts (instants : List Timestamp) : Tables := { Tables.empty with events := instants.map usedAt }

theorem requestsOf_usedAts (instants : List Timestamp) :
    requestsOf (usedAts instants) 1 = {instant | instant ∈ instants} := by
  ext instant
  simp [requestsOf, usedAts, usedAt]

/-- The second session holds now: its request came after the first session, which ended at the hour. -/
theorem second_session_holds :
    Holding (requestsOf (usedAts [hours 1 + 1, hours 6 - 1, hours 7]) 1) (closes (hours 5)) 0 (hours 8)
      (hours 7) (hours 12) := by
  have ran : openedOnUse 4 (usedAts [hours 1 + 1, hours 6 - 1, hours 7]) 1 0 (hours 5) (hours 8) =
      some (some (hours 7, hours 12)) := by decide
  obtain ⟨⟨answer, answered, walks⟩, _⟩ := @opened_on_use_walks (usedAts [hours 1 + 1, hours 6 - 1, hours 7])
    1 0 (hours 8) (hours 5) 4 (by decide) (by decide) (by decide) (fun _ _ after _ => .inl after) (by decide)
  obtain rfl := Option.some.inj (answered.symm.trans ran)
  exact ((walks.some_iff _ _).mp rfl).1

/-- The window a request of the last instant opens ends at none, and none is answered though it was
just used. Before 1970 an hour is rounded up: a window of a request at half past ten ends at three
rather than at two. -/
theorem opened_on_use_departs :
    (openedOnUse 2 (usedAts [lastInstant]) 1 lastInstant (hours 5) lastInstant = some none ∧
      ∃ last, LastEnd (requestsOf (usedAts [lastInstant]) 1) (closes (hours 5)) lastInstant lastInstant last ∧
        ∃ request ∈ requestsOf (usedAts [lastInstant]) 1, last ≤ request ∧ request ≤ lastInstant) ∧
    openedOnUse 2 (usedAts [-minutes 90]) 1 (-hours 2) (hours 4) (minutes 150) =
      some (some (-minutes 90, hours 3)) ∧
    ¬Holding (requestsOf (usedAts [-minutes 90]) 1) (closes (hours 4)) (-hours 2) (minutes 150)
      (-minutes 90) (hours 3) := by
  refine ⟨⟨by decide, lastInstant, ?_, lastInstant, ?_, le_refl _, le_refl _⟩, by decide, ?_⟩
  · refine lastEnd_of_ended (fun _ _ => lt_closes (by decide)) .refl (le_refl _) ?_
    rintro next ⟨first, opens, rfl⟩
    exact opens.1.2.trans_lt (lt_closes (by decide))
  · rw [requestsOf_usedAts]
    exact List.mem_singleton_self _
  · intro holds
    have closed := holds.closed
    revert closed
    decide

end MeteredUsage.Quota.OpenedOnUse

import Mathlib.Data.Nat.Find
import MeteredUsage.Billing.Periods
import MeteredUsage.Library.Months
import MeteredUsage.Store.Plans

/-! The periods of a plan tile it: each begins where the one before ends, months counted from the first,
and every instant of the plan up to now lies in one. -/

namespace MeteredUsage.Billing.Tiling
open MeteredUsage.Values MeteredUsage.Billing.Periods MeteredUsage.Library.Calendar
open MeteredUsage.Library.Months MeteredUsage.Store.Plans

variable {anchor now : Timestamp} {periodEnd : Option Timestamp}

/-- The start of a period, whether `Timestamp` can hold it or not. -/
def startAt (anchor : Timestamp) (index : Nat) : Timestamp :=
  addMonths (anchor / dayNanos) index * dayNanos + anchor % dayNanos

theorem monthAfter_eq (anchor : Timestamp) (index : Nat) :
    monthAfter anchor index = if isTimestamp (startAt anchor index) then some (startAt anchor index) else none := by
  unfold monthAfter startAt
  rw [Option.filter_some]

theorem startAt_zero (anchor : Timestamp) : startAt anchor 0 = anchor := by
  unfold startAt
  rw [addMonths_zero]
  exact Int.mul_comm dayNanos _ ▸ Int.mul_ediv_add_emod anchor dayNanos

theorem startAt_lt (anchor : Timestamp) {first second : Nat} (before : first < second) :
    startAt anchor first < startAt anchor second := by
  have days := addMonths_lt (anchor / dayNanos) before
  unfold startAt dayNanos at *
  unfold Timestamp at *
  omega

theorem startAt_le (anchor : Timestamp) {first second : Nat} (before : first ≤ second) :
    startAt anchor first ≤ startAt anchor second := by
  rcases Nat.eq_or_lt_of_le before with rfl | less
  · exact le_rfl
  · exact (startAt_lt anchor less).le

/-- Whether the loop stops at a period: it has not begun, or the plan has ended. -/
def stops (anchor : Timestamp) (periodEnd : Option Timestamp) (now : Timestamp) (index : Nat) : Prop :=
  now < startAt anchor index ∨ ∃ finish, periodEnd = some finish ∧ finish ≤ startAt anchor index

instance : DecidablePred (stops anchor periodEnd now) := fun index =>
  decidable_of_iff (now < startAt anchor index ∨
      (periodEnd.any fun finish => decide (finish ≤ startAt anchor index)) = true) (by
    unfold stops
    simp [Option.any_eq_true])

/-- The months of the calendar reach past now, or past the end of the plan, before a span holds no more. -/
def Reaches (anchor : Timestamp) (periodEnd : Option Timestamp) (now : Timestamp) : Prop :=
  ∃ index ≤ mostMonths, ∃ start, monthAfter anchor index = some start ∧
    (now < start ∨ ∃ finish, periodEnd = some finish ∧ finish ≤ start)

/-- A start, or the plan's end when that comes first. -/
def cut (periodEnd : Option Timestamp) (next : Timestamp) : Timestamp := (periodEnd.map (min · next)).getD next

/-- The loop makes so many periods: it stops after them and at no period before, and every start up to there
is an instant that `Timestamp` can hold. -/
structure Makes (anchor : Timestamp) (periodEnd : Option Timestamp) (now : Timestamp) (count : Nat) : Prop where
  stops : stops anchor periodEnd now count
  goes : ∀ index < count, ¬Tiling.stops anchor periodEnd now index
  supported : ∀ index ≤ count, monthAfter anchor index = some (startAt anchor index)
  fits : count ≤ mostMonths

theorem Reaches.makes (reaches : Reaches anchor periodEnd now) (held : isTimestamp anchor = true) :
    ∃ count, Makes anchor periodEnd now count := by
  obtain ⟨last, most, start, supported, past⟩ := reaches
  rw [monthAfter_eq] at supported
  split at supported
  next lastHeld =>
    cases supported
    have ends : ∃ index, stops anchor periodEnd now index := ⟨last, past⟩
    have least : Nat.find ends ≤ last := Nat.find_min' ends past
    refine ⟨Nat.find ends, Nat.find_spec ends, fun _ => Nat.find_min ends, ?_, least.trans most⟩
    intro index within
    have low := startAt_le anchor (Nat.zero_le index)
    have high := startAt_le anchor (within.trans least)
    rw [startAt_zero] at low
    rw [monthAfter_eq, if_pos]
    simp only [isTimestamp, Bool.and_eq_true, decide_eq_true_eq] at held lastHeld ⊢
    exact ⟨held.1.trans low, high.trans lastHeld.2⟩
  next => cases supported

theorem stops_iff {index : Nat} : (now < startAt anchor index ||
    periodEnd.any fun finish => decide (finish ≤ startAt anchor index)) = true ↔
      stops anchor periodEnd now index := by
  unfold stops
  simp [Option.any_eq_true]

variable {count : Nat}

/-- The periods the loop answers. -/
theorem periodsFrom_eq (makes : Makes anchor periodEnd now count) (rest left index : Nat)
    (enough : rest ≤ left) (to_go : index + rest = count) :
    periodsFrom anchor periodEnd now left index = some ((List.range' index rest).map fun index =>
      (startAt anchor index, cut periodEnd (startAt anchor (index + 1)))) := by
  induction rest generalizing left index with
  | zero =>
    have at_stop : count = index := to_go.symm
    have supported := makes.supported index (by omega)
    have ends := stops_iff.mpr (at_stop ▸ makes.stops)
    cases left with
    | zero =>
      rw [periodsFrom_zero, supported]
      exact if_pos ends
    | succ left =>
      rw [periodsFrom_succ, supported]
      exact if_pos ends
  | succ rest ih =>
    have supported := makes.supported index (by omega)
    have next := makes.supported (index + 1) (by omega)
    have running : ¬(now < startAt anchor index ||
        periodEnd.any fun finish => decide (finish ≤ startAt anchor index)) = true := by
      rw [stops_iff]
      exact makes.goes index (by omega)
    cases left with
    | zero => omega
    | succ left =>
      have later := ih left (index + 1) (by omega) (by omega)
      rw [periodsFrom_succ, supported, next, later]
      exact if_neg running

/-- The first periods of a plan, so many of them. -/
def made (anchor : Timestamp) (periodEnd : Option Timestamp) (count : Nat) : List (Timestamp × Timestamp) :=
  (List.range count).map fun index => (startAt anchor index, cut periodEnd (startAt anchor (index + 1)))

theorem periods_eq (makes : Makes anchor periodEnd now count) :
    periods anchor periodEnd now = some (made anchor periodEnd count) := by
  rw [made, List.range_eq_range']
  exact periodsFrom_eq makes count mostMonths 0 makes.fits (Nat.zero_add _)

/-- An instant is so many calendar months after another: at its time of day, on its day of the month or on
the last of a shorter month. -/
structure MonthsLater (months : Nat) (first later : Timestamp) : Prop where
  time : later % dayNanos = first % dayNanos
  month : monthNumber (later / dayNanos) = monthNumber (first / dayNanos) + months
  day : dayOfMonth (later / dayNanos) =
    min (dayOfMonth (first / dayNanos)) (daysIn (monthNumber (first / dayNanos) + months))

theorem startAt_months (anchor : Timestamp) (index : Nat) : MonthsLater index anchor (startAt anchor index) := by
  have ⟨month, day⟩ := addMonths_date (anchor / dayNanos) index
  have ⟨quotient, rest⟩ : startAt anchor index / dayNanos = addMonths (anchor / dayNanos) index ∧
      startAt anchor index % dayNanos = anchor % dayNanos := by
    unfold startAt dayNanos
    unfold Timestamp at *
    omega
  exact ⟨rest, quotient.symm ▸ month, quotient.symm ▸ day⟩

/-- What the periods of a plan are by some instant, oldest first. -/
structure Tiles (plan : NewPlan) (now : Timestamp) (answer : List (Timestamp × Timestamp)) : Prop where
  first : ∀ period, answer.head? = some period → period.1 = plan.periodStart
  begun : answer = [] ↔ now < plan.periodStart
  starts : ∀ n period, answer[n]? = some period → MonthsLater n plan.periodStart period.1
  nonempty : ∀ period ∈ answer, period.1 < period.2
  consecutive : ∀ n earlier later, answer[n]? = some earlier → answer[n + 1]? = some later → earlier.2 = later.1
  disjoint : answer.Pairwise fun earlier later => earlier.2 ≤ later.1
  /-- Only the last period may end with the plan rather than with its month. -/
  whole : ∀ n period, answer[n]? = some period → MonthsLater (n + 1) plan.periodStart period.2 ∨
    n + 1 = answer.length ∧ plan.periodEnd = some period.2
  within : ∀ period ∈ answer, period.1 ≤ now ∧ ∀ finish, plan.periodEnd = some finish → period.2 ≤ finish
  covers : ∀ instant, plan.periodStart ≤ instant → instant ≤ now →
    (∀ finish, plan.periodEnd = some finish → instant < finish) →
    ∃! n : Nat, ∃ period : Timestamp × Timestamp, answer[n]? = some period ∧ period.1 ≤ instant ∧ instant < period.2

theorem cut_le (periodEnd : Option Timestamp) (next : Timestamp) : cut periodEnd next ≤ next := by
  cases periodEnd with
  | none => exact le_rfl
  | some finish => exact min_le_right finish next

/-- A period that is not the last ends with its month. -/
theorem Makes.uncut (makes : Makes anchor periodEnd now count) {index : Nat} (before : index < count) :
    cut periodEnd (startAt anchor index) = startAt anchor index := by
  cases given : periodEnd with
  | none => rfl
  | some finish =>
    have later : ¬finish ≤ startAt anchor index := fun past =>
      makes.goes index before (.inr ⟨finish, given, past⟩)
    exact min_eq_right (not_le.mp later).le

/-- An instant of a period's month is in the period unless the plan has ended. -/
theorem lt_cut {next instant : Timestamp} (before : instant < next)
    (runs : ∀ finish, periodEnd = some finish → instant < finish) : instant < cut periodEnd next := by
  cases periodEnd with
  | none => exact before
  | some finish => exact lt_min (runs finish rfl) before

theorem getElem?_made_iff {n : Nat} {period : Timestamp × Timestamp} :
    (made anchor periodEnd count)[n]? = some period ↔
      n < count ∧ (startAt anchor n, cut periodEnd (startAt anchor (n + 1))) = period := by
  rw [made, List.getElem?_map, Option.map_eq_some_iff]
  constructor
  · rintro ⟨index, placed, same⟩
    obtain ⟨below, rfl⟩ := List.getElem?_eq_some_iff.mp placed
    rw [List.getElem_range] at same
    exact ⟨by simpa using below, same⟩
  · rintro ⟨below, same⟩
    exact ⟨n, List.getElem?_range below, same⟩

theorem runs_of_check {plan : NewPlan} (checked : plan.check = none) :
    ∀ finish, plan.periodEnd = some finish → plan.periodStart < finish := by
  intro finish given
  unfold NewPlan.check at checked
  split at checked
  · cases checked
  split at checked
  · cases checked
  split at checked
  · cases checked
  next long =>
    rw [given] at long
    simpa using long

theorem Makes.going (makes : Makes anchor periodEnd now count) {index : Nat} (before : index < count) :
    startAt anchor index ≤ now ∧ ∀ finish, periodEnd = some finish → startAt anchor index < finish := by
  have goes := makes.goes index before
  constructor
  · exact not_lt.mp fun past => goes (.inl past)
  · exact fun finish given => not_le.mp fun past => goes (.inr ⟨finish, given, past⟩)

theorem Makes.made_eq_nil_iff (makes : Makes anchor periodEnd now count)
    (runs : ∀ finish, periodEnd = some finish → anchor < finish) :
    made anchor periodEnd count = [] ↔ now < anchor := by
  rw [made, List.map_eq_nil_iff, List.range_eq_nil]
  constructor
  · intro none_made
    rcases none_made ▸ makes.stops with past | ⟨finish, given, past⟩
    · rwa [startAt_zero] at past
    · rw [startAt_zero] at past
      exact absurd past (runs finish given).not_ge
  · intro early
    by_contra some_made
    obtain ⟨begun, _⟩ := makes.going (Nat.pos_of_ne_zero some_made)
    rw [startAt_zero] at begun
    exact absurd early begun.not_gt

/-- A period ends with its month, but for a last one that ends with the plan. -/
theorem Makes.ends_whole (makes : Makes anchor periodEnd now count) {n : Nat} (below : n < count) :
    MonthsLater (n + 1) anchor (cut periodEnd (startAt anchor (n + 1))) ∨
      n + 1 = count ∧ periodEnd = some (cut periodEnd (startAt anchor (n + 1))) := by
  have month := startAt_months anchor (n + 1)
  cases given : periodEnd with
  | none => exact .inl month
  | some finish =>
    by_cases full : startAt anchor (n + 1) ≤ finish
    · left
      have same : cut (some finish) (startAt anchor (n + 1)) = startAt anchor (n + 1) := min_eq_right full
      rw [same]
      exact month
    · right
      have ended : finish ≤ startAt anchor (n + 1) := (not_le.mp full).le
      have last : ¬n + 1 < count := fun before => makes.goes (n + 1) before (.inr ⟨finish, given, ended⟩)
      have same : cut (some finish) (startAt anchor (n + 1)) = finish := min_eq_left ended
      exact ⟨by omega, congrArg some same.symm⟩

/-- The period of an instant is the last that has begun by then. -/
theorem Makes.exists_period (makes : Makes anchor periodEnd now count) {instant : Timestamp}
    (after : anchor ≤ instant) (early : instant ≤ now)
    (running : ∀ finish, periodEnd = some finish → instant < finish) :
    ∃ n < count, startAt anchor n ≤ instant ∧ instant < startAt anchor (n + 1) := by
  have later : ∃ index, instant < startAt anchor index := by
    refine ⟨count, ?_⟩
    rcases makes.stops with past | ⟨finish, given, past⟩
    · exact early.trans_lt past
    · exact (running finish given).trans_le past
  have past := Nat.find_spec later
  have positive : Nat.find later ≠ 0 := by
    intro zero
    rw [zero, startAt_zero] at past
    exact absurd past after.not_gt
  obtain ⟨n, next⟩ := Nat.exists_eq_succ_of_ne_zero positive
  have begun : startAt anchor n ≤ instant :=
    not_lt.mp (Nat.find_min later (next ▸ Nat.lt_succ_self n))
  rw [next] at past
  refine ⟨n, ?_, begun, past⟩
  by_contra beyond
  have reached := (startAt_le anchor (not_lt.mp beyond)).trans begun
  rcases makes.stops with gone | ⟨finish, given, gone⟩
  · exact absurd (reached.trans early) gone.not_ge
  · exact absurd (gone.trans reached) (running finish given).not_ge

/-- An instant lies in the month of one start only. -/
theorem start_unique {instant : Timestamp} {first second : Nat} (low : startAt anchor first ≤ instant)
    (high : instant < startAt anchor (first + 1)) (least : startAt anchor second ≤ instant)
    (most : instant < startAt anchor (second + 1)) : first = second := by
  rcases lt_trichotomy first second with earlier | same | beyond
  · exact absurd ((startAt_le anchor earlier).trans least) high.not_ge
  · exact same
  · exact absurd ((startAt_le anchor beyond).trans low) most.not_ge

theorem Makes.covers (makes : Makes anchor periodEnd now count) {instant : Timestamp}
    (after : anchor ≤ instant) (early : instant ≤ now)
    (running : ∀ finish, periodEnd = some finish → instant < finish) :
    ∃! n : Nat, ∃ period : Timestamp × Timestamp,
      (made anchor periodEnd count)[n]? = some period ∧ period.1 ≤ instant ∧ instant < period.2 := by
  obtain ⟨n, below, begun, past⟩ := makes.exists_period after early running
  refine ⟨n, ⟨_, getElem?_made_iff.mpr ⟨below, rfl⟩, begun, lt_cut past running⟩, ?_⟩
  rintro other ⟨period, held, low, high⟩
  obtain ⟨_, rfl⟩ := getElem?_made_iff.mp held
  exact start_unique low (high.trans_le (cut_le _ _)) begun past

theorem Makes.tiles {plan : NewPlan} (makes : Makes plan.periodStart plan.periodEnd now count)
    (checked : plan.check = none) : Tiles plan now (made plan.periodStart plan.periodEnd count) := by
  constructor
  · intro period found
    rw [List.head?_eq_getElem?] at found
    obtain ⟨_, rfl⟩ := getElem?_made_iff.mp found
    exact startAt_zero plan.periodStart
  · exact makes.made_eq_nil_iff (runs_of_check checked)
  · intro n period found
    obtain ⟨_, rfl⟩ := getElem?_made_iff.mp found
    exact startAt_months plan.periodStart n
  · intro period member
    obtain ⟨n, found⟩ := List.getElem?_of_mem member
    obtain ⟨before, rfl⟩ := getElem?_made_iff.mp found
    exact lt_cut (startAt_lt plan.periodStart (Nat.lt_succ_self n)) (makes.going before).2
  · intro n earlier later left right
    obtain ⟨_, rfl⟩ := getElem?_made_iff.mp left
    obtain ⟨before, rfl⟩ := getElem?_made_iff.mp right
    exact makes.uncut before
  · rw [made, List.pairwise_map]
    apply List.pairwise_lt_range.imp
    intro earlier later before
    exact (cut_le _ _).trans (startAt_le plan.periodStart before)
  · intro n period found
    obtain ⟨below, rfl⟩ := getElem?_made_iff.mp found
    rw [made, List.length_map, List.length_range]
    exact makes.ends_whole below
  · intro period member
    obtain ⟨n, found⟩ := List.getElem?_of_mem member
    obtain ⟨before, rfl⟩ := getElem?_made_iff.mp found
    refine ⟨(makes.going before).1, ?_⟩
    intro finish given
    rw [given]
    exact min_le_left finish _
  · intro instant after early running
    exact makes.covers after early running

/-- Within the months the calendar holds, the loop ends and its periods tile the plan. -/
theorem periods_tile_the_plan (plan : NewPlan) (now : Timestamp) (checked : plan.check = none)
    (held : isTimestamp plan.periodStart = true) (reaches : Reaches plan.periodStart plan.periodEnd now) :
    ∃ answer, periods plan.periodStart plan.periodEnd now = some answer ∧ Tiles plan now answer := by
  obtain ⟨count, makes⟩ := reaches.makes held
  exact ⟨_, periods_eq makes, makes.tiles checked⟩

/-- A plan from 31 January to 31 March 2025, by the first of April. -/
def fromTheLastOfJanuary : NewPlan := ⟨1, "Max", .one, 1738281600000000000, some 1743379200000000000⟩

theorem february_is_clamped :
    (periods fromTheLastOfJanuary.periodStart fromTheLastOfJanuary.periodEnd 1743465600000000000 =
      some [(1738281600000000000, 1740700800000000000), (1740700800000000000, 1743379200000000000)]) ∧
    Tiles fromTheLastOfJanuary 1743465600000000000
      [(1738281600000000000, 1740700800000000000), (1740700800000000000, 1743379200000000000)] := by
  have ran : periods fromTheLastOfJanuary.periodStart fromTheLastOfJanuary.periodEnd 1743465600000000000 =
      some [(1738281600000000000, 1740700800000000000), (1740700800000000000, 1743379200000000000)] := by
    decide
  have reaches : Reaches fromTheLastOfJanuary.periodStart fromTheLastOfJanuary.periodEnd 1743465600000000000 :=
    ⟨2, by decide, 1743379200000000000, by decide, .inr ⟨1743379200000000000, rfl, le_rfl⟩⟩
  obtain ⟨answer, answered, tiles⟩ := periods_tile_the_plan fromTheLastOfJanuary 1743465600000000000
    (by decide) (by decide) reaches
  obtain rfl := Option.some.inj (answered.symm.trans ran)
  exact ⟨ran, tiles⟩

end MeteredUsage.Billing.Tiling

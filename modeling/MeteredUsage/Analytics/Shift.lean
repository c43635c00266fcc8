import Mathlib.Data.List.Find
import MeteredUsage.Analytics.Filter

/-! The offset expression is the zone: for every event a window holds it is the modifier of the
zone's offset at the event's instant. -/

namespace MeteredUsage.Analytics.Shift
open MeteredUsage.Values MeteredUsage.Store.Schema MeteredUsage.Codec MeteredUsage.Analytics.Filter
open MeteredUsage.Library.Calendar

variable {change instant : Timestamp} {events : List UsageEvent} {event : UsageEvent}
  {filter : AnalyticsFilter}

/-- An instant of a year before the year 0 is before one of a year four digits hold, and its text
sorts before. -/
theorem before_of_sign (sign : yearOfInstant instant < 0) (dated : Printable change) :
    instant < change ∧ stored instant < stored change := by
  have years : yearAt (secondOf instant) < yearAt (secondOf change) := sign.trans_le dated.1
  constructor
  · exact (instant_lt_iff instant change).mpr (.inl ((second_lt_iff _ _).mpr (.inl years)))
  · rw [String.lt_iff_toList_lt]
    unfold stored dateTime
    rw [String.toList_ofList, String.toList_ofList]
    simp only [List.append_assoc]
    obtain ⟨digit, below, more, text⟩ := yearText_of_nonneg dated.1 (['-'] ++
      (withinYear (secondOf change) ++ (['.'] ++
        (Library.FixedWidth.padded 9 (nanosOf change) ++ ['Z']))))
    rw [text, yearText, if_neg (show ¬0 ≤ yearAt (secondOf instant) from sign.not_ge),
      List.cons_append, List.cons_lt_cons_iff]
    exact .inl (sign_lt_digit below)

/-- An instant is printed in four digits or is of a year before the year 0. -/
theorem printable_or_sign (held : Representable instant) :
    Printable instant ∨ yearOfInstant instant < 0 := by
  rcases lt_or_ge (yearOfInstant instant) 0 with sign | nonneg
  · exact .inr sign
  · exact .inl ⟨nonneg, held.2⟩

/-- Of two instants one of which four digits hold, the texts sort as the instants do. -/
theorem stored_le_iff_of_printable (left : Representable change) (right : Representable instant)
    (either : Printable change ∨ Printable instant) :
    stored change ≤ stored instant ↔ change ≤ instant := by
  rcases printable_or_sign left with dated | sign
  · rcases printable_or_sign right with printable | sign
    · exact stored_le_iff dated printable
    · have ⟨before, sorts⟩ := before_of_sign sign dated
      exact iff_of_false sorts.not_ge before.not_ge
  · have printable : Printable instant := either.resolve_left fun dated => sign.not_ge dated.1
    have ⟨before, sorts⟩ := before_of_sign sign printable
    exact iff_of_true sorts.le before.le

/-- The last change a cut leaves, or the offset before it, is that of the whole list. -/
theorem find_cut {since cut initial : Int} (changes : List (Timestamp × Int))
    (after : since ≤ instant) (before : instant < cut) :
    ((((changes.filter fun change => change.1 < cut).takeWhile fun change => since < change.1).find?
      fun change => change.1 ≤ instant).map Prod.snd).getD
        (((changes.find? fun change => change.1 ≤ since).map Prod.snd).getD initial) =
    ((changes.find? fun change => change.1 ≤ instant).map Prod.snd).getD initial := by
  induction changes with
  | nil => rfl
  | cons change rest ih =>
    by_cases reached : change.1 ≤ instant
    · have kept : change.1 < cut := lt_of_le_of_lt reached before
      have found : (change :: rest).find? (fun change => change.1 ≤ instant) = some change :=
        List.find?_cons_of_pos (by simpa using reached)
      rw [found, List.filter_cons_of_pos (by simpa using kept), List.takeWhile_cons]
      by_cases inside : since < change.1
      · rw [if_pos (by simpa using inside), List.find?_cons_of_pos (by simpa using reached)]
        rfl
      · have also : (change :: rest).find? (fun change => change.1 ≤ since) = some change :=
          List.find?_cons_of_pos (by simpa using inside)
        rw [if_neg (by simpa using inside), also]
        rfl
    · have later : since < change.1 := lt_of_le_of_lt after (not_le.mp reached)
      have skipped : (change :: rest).find? (fun change => change.1 ≤ instant) =
          rest.find? fun change => change.1 ≤ instant :=
        List.find?_cons_of_neg (by simpa using reached)
      have also : (change :: rest).find? (fun change => change.1 ≤ since) =
          rest.find? fun change => change.1 ≤ since :=
        List.find?_cons_of_neg (by simpa using later)
      rw [skipped, also, ← ih]
      by_cases kept : change.1 < cut
      · rw [List.filter_cons_of_pos (by simpa using kept), List.takeWhile_cons,
          if_pos (by simpa using later), List.find?_cons_of_neg (by simpa using reached)]
      · rw [List.filter_cons_of_neg (by simpa using kept)]

/-- The first choice of a `CASE` is that of the first change. -/
theorem find_choice (text label : Int → String) (reached : String → Bool)
    (changes : List (Timestamp × Int)) :
    ((changes.map fun change => (text change.1, label change.2)).find? fun choice =>
      reached choice.1).map Prod.snd =
    (changes.find? fun change => reached (text change.1)).map fun change => label change.2 := by
  induction changes with
  | nil => rfl
  | cons change rest ih =>
    rw [List.map_cons, List.find?_cons, List.find?_cons]
    cases reached (text change.1) with
    | true => rfl
    | false => exact ih

theorem eval_push (shift : Shift) (held : Representable instant)
    (dated : ∀ change ∈ shift.changes,
      Representable change.1 ∧ (Printable change.1 ∨ Printable instant)) :
    shift.push.eval (stored instant) = modifier
      (((shift.changes.find? fun change => change.1 ≤ instant).map Prod.snd).getD shift.before) := by
  have found : shift.changes.find? (fun change => stored change.1 ≤ stored instant) =
      shift.changes.find? fun change => change.1 ≤ instant := by
    apply List.find?_congr
    intro change member
    have ⟨left, either⟩ := dated change member
    simp only [stored_le_iff_of_printable left held either]
  unfold Shift.push
  split
  next empty =>
    rw [List.isEmpty_iff.mp empty]
    rfl
  next =>
    have chosen := find_choice stored modifier (fun text => text ≤ stored instant) shift.changes
    unfold Expression.eval
    dsimp only
    rw [chosen, found]
    cases shift.changes.find? (fun change => change.1 ≤ instant) with
    | none => rfl
    | some change => rfl

/-- Before every change of a zone its first offset is in force. -/
theorem toOffset_eq_initial {zone : TimeZone} (later : ∀ change ∈ zone.changes, instant < change.1) :
    zone.toOffset instant = zone.initial := by
  have none_found : zone.changes.reverse.find? (fun change => change.1 ≤ instant) = none := by
    rw [List.find?_eq_none]
    intro change member
    have after := later change (List.mem_reverse.mp member)
    simpa using after
  unfold TimeZone.toOffset
  rw [none_found]
  rfl

/-- The changes a shift holds are some of its zone's. -/
theorem mem_zone_of_mem_shift {recorded : Option Recorded} {change : Timestamp × Int}
    (member : change ∈ (filter.shift recorded).changes) : change ∈ filter.timeZone.changes := by
  cases recorded with
  | none => exact absurd member List.not_mem_nil
  | some recorded =>
    have kept := List.mem_of_mem_filter (List.takeWhile_subset _ member)
    exact List.mem_reverse.mp kept

/-- What is recorded is the instant of a stored event on either side, and no stored text sorts outside
of it. -/
theorem load_spec {recorded : Recorded} (loaded : Recorded.load events = some recorded) :
    recorded.first ∈ events.map UsageEvent.occurredAt ∧
      recorded.last ∈ events.map UsageEvent.occurredAt ∧
      ∀ event ∈ events, stored recorded.first ≤ stored event.occurredAt ∧
        stored event.occurredAt ≤ stored recorded.last := by
  unfold Recorded.load at loaded
  simp only [Option.bind_eq_bind, Option.bind_eq_some_iff, Option.pure_def, Option.some.injEq]
    at loaded
  obtain ⟨first, least, last, greatest, rfl⟩ := loaded
  refine ⟨List.argmin_mem least, List.argmax_mem greatest, ?_⟩
  intro event member
  have held : event.occurredAt ∈ events.map UsageEvent.occurredAt := List.mem_map_of_mem member
  exact ⟨List.le_of_mem_argmin held least, List.le_of_mem_argmax held greatest⟩

/-- Something is recorded once an event is stored. -/
theorem load_isSome (member : event ∈ events) : ∃ recorded, Recorded.load events = some recorded := by
  have held : event.occurredAt ∈ events.map UsageEvent.occurredAt := List.mem_map_of_mem member
  have filled : events.map UsageEvent.occurredAt ≠ [] := List.ne_nil_of_mem held
  unfold Recorded.load
  cases least : (events.map UsageEvent.occurredAt).argmin stored with
  | none => exact absurd (List.argmin_eq_none.mp least) filled
  | some first =>
    cases greatest : (events.map UsageEvent.occurredAt).argmax stored with
    | none => exact absurd (List.argmax_eq_none.mp greatest) filled
    | some last => exact ⟨_, rfl⟩

/-- A selected event's text is before the end and not before the start. -/
theorem window_of_selects (selected : filter.selects event = true) :
    stored event.occurredAt < stored filter.finish ∧
      ∀ start, filter.start = some start → stored start ≤ stored event.occurredAt := by
  unfold AnalyticsFilter.selects at selected
  simp only [Bool.and_eq_true, decide_eq_true_eq] at selected
  obtain ⟨⟨⟨⟨⟨⟨before, started⟩, -⟩, -⟩, -⟩, -⟩, -⟩ := selected
  refine ⟨before, ?_⟩
  intro start given
  rw [given, Option.all_some, decide_eq_true_eq] at started
  exact started

/-- The text of every instant that is not before an instant of four digits is of four digits. -/
theorem printable_of_le (printable : Printable change) (held : Representable instant)
    (sorts : stored change ≤ stored instant) : Printable instant := by
  rcases printable_or_sign held with dated | sign
  · exact dated
  · exact absurd sorts (before_of_sign sign printable).2.not_ge

/-- An event of a year four digits hold lies in the stretch the zone's changes are read for. -/
theorem stretch_of_printable {recorded : Recorded} (loaded : Recorded.load events = some recorded)
    (held : ∀ event ∈ events, Representable event.occurredAt)
    (startHeld : ∀ start, filter.start = some start → Representable start)
    (finishHeld : Representable filter.finish) (member : event ∈ events)
    (selected : filter.selects event = true) (printable : Printable event.occurredAt) :
    filter.since recorded ≤ event.occurredAt ∧ event.occurredAt < filter.until recorded := by
  have ⟨firstStored, lastStored, outside⟩ := load_spec loaded
  have ⟨sortsFirst, sortsLast⟩ := outside event member
  have ⟨before, started⟩ := window_of_selects selected
  have represented (instant : Timestamp) (isStored : instant ∈ events.map UsageEvent.occurredAt) :
      Representable instant := by
    obtain ⟨other, otherStored, rfl⟩ := List.mem_map.mp isStored
    exact held other otherStored
  have first : recorded.first ≤ event.occurredAt :=
    (stored_le_iff_of_printable (represented _ firstStored) (held event member)
      (.inr printable)).mp sortsFirst
  have last : event.occurredAt ≤ recorded.last :=
    (stored_le_iff_of_printable (held event member) (represented _ lastStored)
      (.inl printable)).mp sortsLast
  have finish : event.occurredAt < filter.finish := by
    have sorts := before.not_ge
    rw [stored_le_iff_of_printable finishHeld (held event member) (.inr printable)] at sorts
    exact not_le.mp sorts
  constructor
  · unfold AnalyticsFilter.since
    cases given : filter.start with
    | none => exact first
    | some start =>
      have from_start := (stored_le_iff_of_printable (startHeld start given) (held event member)
        (.inr printable)).mp (started start given)
      exact max_le from_start first
  · have end_held : filter.finish ≤ lastInstant := filter.held
    have next : event.occurredAt < (nextInstant recorded.last).getD recorded.last := by
      unfold nextInstant
      split
      · exact Int.lt_add_one_of_le last
      next full => exact (finish.trans_le end_held).trans_le (not_lt.mp full)
    exact lt_min next finish

/-- An event of a year before the year 0 is selected only if the stretch begins before the year 0. -/
theorem since_of_sign {recorded : Recorded} (loaded : Recorded.load events = some recorded)
    (held : ∀ event ∈ events, Representable event.occurredAt)
    (startHeld : ∀ start, filter.start = some start → Representable start)
    (member : event ∈ events) (selected : filter.selects event = true)
    (sign : yearOfInstant event.occurredAt < 0) : yearOfInstant (filter.since recorded) < 0 := by
  have ⟨firstStored, _, outside⟩ := load_spec loaded
  have started := (window_of_selects selected).2
  have signed (instant : Timestamp) (represented : Representable instant)
      (sorts : stored instant ≤ stored event.occurredAt) : yearOfInstant instant < 0 := by
    rcases printable_or_sign represented with printable | signed
    · exact absurd (printable_of_le printable (held event member) sorts).1 sign.not_ge
    · exact signed
  obtain ⟨other, otherStored, at_first⟩ := List.mem_map.mp firstStored
  have first : yearOfInstant recorded.first < 0 :=
    signed _ (at_first ▸ held other otherStored) (outside event member).1
  unfold AnalyticsFilter.since
  cases given : filter.start with
  | none => exact first
  | some start =>
    have from_start := signed start (startHeld start given) (started start given)
    change yearOfInstant (max start recorded.first) < 0
    rcases max_choice start recorded.first with same | same
    · rw [same]
      exact from_start
    · rw [same]
      exact first

/-- For every stored event inside the window the expression is the modifier of the zone's offset at
the event's instant, unless the event and a change of the zone are both of a year before the year
0. -/
theorem expression_is_the_zone (filter : AnalyticsFilter) (events : List UsageEvent)
    (held : ∀ event ∈ events, Representable event.occurredAt)
    (startHeld : ∀ start, filter.start = some start → Representable start)
    (finishHeld : Representable filter.finish) (event : UsageEvent) (member : event ∈ events)
    (selected : filter.selects event = true)
    (dated : 0 ≤ yearOfInstant event.occurredAt ∨
      ∀ change ∈ filter.timeZone.changes, 0 ≤ yearOfInstant change.1) :
    (filter.shift (Recorded.load events)).push.eval (stored event.occurredAt) =
      modifier (filter.timeZone.toOffset event.occurredAt) := by
  obtain ⟨recorded, loaded⟩ := load_isSome member
  have readable : ∀ change ∈ (filter.shift (some recorded)).changes, Representable change.1 ∧
      (Printable change.1 ∨ Printable event.occurredAt) := by
    intro change kept
    have ofZone := mem_zone_of_mem_shift kept
    have changeHeld := filter.timeZone.held change ofZone
    rcases dated with nonneg | nonneg
    · exact ⟨changeHeld, .inr ⟨nonneg, (held event member).2⟩⟩
    · exact ⟨changeHeld, .inl ⟨nonneg change ofZone, changeHeld.2⟩⟩
  rw [loaded, eval_push _ (held event member) readable]
  rcases printable_or_sign (held event member) with printable | sign
  · have ⟨after, before⟩ :=
      stretch_of_printable loaded held startHeld finishHeld member selected printable
    exact congrArg modifier (find_cut filter.timeZone.changes.reverse after before)
  · -- Before the year 0 no change has been made yet, neither at the event nor where the stretch
    -- begins.
    have nonneg := dated.resolve_left sign.not_ge
    have first := since_of_sign loaded held startHeld member selected sign
    have later (instant : Timestamp) (sign : yearOfInstant instant < 0) (change : Timestamp × Int)
        (ofZone : change ∈ filter.timeZone.changes) : instant < change.1 :=
      (before_of_sign sign ⟨nonneg change ofZone, (filter.timeZone.held change ofZone).2⟩).1
    have unfound : (filter.shift (some recorded)).changes.find?
        (fun change => change.1 ≤ event.occurredAt) = none := by
      rw [List.find?_eq_none]
      intro change kept
      have after := later _ sign change (mem_zone_of_mem_shift kept)
      simpa using after
    have start : (filter.shift (some recorded)).before =
        filter.timeZone.toOffset (filter.since recorded) := rfl
    rw [unfound, Option.map_none, Option.getD_none, start, toOffset_eq_initial (later _ first),
      toOffset_eq_initial (later _ sign)]

/-- A successful request of account 1. -/
def requestAt (instant : Timestamp) : UsageEvent :=
  ⟨1, 1, 1, "", "", instant, "claude", "opus", none, "", none, none, none, none, 1, 0, 0, 0, 0, 0, 1, none, none,
    none, false, 200, false, none, none, none, none, none, none⟩

/-- Central European time over the year 2025. -/
def summerTime : TimeZone :=
  ⟨3600, [(1743296400000000000, 7200), (1761440400000000000, 3600)], by decide, by
    intro change member
    simp only [List.mem_cons, List.not_mem_nil, or_false] at member
    rcases member with rfl | rfl
    · unfold Representable
      decide
    · unfold Representable
      decide⟩

def fromSpring : AnalyticsFilter :=
  ⟨some 1743296400000000000, 1761440400000000001, summerTime, [], [], [], [], [], by decide⟩

/-- Over the summer of 2025, with requests at both clock changes and nothing later. -/
theorem expression_at_the_change :
    (fromSpring.shift (Recorded.load
      [requestAt 1743296400000000000, requestAt 1761440400000000000])).push.eval
        (stored 1761440400000000000) = "+3600 seconds" := by
  have represented : ∀ event ∈ [requestAt 1743296400000000000, requestAt 1761440400000000000],
      Representable event.occurredAt := by
    intro event member
    simp only [List.mem_cons, List.not_mem_nil, or_false] at member
    rcases member with rfl | rfl
    · unfold Representable
      decide
    · unfold Representable
      decide
  have start_represented : ∀ start, fromSpring.start = some start → Representable start := by
    intro start given
    cases given
    unfold Representable
    decide
  have finish_represented : Representable fromSpring.finish := by
    unfold Representable
    decide
  have placed := expression_is_the_zone fromSpring
    [requestAt 1743296400000000000, requestAt 1761440400000000000] represented start_represented
    finish_represented (requestAt 1761440400000000000) (by decide) (by decide)
    (.inl (by decide))
  exact placed.trans (by decide)

/-- A zone that changed its clock in the year -2000, which a list of changes may say and none of the
time zone database does. -/
def ancient : TimeZone :=
  ⟨0, [(-125279999999000000000, 3600)], by decide, by
    intro change member
    rw [List.mem_singleton.mp member]
    unfold Representable
    decide⟩

/-- Texts of years before the year 0 sort backwards: the first recorded instant is then the latest one,
after the zone's change, and the event before the change is given the offset after it. -/
theorem expression_departs_before_year_zero :
    let filter : AnalyticsFilter := ⟨none, 0, ancient, [], [], [], [], [], by decide⟩
    let events := [requestAt (-157000000000000000000), requestAt (-62200000000000000000)]
    let event := requestAt (-157000000000000000000)
    event ∈ events ∧ filter.selects event = true ∧
      (filter.shift (Recorded.load events)).push.eval (stored event.occurredAt) = "+3600 seconds" ∧
      modifier (filter.timeZone.toOffset event.occurredAt) = "+0 seconds" := by
  decide

end MeteredUsage.Analytics.Shift

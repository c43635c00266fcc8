import Mathlib.Algebra.Order.BigOperators.Group.List
import Mathlib.Data.List.ReduceOption
import MeteredUsage.Gateway.Numbers

/-! The windows of a Codex usage answer. Each limit states up to two, sorted into a five-hour and a
weekly or monthly one by their length, or by their order where they state none. -/

namespace MeteredUsage.Gateway.CodexWindows
open MeteredUsage.Values MeteredUsage.Store MeteredUsage.Store.Credentials MeteredUsage.Store.Windows
open MeteredUsage.Gateway.Numbers MeteredUsage.Library.Keyed

def fiveHours : Int := 18000
def week : Int := 604800
def shortestMonth : Int := 28 * 86400
def longestMonth : Int := 31 * 86400

variable (runtime : Sql.Runtime) (floats : Floats)

def lengthOf (window : Json) : Option Int :=
  (field window ["limit_window_seconds", "limitWindowSeconds"]).bind integer

def isMonthly (window : Json) : Bool :=
  (lengthOf window).any fun seconds => shortestMonth ≤ seconds && seconds ≤ longestMonth

/-- Which of a limit's two windows a reference points to. -/
inductive Place where
  | primary
  | secondary
deriving DecidableEq, Repr

structure Window where
  place : Place
  value : Json

def primary (limit : Json) : Option Window :=
  (field limit ["primary_window", "primaryWindow"]).map (Window.mk .primary)

def secondary (limit : Json) : Option Window :=
  (field limit ["secondary_window", "secondaryWindow"]).map (Window.mk .secondary)

/-- `std::ptr::eq`, where both are there. -/
def same (left right : Option Window) : Bool :=
  left.any fun left => right.any fun right => left.place = right.place

/-- The windows sorted by their stated length so far. -/
abbrev Sorted := Option Window × Option Window

def sort (sorted : Sorted) (window : Window) : Sorted :=
  match lengthOf window.value with
  | some seconds =>
    if seconds = fiveHours ∧ sorted.1.isNone then (some window, sorted.2)
    else if (seconds = week ∨ isMonthly window.value) ∧ sorted.2.isNone then (sorted.1, some window)
    else sorted
  | none => sorted

/-- The five-hour window and the weekly or monthly one. -/
def classify (limit : Json) : Sorted :=
  let (short, long) := [primary limit, secondary limit].reduceOption.foldl sort (none, none)
  let short := if short.isNone && !same (primary limit) long then primary limit else short
  let long := if long.isNone && !same (secondary limit) short then secondary limit else long
  (short, long)

def reached (limit : Json) : Bool :=
  (field limit ["limit_reached", "limitReached"]).bind asBool = some true ||
    (member limit "allowed").bind asBool = some false

def resetOf (window : Json) (now : Timestamp) : Option Timestamp :=
  ((field window ["reset_at", "resetAt"]).bind (instant runtime floats)).or
    ((field window ["reset_after_seconds", "resetAfterSeconds"]).bind
      (afterSeconds runtime floats · now))

/-- A limit that is reached is used up where its windows name no percentage. -/
def usedOf (window : Json) (reached : Bool) (now : Timestamp) : Option Sql.Float64 :=
  (((field window ["used_percent", "usedPercent"]).bind (number floats)).map
      (usedFromPercent floats)).or
    (if reached && (resetOf runtime floats window now).isSome then some .one else none)

def read (window : Json) (key label : String) (reached : Bool) (now : Timestamp) : NewWindow where
  key := key
  label := label
  usedFraction := usedOf runtime floats window reached now
  usedValue := none
  limitValue := none
  unit := none
  windowSeconds := (lengthOf window).filter (0 < ·)
  resetsAt := resetOf runtime floats window now
  scope := .account
  startsOnUse := false

def pushPair (limit : Json) (keyStart labelStart : String) (now : Timestamp) : List NewWindow :=
  let (short, long) := classify limit
  (short.map fun window => read runtime floats window.value (keyStart ++ "five-hour")
      (labelStart ++ "5-hour") (reached limit) now).toList ++
    (long.map fun window =>
      let (id, label) := if isMonthly window.value then ("monthly", "Monthly") else ("weekly", "Weekly")
      let label := if labelStart = "" then label else labelStart ++ runtime.toLowercase label
      read runtime floats window.value (keyStart ++ id) label (reached limit) now).toList

/-- The windows of one of the additional limits, by its place among them. -/
def pushAdditional (item : Json) (index : Nat) (now : Timestamp) : List NewWindow :=
  match field item ["rate_limit", "rateLimit"] with
  | none => []
  | some limit =>
    let fallback := "additional-" ++ toString (index + 1)
    let name := (((field item ["limit_name", "limitName"]).bind textOf).or
      ((field item ["metered_feature", "meteredFeature"]).bind textOf)).getD fallback
    let start := if slug runtime name = "" then fallback else slug runtime name
    let (short, long) := classify limit
    (short.map fun window => read runtime floats window.value
        (start ++ "-five-hour-" ++ toString index) (name ++ " 5-hour") (reached limit) now).toList ++
      (long.map fun window =>
        let id := if isMonthly window.value then "monthly" else "weekly"
        read runtime floats window.value (start ++ "-" ++ id ++ "-" ++ toString index)
          (name ++ " " ++ id) (reached limit) now).toList

def additional (usage : Json) : List Json :=
  match field usage ["additional_rate_limits", "additionalRateLimits"] with
  | some (.array items) => items
  | _ => []

def windows (usage : Json) (now : Timestamp) : List NewWindow :=
  ((field usage ["rate_limit", "rateLimit"]).map fun limit =>
      pushPair runtime floats limit "" "" now).getD [] ++
    ((field usage ["code_review_rate_limit", "codeReviewRateLimit"]).map fun limit =>
      pushPair runtime floats limit "code-review-" "Code review " now).getD [] ++
    (additional usage).zipIdx.flatMap fun item => pushAdditional runtime floats item.1 item.2 now

/-- What a window's stated length makes it. -/
inductive Kind where
  | fiveHour
  | longer
  | other
deriving DecidableEq, Repr

def kindOf (window : Json) : Kind :=
  match lengthOf window with
  | some seconds =>
    if seconds = fiveHours then .fiveHour
    else if seconds = week ∨ isMonthly window then .longer
    else .other
  | none => .other

/-- The window objects of a limit. -/
def objects (limit : Json) : List Window := [primary limit, secondary limit].reduceOption

/-- The windows of a limit that are read. -/
def kept (limit : Json) : List Window := [(classify limit).1, (classify limit).2].reduceOption

/-- A limit of two windows whose second finds its place taken: the first is a longer one and the
second no five-hour one, or the second is the five-hour one and the first is neither. -/
def Loses (limit : Json) : Prop :=
  ∃ first second, primary limit = some first ∧ secondary limit = some second ∧
    (kindOf first.value = .longer ∧ kindOf second.value ≠ .fiveHour ∨
      kindOf first.value = .other ∧ kindOf second.value = .fiveHour)

theorem sort_eq (sorted : Sorted) (window : Window) :
    sort sorted window = match kindOf window.value with
      | .fiveHour => if sorted.1.isNone then (some window, sorted.2) else sorted
      | .longer => if sorted.2.isNone then (sorted.1, some window) else sorted
      | .other => sorted := by
  unfold sort kindOf
  cases length : lengthOf window.value with
  | none => rfl
  | some seconds =>
    simp only
    by_cases five : seconds = fiveHours
    · have short : ¬(seconds = week ∨ isMonthly window.value = true) := by
        subst five
        unfold isMonthly
        rw [length]
        decide
      simp only [five, true_and, if_true]
      rw [five] at short
      simp [short]
    · by_cases long : seconds = week ∨ isMonthly window.value = true <;> simp [five, long]

theorem kept_two {limit first second : Json}
    (one : field limit ["primary_window", "primaryWindow"] = some first)
    (two : field limit ["secondary_window", "secondaryWindow"] = some second) :
    kept limit = match kindOf first, kindOf second with
      | .fiveHour, _ => [⟨.primary, first⟩, ⟨.secondary, second⟩]
      | .longer, .fiveHour => [⟨.secondary, second⟩, ⟨.primary, first⟩]
      | .longer, _ => [⟨.primary, first⟩]
      | .other, .fiveHour => [⟨.secondary, second⟩]
      | .other, _ => [⟨.primary, first⟩, ⟨.secondary, second⟩] := by
  unfold kept classify primary secondary
  rw [one, two]
  cases earlier : kindOf first <;> cases later : kindOf second <;>
    simp [sort_eq, same, earlier, later]

theorem kept_one {limit : Json}
    (alone : primary limit = none ∨ secondary limit = none) : kept limit = objects limit := by
  unfold kept classify objects
  unfold primary secondary at *
  rcases Option.eq_none_or_eq_some (field limit ["primary_window", "primaryWindow"]) with
    one | ⟨first, one⟩ <;>
  rcases Option.eq_none_or_eq_some (field limit ["secondary_window", "secondaryWindow"]) with
    two | ⟨second, two⟩ <;> rw [one, two]
  · rfl
  · cases kind : kindOf second <;> simp [sort_eq, same, kind]
  · cases kind : kindOf first <;> simp [sort_eq, same, kind]
  · simp [one, two] at alone

theorem kept_perm {limit : Json} (stays : ¬Loses limit) : (kept limit).Perm (objects limit) := by
  by_cases alone : primary limit = none ∨ secondary limit = none
  · rw [kept_one alone]
  · rw [not_or] at alone
    obtain ⟨first, one⟩ := Option.ne_none_iff_exists'.mp alone.1
    obtain ⟨second, two⟩ := Option.ne_none_iff_exists'.mp alone.2
    obtain ⟨earlier, found, rfl⟩ := Option.map_eq_some_iff.mp one
    obtain ⟨later, known, rfl⟩ := Option.map_eq_some_iff.mp two
    have both : objects limit = [⟨.primary, earlier⟩, ⟨.secondary, later⟩] := by
      unfold objects
      rw [one, two]
      rfl
    have apart : ¬(kindOf earlier = .longer ∧ kindOf later ≠ .fiveHour ∨
        kindOf earlier = .other ∧ kindOf later = .fiveHour) := fun loses =>
      stays ⟨_, _, one, two, loses⟩
    rw [both, kept_two found known]
    cases first : kindOf earlier <;> cases second : kindOf later <;> simp [first, second] at apart ⊢
    exact List.Perm.swap _ _ _

theorem kept_lost {limit : Json} (loses : Loses limit) :
    (kept limit).length < (objects limit).length := by
  obtain ⟨first, second, one, two, kinds⟩ := loses
  obtain ⟨earlier, found, rfl⟩ := Option.map_eq_some_iff.mp one
  obtain ⟨later, known, rfl⟩ := Option.map_eq_some_iff.mp two
  have both : objects limit = [⟨.primary, earlier⟩, ⟨.secondary, later⟩] := by
    unfold objects
    rw [one, two]
    rfl
  rw [both, kept_two found known]
  rcases kinds with ⟨first, second⟩ | ⟨first, second⟩
  · simp only at first second
    cases kind : kindOf later <;> simp [first, kind] at second ⊢
  · simp only at first second
    simp [first, second]

/-- What a window says of its object: its percentage, its length and its reset. -/
def carried (window : NewWindow) : Option Sql.Float64 × Option Int × Option Timestamp :=
  (window.usedFraction, window.windowSeconds, window.resetsAt)

/-- What a window object of a limit says. -/
def said (limit : Json) (now : Timestamp) (window : Window) :
    Option Sql.Float64 × Option Int × Option Timestamp :=
  (usedOf runtime floats window.value (reached limit) now, (lengthOf window.value).filter (0 < ·),
    resetOf runtime floats window.value now)

/-- The limits of an answer. -/
def limits (usage : Json) : List Json :=
  (field usage ["rate_limit", "rateLimit"]).toList ++
    (field usage ["code_review_rate_limit", "codeReviewRateLimit"]).toList ++
    (additional usage).filterMap (field · ["rate_limit", "rateLimit"])

/-- Every window object of an answer is read once, as what it says, under a key of its own, so that
none is dropped where the windows are stored. -/
structure LosesNone (usage : Json) (now : Timestamp) : Prop where
  windows : ((windows runtime floats usage now).map carried).Perm
    ((limits usage).flatMap fun limit => (objects limit).map (said runtime floats limit now))
  keys : ((CodexWindows.windows runtime floats usage now).map NewWindow.key).Nodup
  stored : firsts NewWindow.key (CodexWindows.windows runtime floats usage now) =
    CodexWindows.windows runtime floats usage now

variable {runtime} {floats} {usage limit : Json} {now : Timestamp}

theorem carried_pushPair (keyStart labelStart : String) :
    (pushPair runtime floats limit keyStart labelStart now).map carried =
      (kept limit).map (said runtime floats limit now) := by
  unfold pushPair kept
  obtain ⟨short, long⟩ := classify limit
  cases short <;> cases long <;> rfl

theorem carried_pushAdditional (item : Json) (index : Nat) :
    (pushAdditional runtime floats item index now).map carried =
      (field item ["rate_limit", "rateLimit"]).toList.flatMap fun limit =>
        (kept limit).map (said runtime floats limit now) := by
  unfold pushAdditional
  cases field item ["rate_limit", "rateLimit"] with
  | none => rfl
  | some limit =>
    unfold kept
    simp only [Option.toList_some, List.flatMap_cons, List.flatMap_nil, List.append_nil]
    obtain ⟨short, long⟩ := classify limit
    cases short <;> cases long <;> rfl

theorem carried_windows (usage : Json) (now : Timestamp) :
    (windows runtime floats usage now).map carried =
      (limits usage).flatMap fun limit => (kept limit).map (said runtime floats limit now) := by
  have pairs (found : Option Json) (keyStart labelStart : String) :
      ((found.map fun limit => pushPair runtime floats limit keyStart labelStart now).getD []).map
        carried = found.toList.flatMap fun limit => (kept limit).map (said runtime floats limit now) := by
    cases found with
    | none => rfl
    | some limit =>
      simp only [Option.map_some, Option.getD_some, Option.toList_some, List.flatMap_cons,
        List.flatMap_nil, List.append_nil]
      exact carried_pushPair keyStart labelStart
  have rest (items : List (Json × Nat)) :
      (items.flatMap fun item => pushAdditional runtime floats item.1 item.2 now).map carried =
        ((items.map Prod.fst).filterMap (field · ["rate_limit", "rateLimit"])).flatMap fun limit =>
          (kept limit).map (said runtime floats limit now) := by
    induction items with
    | nil => rfl
    | cons item more ih =>
      rw [List.flatMap_cons, List.map_append, ih, carried_pushAdditional, List.map_cons,
        List.filterMap_cons]
      cases field item.1 ["rate_limit", "rateLimit"] <;> simp
  unfold windows limits
  rw [List.map_append, List.map_append, pairs, pairs, rest, List.zipIdx_map_fst, List.flatMap_append,
    List.flatMap_append]

/-- What follows the last dash of a key. -/
def ending (key : String) : List Char := key.toList.reverse.takeWhile (· ≠ '-')

/-- A number printed after a dash ends the key. -/
theorem ending_numbered (start : String) (index : Nat) :
    ending (start ++ "-" ++ toString index) = (toString index).toList.reverse := by
  have digits : ∀ digit ∈ (toString index).toList.reverse, decide (digit ≠ '-') = true := by
    intro digit member
    have printed : (toString index).toList = Nat.toDigits 10 index := Nat.toList_repr
    rw [List.mem_reverse, printed] at member
    have isDigit : digit.isDigit = true := Nat.isDigit_of_mem_toDigits (by decide) (by decide) member
    simp only [decide_eq_true_eq]
    rintro rfl
    exact absurd isDigit (by decide)
  unfold ending
  rw [String.toList_append, String.toList_append, List.reverse_append, List.reverse_append,
    List.takeWhile_append_of_pos digits]
  have dash : ("-".toList.reverse ++ start.toList.reverse).takeWhile (fun letter => decide (letter ≠ '-')) = [] := rfl
  rw [dash, List.append_nil]

theorem toString_injective {first second : Nat}
    (equal : (toString first).toList = (toString second).toList) : first = second := by
  have left : (toString first).toList = Nat.toDigits 10 first := Nat.toList_repr
  have right : (toString second).toList = Nat.toDigits 10 second := Nat.toList_repr
  rw [left, right] at equal
  have values := congrArg (fun digits => Nat.ofDigitChars 10 digits 0) equal
  simpa only [Nat.ofDigitChars_ten_toDigits] using values

theorem ending_ne_numbered {key : String} {letter : Char} (last : letter ∈ ending key)
    (spelled : letter.isDigit = false) (index : Nat) : ending key ≠ (toString index).toList.reverse := by
  intro equal
  have printed : (toString index).toList = Nat.toDigits 10 index := Nat.toList_repr
  rw [equal, List.mem_reverse, printed] at last
  have isDigit : letter.isDigit = true := Nat.isDigit_of_mem_toDigits (by decide) (by decide) last
  rw [spelled] at isDigit
  cases isDigit

/-- The keys a pair is read under. -/
def pairKeys (start : String) : List String := [start ++ "five-hour", start ++ "monthly", start ++ "weekly"]

theorem keys_pushPair (keyStart labelStart : String) :
    List.Sublist ((pushPair runtime floats limit keyStart labelStart now).map NewWindow.key)
      (pairKeys keyStart) := by
  unfold pushPair pairKeys
  obtain ⟨short, long⟩ := classify limit
  cases short with
  | none =>
    cases long with
    | none => exact List.nil_sublist _
    | some window => cases monthly : isMonthly window.value <;> simp [read, monthly]
  | some window =>
    cases long with
    | none => simp [read]
    | some window => cases monthly : isMonthly window.value <;> simp [read, monthly]

/-- The keys an additional limit is read under. -/
def additionalKeys (start : String) (index : Nat) : List String :=
  [start ++ "-five-hour" ++ "-" ++ toString index, start ++ "-monthly" ++ "-" ++ toString index,
    start ++ "-weekly" ++ "-" ++ toString index]

theorem keys_pushAdditional (runtime : Sql.Runtime) (floats : Floats) (item : Json) (index : Nat)
    (now : Timestamp) : ∃ start, List.Sublist
      ((pushAdditional runtime floats item index now).map NewWindow.key)
      (additionalKeys start index) := by
  unfold pushAdditional
  cases field item ["rate_limit", "rateLimit"] with
  | none => exact ⟨"", List.nil_sublist _⟩
  | some limit =>
    simp only
    generalize (if slug runtime _ = "" then _ else _ : String) = start
    refine ⟨start, ?_⟩
    have five : start ++ "-five-hour-" = start ++ "-five-hour" ++ "-" := by
      rw [String.append_assoc]
      rfl
    have one (id : String) : start ++ "-" ++ id ++ "-" = start ++ ("-" ++ id) ++ "-" := by
      simp only [String.append_assoc]
    unfold additionalKeys
    obtain ⟨short, long⟩ := classify limit
    cases short with
    | none =>
      cases long with
      | none => exact List.nil_sublist _
      | some window => cases monthly : isMonthly window.value <;> simp [read, monthly, one]
    | some window =>
      cases long with
      | none => simp [read, five]
      | some window => cases monthly : isMonthly window.value <;> simp [read, monthly, five, one]

theorem nodup_additionalKeys (start : String) (index : Nat) : (additionalKeys start index).Nodup := by
  have apart {first second : String} (different : first ≠ second) :
      start ++ first ++ "-" ++ toString index ≠ start ++ second ++ "-" ++ toString index := by
    intro equal
    have letters := congrArg String.toList equal
    simp only [String.toList_append, List.append_assoc] at letters
    have middle := List.append_cancel_left letters
    exact different (String.toList_inj.mp (List.append_cancel_right middle))
  unfold additionalKeys
  simp only [List.nodup_cons, List.mem_cons, List.not_mem_nil, or_false, not_or, not_false_eq_true,
    List.nodup_nil, and_true]
  exact ⟨⟨apart (by decide), apart (by decide)⟩, apart (by decide)⟩

theorem ending_additionalKeys {start key : String} {index : Nat} (member : key ∈ additionalKeys start index) :
    ending key = (toString index).toList.reverse := by
  simp only [additionalKeys, List.mem_cons, List.not_mem_nil, or_false] at member
  rcases member with rfl | rfl | rfl <;> exact ending_numbered _ index

theorem nodup_pairKeys : (pairKeys "" ++ pairKeys "code-review-").Nodup := by decide

theorem word_pairKeys {key : String} (member : key ∈ pairKeys "" ++ pairKeys "code-review-") :
    ∃ letter ∈ ending key, letter.isDigit = false := by
  have each : ∀ key ∈ pairKeys "" ++ pairKeys "code-review-",
      (ending key).any (fun letter => !letter.isDigit) = true := by decide
  obtain ⟨letter, here, spelled⟩ := List.any_eq_true.mp (each key member)
  exact ⟨letter, here, by simpa using spelled⟩

theorem nodup_additional (items : List Json) :
    ((items.zipIdx.flatMap fun item => pushAdditional runtime floats item.1 item.2 now).map
      NewWindow.key).Nodup := by
  rw [List.map_flatMap, List.nodup_flatMap]
  constructor
  · intro item _
    obtain ⟨start, keys⟩ := keys_pushAdditional runtime floats item.1 item.2 now
    exact keys.nodup (nodup_additionalKeys start item.2)
  · have places : items.zipIdx.Pairwise fun first second => first.2 ≠ second.2 := by
      have distinct : (items.zipIdx.map Prod.snd).Nodup := by
        rw [List.zipIdx_map_snd]
        exact List.nodup_range'
      exact List.pairwise_map.mp distinct
    refine places.imp fun {first second} apart key left right => ?_
    obtain ⟨start, here⟩ := keys_pushAdditional runtime floats first.1 first.2 now
    obtain ⟨other, there⟩ := keys_pushAdditional runtime floats second.1 second.2 now
    have equal := (ending_additionalKeys (here.subset left)).symm.trans
      (ending_additionalKeys (there.subset right))
    exact apart (toString_injective (List.reverse_injective equal))

theorem nodup_keys (usage : Json) (now : Timestamp) :
    ((windows runtime floats usage now).map NewWindow.key).Nodup := by
  have pair (found : Option Json) (keyStart labelStart : String) : List.Sublist
      (((found.map fun limit => pushPair runtime floats limit keyStart labelStart now).getD []).map
        NewWindow.key) (pairKeys keyStart) := by
    cases found with
    | none => exact List.nil_sublist _
    | some limit => exact keys_pushPair keyStart labelStart
  have pairs := (pair (field usage ["rate_limit", "rateLimit"]) "" "").append
    (pair (field usage ["code_review_rate_limit", "codeReviewRateLimit"]) "code-review-" "Code review ")
  unfold windows
  rw [List.map_append, List.map_append]
  refine List.nodup_append'.mpr ⟨pairs.nodup nodup_pairKeys, nodup_additional _, ?_⟩
  intro key left right
  obtain ⟨letter, last, spelled⟩ := word_pairKeys (pairs.subset left)
  rw [List.map_flatMap, List.mem_flatMap] at right
  obtain ⟨item, _, here⟩ := right
  obtain ⟨start, keys⟩ := keys_pushAdditional runtime floats item.1 item.2 now
  exact ending_ne_numbered last spelled item.2 (ending_additionalKeys (keys.subset here))

theorem kept_length_le (limit : Json) : (kept limit).length ≤ (objects limit).length := by
  by_cases loses : Loses limit
  · exact (kept_lost loses).le
  · exact (kept_perm loses).length_eq.le

/-- An answer loses no window exactly where no limit of it finds both its places taken. -/
theorem losesNone_iff (runtime : Sql.Runtime) (floats : Floats) (usage : Json) (now : Timestamp) :
    LosesNone runtime floats usage now ↔ ∀ limit ∈ limits usage, ¬Loses limit := by
  constructor
  · intro whole limit member loses
    have counted := whole.windows.length_eq
    rw [carried_windows, List.length_flatMap, List.length_flatMap] at counted
    simp only [List.length_map] at counted
    have fewer : ((limits usage).map fun limit => (kept limit).length).sum <
        ((limits usage).map fun limit => (objects limit).length).sum :=
      List.sum_lt_sum _ _ (fun other _ => kept_length_le other) ⟨limit, member, kept_lost loses⟩
    exact fewer.ne counted
  · intro stays
    have keys : ((windows runtime floats usage now).map NewWindow.key).Nodup := nodup_keys usage now
    refine ⟨?_, keys, firsts_of_distinct (List.pairwise_map.mp keys)⟩
    rw [carried_windows]
    exact List.Perm.flatMap_left _ fun limit member => (kept_perm (stays limit member)).map _

/-- A weekly limit with some use left beside a monthly one that is used up. -/
def weeklyAndMonthly : Json :=
  .object [("rate_limit", .object [
    ("primary_window", .object [("used_percent", .number "10"), ("limit_window_seconds", .number "604800")]),
    ("secondary_window",
      .object [("used_percent", .number "100"), ("limit_window_seconds", .number "2592000")])])]

theorem weekly_and_monthly_loses :
    (windows .inert .inert weeklyAndMonthly 0).map NewWindow.key = ["weekly"] ∧
      ¬LosesNone .inert .inert weeklyAndMonthly 0 := by
  have lone : (windows .inert .inert weeklyAndMonthly 0).map NewWindow.key = ["weekly"] := by
    decide
  refine ⟨lone, fun whole => ?_⟩
  have stated : ((limits weeklyAndMonthly).flatMap fun limit =>
      (objects limit).map (said .inert .inert limit 0)).length = 2 := by decide
  have counted := whole.windows.length_eq
  rw [stated, List.length_map, ← List.length_map NewWindow.key, lone] at counted
  cases counted

end MeteredUsage.Gateway.CodexWindows

import Mathlib.Algebra.Order.Ring.Rat
import Mathlib.Data.Rat.Floor
import MeteredUsage.Store.Resync

/-! The first token counts of a map's prices, against the whole numbers its long-context keys and
its tiers' ranges name. -/

namespace MeteredUsage.Store.Thresholds
open MeteredUsage.Values MeteredUsage.Store.Prices MeteredUsage.Store.CostMap
open MeteredUsage.Store.Resync
open MeteredUsage.Store.Response (asI64 asDigits asInteger fits_asInteger)
open MeteredUsage.Collector.LiteLlm (wrap64)

/-- The number a float stands for, where it is finite. -/
def number (value : Sql.Float64) : Option ℚ :=
  let exponent : Nat := value.magnitude / 2 ^ 52
  let fraction : Nat := value.magnitude % 2 ^ 52
  let magnitude : ℚ := if exponent = 0 then fraction / 2 ^ 1074
    else (2 ^ 52 + fraction) * 2 ^ exponent / 2 ^ 1075
  if value.isFinite then some (if value.isSignNegative then -magnitude else magnitude) else none

/-- The nearest whole number, the even one of two. -/
def nearestEven (number : ℚ) : Int :=
  let below := number.floor
  if number - below < 1 / 2 then below
  else if 1 / 2 < number - below then below + 1
  else below + below % 2

theorem nearestEven_int (whole : Int) : nearestEven whole = whole := by
  unfold nearestEven
  simp

/-- A whole number as text, of any size. -/
def written (characters : List Char) (signs : List Char) : Option Int :=
  match characters with
  | '-' :: digits => (asDigits digits).map fun magnitude => -magnitude
  | first :: digits =>
    if first ∈ signs then (asDigits digits).map Int.ofNat
    else (asDigits (first :: digits)).map Int.ofNat
  | [] => none

theorem asI64_eq_some_iff {characters signs : List Char} {value : Int} :
    asI64 characters signs = some value ↔ written characters signs = some value ∧ Fits value := by
  change (written characters signs).filter _ = _ ↔ _
  rw [Option.filter_eq_some_iff, Bool.and_eq_true, decide_eq_true_eq, decide_eq_true_eq]
  rfl

theorem wrap_eq_self_iff (value : Int) : wrap64 value = value ↔ Fits value := by
  unfold wrap64 Fits
  omega

/-- A count of tokens, where it is one and an `i64` holds it. -/
def counted (tokens : Int) : Option Int := if 0 ≤ tokens ∧ tokens < 2 ^ 63 then some tokens else none

/-- The thousands of tokens a long-context key names, however many. -/
def writtenThousands (key : String) : Option Int := do
  let rest ← stripPrefix longContextPrefix.toList key.toList
  let thousands ← stripSuffix longContextSuffix.toList rest
  written thousands ['+']

/-- The threshold a key names, exactly; a key without one an `i64` holds is skipped. -/
def exactThreshold (past : Int) (member : String × Json) : Option (String × Int) :=
  (writtenThousands member.1).bind fun thousands =>
    (counted (thousands * 1000 + past)).map fun count => (tailOf thousands, count)

/-- The number a JSON number is held as. -/
def valueOf (floats : Floats) : Json → Option ℚ
  | .number text => ((asInteger (.number text)).map Int.cast).or ((floats.asF64 text).bind number)
  | _ => none

/-- The bound a tier's range begins with. -/
def lowerBound (tier : Members) : Option Json :=
  match get tier "range" with
  | some (.array (first :: _)) => some first
  | _ => none

/-- The start of a tier's range. -/
def rangeStart (floats : Floats) (tier : Members) : Option ℚ :=
  (lowerBound tier).bind (valueOf floats)

/-- The first token count past the start of a range. -/
def pastStart (start : Int) : Int := start + if 0 < start then 1 else 0

/-- The first token count of a tier, exactly; a tier without one an `i64` holds is skipped. -/
def exactFirst (floats : Floats) (tier : Members) : Option Int :=
  (rangeStart floats tier).bind fun start =>
    if start.den = 1 then counted (pastStart start.num) else none

/-- A float that a JSON number is read as is finite, and is printed as the nearest whole number. -/
def PrintsWhole (floats : Floats) : Prop :=
  ∀ text value, floats.asF64 text = some value → ∃ exact, number value = some exact ∧
    written (floats.whole value).toList ['+'] = some (nearestEven exact)

/-- A first token count that something in the entry names. -/
def Named (floats : Floats) (entry : Members) (count : Int) : Prop :=
  count = 0 ∨
    (∃ member ∈ entry, ∃ thousands, writtenThousands member.1 = some thousands ∧
      count = thousands * 1000 + pastThreshold entry) ∨
    ∃ tier ∈ tiersOf entry, ∃ start : Int, rangeStart floats tier = some (start : ℚ) ∧
      count = pastStart start

/-- Every key and every tier of an entry leads to its exact threshold or is skipped, and no price
starts at any other count. -/
structure CountsExactly (floats : Floats) (model : String) (entry : Members) : Prop where
  keys : ∀ member ∈ entry,
    thresholdOf (pastThreshold entry) member = exactThreshold (pastThreshold entry) member
  tiers : ∀ tier ∈ tiersOf entry, firstOf floats tier = exactFirst floats tier
  prices : ∀ price ∈ entryPrices floats model entry,
    0 ≤ price.minInputTokens ∧ Named floats entry price.minInputTokens

/-- What an entry names within 64 bits it names as a count that its threshold can start at. -/
structure Countable (floats : Floats) (entry : Members) : Prop where
  keys : ∀ member ∈ entry, ∀ thousands, writtenThousands member.1 = some thousands →
    Fits thousands → 0 ≤ thousands ∧ thousands * 1000 + pastThreshold entry < 2 ^ 63
  tiers : ∀ tier ∈ tiersOf entry, ∀ start, rangeStart floats tier = some start →
    Fits (nearestEven start) → start.den = 1 ∧ 0 ≤ start.num ∧ start.num + 1 < 2 ^ 63

variable {floats : Floats} {model : String} {entry tier : Members} {past : Int}

theorem thousandsOf_eq_some_iff {key : String} {thousands : Int} :
    thousandsOf key = some thousands ↔ writtenThousands key = some thousands ∧ Fits thousands := by
  unfold thousandsOf writtenThousands
  simp only [Option.bind_eq_bind, Option.bind_eq_some_iff, asI64_eq_some_iff]
  constructor
  · rintro ⟨rest, start, digits, finish, named, fits⟩
    exact ⟨⟨rest, start, digits, finish, named⟩, fits⟩
  · rintro ⟨⟨rest, start, digits, finish, named⟩, fits⟩
    exact ⟨rest, start, digits, finish, named, fits⟩

theorem counted_eq_some_iff {tokens count : Int} :
    counted tokens = some count ↔ tokens = count ∧ 0 ≤ count ∧ count < 2 ^ 63 := by
  unfold counted
  split
  next holds => simp; omega
  next fails => simp; omega

/-- A key's threshold is exact unless its thousands are negative or too many. -/
theorem thresholdOf_exact_iff (near : past = 0 ∨ past = 1) (member : String × Json) :
    thresholdOf past member = exactThreshold past member ↔ ∀ thousands,
      writtenThousands member.1 = some thousands → Fits thousands →
        0 ≤ thousands ∧ thousands * 1000 + past < 2 ^ 63 := by
  cases named : writtenThousands member.1 with
  | none =>
    have unread : thousandsOf member.1 = none := by
      apply Option.eq_none_iff_forall_ne_some.mpr
      intro thousands read
      rw [(thousandsOf_eq_some_iff.mp read).1] at named
      cases named
    simp [thresholdOf, exactThreshold, unread, named]
  | some thousands =>
    simp only [exactThreshold, named, Option.bind_some, Option.some.injEq, forall_eq']
    by_cases fits : Fits thousands
    · rw [thresholdOf_named past (thousandsOf_eq_some_iff.mpr ⟨named, fits⟩)]
      simp only [fits, true_imp_iff]
      constructor
      · intro same
        obtain ⟨count, read, _⟩ := Option.map_eq_some_iff.mp same.symm
        have bounds := counted_eq_some_iff.mp read
        omega
      · rintro ⟨nonneg, below⟩
        have held : counted (thousands * 1000 + past) = some (thousands * 1000 + past) :=
          counted_eq_some_iff.mpr ⟨rfl, by omega, below⟩
        have whole := (wrap_eq_self_iff (thousands * 1000 + past)).mpr ⟨by omega, below⟩
        rw [held, whole]
        rfl
    · have unread : thousandsOf member.1 = none := by
        apply Option.eq_none_iff_forall_ne_some.mpr
        intro other read
        obtain ⟨same, within⟩ := thousandsOf_eq_some_iff.mp read
        rw [named] at same
        exact fits (Option.some.inj same ▸ within)
      have skipped : counted (thousands * 1000 + past) = none := by
        unfold counted
        unfold Fits at fits
        rw [if_neg (by omega)]
      simp [thresholdOf, unread, skipped, fits]

theorem tokens_eq_some_iff (printed : PrintsWhole floats) {json : Json} {start : Int} :
    tokens floats json = some start ↔
      ∃ exact, valueOf floats json = some exact ∧ nearestEven exact = start ∧ Fits start := by
  cases json with
  | number text =>
    change (asInteger (.number text)).or ((floats.asF64 text).bind fun value =>
      asI64 (floats.whole value).toList ['+']) = some start ↔ ∃ exact,
        ((asInteger (.number text)).map Int.cast).or ((floats.asF64 text).bind number) = some exact ∧ _
    cases held : asInteger (.number text) with
    | some whole =>
      have fits : Fits whole := fits_asInteger held
      simp only [Option.some_or, Option.map_some, Option.some.injEq]
      constructor
      · rintro rfl
        exact ⟨_, rfl, nearestEven_int whole, fits⟩
      · rintro ⟨_, rfl, same, _⟩
        rw [← same, nearestEven_int]
    | none =>
      simp only [Option.none_or, Option.map_none]
      cases float : floats.asF64 text with
      | none => simp
      | some value =>
        obtain ⟨exact, finite, whole⟩ := printed text value float
        simp only [Option.bind_some, finite, asI64_eq_some_iff, whole, Option.some.injEq]
        constructor
        · rintro ⟨rfl, fits⟩
          exact ⟨exact, rfl, rfl, fits⟩
        · rintro ⟨_, rfl, same, fits⟩
          exact ⟨same, fits⟩
  | _ => simp [tokens, valueOf]

theorem firstOf_eq (tier : Members) : firstOf floats tier =
    (lowerBound tier).bind fun bound => (tokens floats bound).map fun start =>
      wrap64 (pastStart start) := by
  unfold firstOf lowerBound
  cases get tier "range" with
  | none => rfl
  | some range =>
    cases range with
    | array items => cases items <;> rfl
    | _ => rfl

theorem firstOf_rounded (printed : PrintsWhole floats) (tier : Members) : firstOf floats tier =
    (rangeStart floats tier).bind fun start =>
      if Fits (nearestEven start) then some (wrap64 (pastStart (nearestEven start))) else none := by
  rw [firstOf_eq, rangeStart, Option.bind_assoc]
  apply Option.bind_congr
  intro bound _
  ext count
  simp only [Option.map_eq_some_iff, Option.bind_eq_some_iff, tokens_eq_some_iff printed]
  constructor
  · rintro ⟨start, ⟨exact, held, rfl, fits⟩, rfl⟩
    exact ⟨exact, held, if_pos fits⟩
  · rintro ⟨exact, held, first⟩
    split at first
    next fits =>
      cases first
      exact ⟨_, ⟨exact, held, rfl, fits⟩, rfl⟩
    next => cases first

/-- The first token count of a tier is exact unless its range starts between two whole numbers, below
none or at the last an `i64` holds. -/
theorem firstOf_exact_iff (printed : PrintsWhole floats) (tier : Members) :
    firstOf floats tier = exactFirst floats tier ↔ ∀ start, rangeStart floats tier = some start →
      Fits (nearestEven start) → start.den = 1 ∧ 0 ≤ start.num ∧ start.num + 1 < 2 ^ 63 := by
  rw [firstOf_rounded printed, exactFirst]
  cases rangeStart floats tier with
  | none => simp
  | some start =>
    simp only [Option.bind_some, Option.some.injEq, forall_eq']
    have whole : start.den = 1 → nearestEven start = start.num := by
      intro whole
      rw [← Rat.coe_int_num_of_den_eq_one whole, nearestEven_int, Rat.num_intCast]
    by_cases fits : Fits (nearestEven start)
    · rw [if_pos fits]
      simp only [fits, true_imp_iff]
      constructor
      · intro same
        split at same
        next den =>
          have bounds := counted_eq_some_iff.mp same.symm
          unfold pastStart at bounds
          refine ⟨den, ?_⟩
          split at bounds <;> omega
        next => cases same
      · rintro ⟨den, nonneg, below⟩
        have held : 0 ≤ pastStart start.num ∧ pastStart start.num < 2 ^ 63 := by
          unfold pastStart
          split <;> omega
        rw [if_pos den, whole den, counted_eq_some_iff.mpr ⟨rfl, held.1, held.2⟩]
        exact congrArg some ((wrap_eq_self_iff _).mpr ⟨by omega, held.2⟩)
    · rw [if_neg fits]
      simp only [fits, false_imp_iff, iff_true]
      split
      next den =>
        rw [whole den] at fits
        unfold counted pastStart
        unfold Fits at fits
        split <;> split <;> first | rfl | omega
      next => rfl

theorem mem_withTiers {tiers : List Members} {prices : List CatalogPrice} {price : CatalogPrice}
    (member : price ∈ tiers.foldl (withTier floats model entry) prices) :
    price ∈ prices ∨ ∃ tier ∈ tiers, firstOf floats tier = some price.minInputTokens := by
  induction tiers generalizing prices with
  | nil => exact .inl member
  | cons tier rest ih =>
    rcases ih member with known | ⟨other, listed, first⟩
    · unfold withTier at known
      split at known
      next => exact .inl known
      next count first =>
        split at known
        next => exact .inl known
        next =>
          rcases List.mem_append.mp known with known | added
          · exact .inl known
          · obtain ⟨rates, _, rfl⟩ := Option.map_eq_some_iff.mp (Option.mem_toList.mp added)
            exact .inr ⟨tier, List.mem_cons_self, first⟩
    · exact .inr ⟨other, List.mem_cons_of_mem _ listed, first⟩

theorem mem_namedPrices {price : CatalogPrice} (member : price ∈ namedPrices floats model entry) :
    ∃ threshold ∈ thresholds entry, price.minInputTokens = threshold.2 := by
  obtain ⟨threshold, listed, priced⟩ := List.mem_flatMap.mp member
  obtain ⟨tier, _, priced⟩ := List.mem_filterMap.mp priced
  obtain ⟨rates, _, rfl⟩ := Option.map_eq_some_iff.mp priced
  exact ⟨threshold, listed, rfl⟩

theorem named_of_key {member : String × Json} {threshold : String × Int} (listed : member ∈ entry)
    (exact : exactThreshold (pastThreshold entry) member = some threshold) :
    0 ≤ threshold.2 ∧ Named floats entry threshold.2 := by
  obtain ⟨thousands, named, counts⟩ := Option.bind_eq_some_iff.mp exact
  obtain ⟨count, held, rfl⟩ := Option.map_eq_some_iff.mp counts
  obtain ⟨same, nonneg, _⟩ := counted_eq_some_iff.mp held
  exact ⟨nonneg, .inr (.inl ⟨member, listed, thousands, named, same.symm⟩)⟩

theorem named_of_tier {count : Int} (listed : tier ∈ tiersOf entry)
    (exact : exactFirst floats tier = some count) : 0 ≤ count ∧ Named floats entry count := by
  obtain ⟨start, starts, counts⟩ := Option.bind_eq_some_iff.mp exact
  split at counts
  next whole =>
    obtain ⟨same, nonneg, _⟩ := counted_eq_some_iff.mp counts
    refine ⟨nonneg, .inr (.inr ⟨tier, listed, start.num, ?_, same.symm⟩)⟩
    rw [starts, Rat.coe_int_num_of_den_eq_one whole]
  next => cases counts

/-- Where every threshold is exact or skipped, so are the counts the prices start at. -/
theorem countsExactly_of (model : String)
    (keys : ∀ member ∈ entry,
      thresholdOf (pastThreshold entry) member = exactThreshold (pastThreshold entry) member)
    (tiers : ∀ tier ∈ tiersOf entry, firstOf floats tier = exactFirst floats tier) :
    CountsExactly floats model entry := by
  refine ⟨keys, tiers, fun price member => ?_⟩
  rcases mem_withTiers member with named | ⟨tier, listed, first⟩
  · obtain ⟨threshold, listed, same⟩ := mem_namedPrices named
    rw [same]
    rw [thresholds_eq] at listed
    rcases List.mem_cons.mp listed with rfl | key
    · exact ⟨le_refl 0, .inl rfl⟩
    · obtain ⟨member, isKey, names⟩ := List.mem_filterMap.mp key
      exact named_of_key isKey ((keys member isKey).symm.trans names)
  · exact named_of_tier listed ((tiers tier listed).symm.trans first)

theorem pastThreshold_cases (entry : Members) : pastThreshold entry = 0 ∨ pastThreshold entry = 1 := by
  unfold pastThreshold
  split
  · exact .inl rfl
  · exact .inr rfl

theorem countsExactly_iff (printed : PrintsWhole floats) (model : String) (entry : Members) :
    CountsExactly floats model entry ↔ Countable floats entry := by
  have near := pastThreshold_cases entry
  constructor
  · intro counts
    exact ⟨fun member listed => (thresholdOf_exact_iff near member).mp (counts.keys member listed),
      fun tier listed => (firstOf_exact_iff printed tier).mp (counts.tiers tier listed)⟩
  · intro countable
    apply countsExactly_of model
    · exact fun member listed => (thresholdOf_exact_iff near member).mpr (countable.keys member listed)
    · exact fun tier listed => (firstOf_exact_iff printed tier).mpr (countable.tiers tier listed)

/-- Every threshold of a map is exact or skipped exactly where the map names none below zero, past
64 bits or between two whole numbers. -/
theorem thresholds_exact_iff (floats : Floats) (printed : PrintsWhole floats) (map : Map) :
    (∀ model entry, (model, Json.object entry) ∈ map.members → model ≠ sampleEntry →
      CountsExactly floats model entry) ↔
    ∀ model entry, (model, Json.object entry) ∈ map.members → model ≠ sampleEntry →
      Countable floats entry := by
  simp only [countsExactly_iff printed]

/-- Two numbers are told apart: a start of 256000 and everything else. -/
def twoNumbers : Floats where
  asF64 text := some (if text = "256000.0" then ⟨0x410f400000000000⟩ else .one)
  times _ second := if second = tokensPerMillion then tokensPerMillion else ⟨0x430c6bf526340000⟩
  round := id
  divide _ _ := tokensPerMillion
  whole value := if value = .one then "1" else "256000"

/-- A model's entry with a key and a tier that start where they say. -/
def mapOf (key : String) : Map where
  members := [("model", .object [("input_cost_per_token", .number "1"),
    ("output_cost_per_token", .number "1"), (key, .number "1"),
    ("tiered_pricing", .array [.object [("input_cost_per_token", .number "1"),
      ("output_cost_per_token", .number "1"), ("range", .array [.number "256000.0"])]])])]
  keys := List.nodup_singleton _

theorem printsWhole_twoNumbers : PrintsWhole twoNumbers := by
  intro text value read
  cases read
  by_cases start : text = "256000.0"
  · exact ⟨256000, by rw [if_pos start]; decide +kernel, by rw [if_pos start]; decide +kernel⟩
  · exact ⟨1, by rw [if_neg start]; decide +kernel, by rw [if_neg start]; decide +kernel⟩

/-- The entry of a map of one long-context key. -/
def longContext : Members :=
  [("input_cost_per_token", .number "1"), ("output_cost_per_token", .number "1"),
    ("input_cost_per_token_above_200k_tokens", .number "1"),
    ("tiered_pricing", .array [.object [("input_cost_per_token", .number "1"),
      ("output_cost_per_token", .number "1"), ("range", .array [.number "256000.0"])]])]

theorem a_long_context_counts_exactly : CountsExactly twoNumbers "model" longContext := by
  have countable : ∀ model entry, (model, Json.object entry) ∈
      (mapOf "input_cost_per_token_above_200k_tokens").members → model ≠ sampleEntry →
        Countable twoNumbers entry := by
    intro model entry member _
    obtain ⟨_, same⟩ := Prod.mk.inj (List.mem_singleton.mp member)
    obtain rfl := Json.object.inj same
    constructor
    · intro member listed thousands named _
      simp only [List.mem_cons, List.not_mem_nil, or_false] at listed
      obtain rfl | rfl | rfl | rfl := listed
      · cases named
      · cases named
      · cases named
        decide
      · cases named
    · intro tier listed start starts _
      obtain rfl := List.mem_singleton.mp listed
      have exact : rangeStart twoNumbers [("input_cost_per_token", .number "1"),
          ("output_cost_per_token", .number "1"), ("range", .array [.number "256000.0"])] =
            some 256000 := by decide +kernel
      obtain rfl := Option.some.inj (exact.symm.trans starts)
      decide
  exact (thresholds_exact_iff twoNumbers printsWhole_twoNumbers _).mpr countable "model" longContext
    (List.mem_singleton.mpr rfl) (by decide)

/-- Of a key with more thousands than 64 bits hold tokens the product wraps, and the price starts
below zero. -/
theorem a_huge_threshold_wraps :
    (catalogOf twoNumbers (mapOf "input_cost_per_token_above_9223372036854775807k_tokens")).prices.map
      CatalogPrice.minInputTokens = [0, -999, 256001] := by
  decide

end MeteredUsage.Store.Thresholds

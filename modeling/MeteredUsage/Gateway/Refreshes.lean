import MeteredUsage.Gateway.Readers
import MeteredUsage.Gateway.ResetGrants

/-! What a hard refresh leaves, whatever the provider answers. Every adapter reads windows that fit the
stored columns, and all but those whose keys the provider names read each window under a key of its own;
so what was read is what is stored. -/

namespace MeteredUsage.Gateway.Refreshes
open MeteredUsage.Values MeteredUsage.Store MeteredUsage.Store.Schema MeteredUsage.Store.Credentials
open MeteredUsage.Store.Windows MeteredUsage.Store.Quota MeteredUsage.Store.Replaced
open MeteredUsage.Library.Interaction MeteredUsage.Library.Transaction MeteredUsage.Library.Keyed
open MeteredUsage.Gateway.Numbers MeteredUsage.Gateway.Adapters MeteredUsage.Gateway.Readers
open MeteredUsage.Gateway.Requests MeteredUsage.Gateway.ResetGrants MeteredUsage.Store.Commits

/-- The units a provider's windows count in, beside shares alone. -/
def unitsOf : Provider → List (Option String)
  | .kimi => [some requests]
  | .claude => [none, some "credits"]
  | .xai => [none, some Xai.cents]
  | _ => [none]

/-- A length that fits the stored column. -/
def Measures (seconds : Int) : Prop := 0 < seconds ∧ seconds < 2 ^ 63

/-- A window an adapter may hand on. Only Antigravity names its own keys, so only there can the key of a
rejected request's evidence turn up; a span of xAI's is what its two instants make it. -/
structure Usable (provider : Provider) (window : NewWindow) : Prop where
  key : provider ≠ .antigravity → window.key ≠ responseKey
  length : ∀ seconds, window.windowSeconds = some seconds →
    if provider = .xai then 0 ≤ seconds else Measures seconds
  scope : window.scope = if provider = .claude then Readers.Claude.scope window.key else .account
  opens : window.startsOnUse = true → provider = .claude ∧ window.windowSeconds = some Readers.fiveHours
  unit : window.unit ∈ unitsOf provider

/-- The providers whose windows are read under keys of their own. -/
def Keyed (provider : Provider) : Prop := provider ≠ .antigravity ∧ provider ≠ .xai

/-- What an adapter may read. -/
structure Reads (provider : Provider) (windows : List NewWindow) : Prop where
  usable : ∀ window ∈ windows, Usable provider window
  distinct : Keyed provider → Distinct NewWindow.key windows

variable {runtime : Sql.Runtime} {toolkit : Toolkit} {provider : Provider} {windows : List NewWindow}

theorem measures_of_integer {value : Json} {seconds : Int} (read : integer value = some seconds)
    (positive : 0 < seconds) : Measures seconds := by
  unfold integer at read
  split at read
  next => exact ⟨positive, (Response.fits_asInteger read).2⟩
  next => exact ⟨positive, (Response.fits_asI64 read).2⟩
  next => cases read

theorem measures_times {duration factor seconds : Int} (some_times : Kimi.times duration factor = some seconds)
    (positive : 0 < duration) (scales : 0 < factor) : Measures seconds := by
  unfold Kimi.times at some_times
  split at some_times
  next fits =>
    cases some_times
    exact ⟨Int.mul_pos positive scales, fits.2⟩
  next => cases some_times

/-- A window without a unit, a scope or a start of its own. -/
theorem usable_plain {window : NewWindow} (plain : provider ≠ .claude ∧ provider ≠ .kimi)
    (key : provider ≠ .antigravity → window.key ≠ responseKey)
    (length : ∀ seconds, window.windowSeconds = some seconds →
      if provider = .xai then 0 ≤ seconds else Measures seconds)
    (scope : window.scope = .account) (opens : window.startsOnUse = false) (unit : window.unit = none) :
    Usable provider window where
  key := key
  length := length
  scope := by rw [scope, if_neg plain.1]
  opens := by
    intro starts
    rw [opens] at starts
    cases starts
  unit := by
    rw [unit]
    cases provider with
    | kimi => exact absurd rfl plain.2
    | _ => simp [unitsOf]

/-- A Codex window comes from one of the two limits of its own, or from an additional one. -/
theorem mem_codex {usage : Json} {now : Timestamp} {window : NewWindow}
    (member : window ∈ CodexWindows.windows runtime toolkit.toFloats usage now) :
    (∃ limit keyStart labelStart, CodexWindows.pairKeys keyStart ⊆
        CodexWindows.pairKeys "" ++ CodexWindows.pairKeys "code-review-" ∧
      window ∈ CodexWindows.pushPair runtime toolkit.toFloats limit keyStart labelStart now) ∨
    ∃ item index, window ∈ CodexWindows.pushAdditional runtime toolkit.toFloats item index now := by
  rcases List.mem_append.mp member with pairs | additional
  · left
    rcases List.mem_append.mp pairs with usual | review
    · cases found : field usage ["rate_limit", "rateLimit"] with
      | none => simp [found] at usual
      | some limit =>
        rw [found] at usual
        exact ⟨limit, _, _, List.subset_append_left _ _, usual⟩
    · cases found : field usage ["code_review_rate_limit", "codeReviewRateLimit"] with
      | none => simp [found] at review
      | some limit =>
        rw [found] at review
        exact ⟨limit, _, _, List.subset_append_right _ _, review⟩
  · obtain ⟨item, -, here⟩ := List.mem_flatMap.mp additional
    exact Or.inr ⟨item.1, item.2, here⟩

/-- A Codex window is one of the objects of a limit, as it is read. -/
theorem codex_window {usage : Json} {now : Timestamp} {window : NewWindow}
    (member : window ∈ CodexWindows.windows runtime toolkit.toFloats usage now) :
    ∃ value key label reached, window = CodexWindows.read runtime toolkit.toFloats value key label reached now := by
  rcases mem_codex member with ⟨limit, keyStart, labelStart, -, here⟩ | ⟨item, index, here⟩
  · rcases List.mem_append.mp here with short | long
    · obtain ⟨object, -, rfl⟩ := Option.map_eq_some_iff.mp (Option.mem_toList.mp short)
      exact ⟨_, _, _, _, rfl⟩
    · obtain ⟨object, -, rfl⟩ := Option.map_eq_some_iff.mp (Option.mem_toList.mp long)
      exact ⟨_, _, _, _, rfl⟩
  · unfold CodexWindows.pushAdditional at here
    split at here
    next => cases here
    next =>
      rcases List.mem_append.mp here with short | long
      · obtain ⟨object, -, rfl⟩ := Option.map_eq_some_iff.mp (Option.mem_toList.mp short)
        exact ⟨_, _, _, _, rfl⟩
      · obtain ⟨object, -, rfl⟩ := Option.map_eq_some_iff.mp (Option.mem_toList.mp long)
        exact ⟨_, _, _, _, rfl⟩

/-- A Codex key is one of six, or ends with a number. -/
theorem codex_key {usage : Json} {now : Timestamp} {window : NewWindow}
    (member : window ∈ CodexWindows.windows runtime toolkit.toFloats usage now) : window.key ≠ responseKey := by
  have spared : ∀ key ∈ CodexWindows.pairKeys "" ++ CodexWindows.pairKeys "code-review-", key ≠ responseKey := by
    decide
  rcases mem_codex member with ⟨limit, keyStart, labelStart, words, here⟩ | ⟨item, index, here⟩
  · exact spared _ (words ((CodexWindows.keys_pushPair keyStart labelStart).subset (List.mem_map_of_mem here)))
  · obtain ⟨start, keys⟩ := CodexWindows.keys_pushAdditional runtime toolkit.toFloats item index now
    have numbered := CodexWindows.ending_additionalKeys (keys.subset (List.mem_map_of_mem here))
    intro reserved
    rw [reserved] at numbered
    exact @CodexWindows.ending_ne_numbered responseKey 'n' (by decide) (by decide) index numbered

theorem codex_reads (usage : Json) (now : Timestamp) :
    Reads .codex (CodexWindows.windows runtime toolkit.toFloats usage now) := by
  constructor
  · intro window member
    have key := codex_key member
    obtain ⟨value, _, _, reached, rfl⟩ := codex_window member
    refine usable_plain ⟨by decide, by decide⟩ (fun _ => key) ?_ rfl rfl rfl
    intro seconds stated
    obtain ⟨length, positive⟩ := Option.filter_eq_some_iff.mp stated
    obtain ⟨found, -, read⟩ := Option.bind_eq_some_iff.mp length
    exact measures_of_integer read (of_decide_eq_true positive)
  · intro _
    exact List.pairwise_map.mp (CodexWindows.nodup_keys usage now)

theorem devin_window {status : Json} {named : String × String × Int} {window : NewWindow}
    (read : Readers.Devin.window runtime toolkit status named = some window) :
    window.key = named.1 ∧ window.windowSeconds = some named.2.2 ∧ window.scope = .account ∧
      window.startsOnUse = false ∧ window.unit = none := by
  unfold Readers.Devin.window at read
  simp only at read
  split at read
  next =>
    cases read
    exact ⟨rfl, rfl, rfl, rfl, rfl⟩
  next => cases read

theorem devin_reads (status : Json) : Reads .devin (Readers.Devin.windows runtime toolkit status) := by
  constructor
  · intro window member
    obtain ⟨named, known, read⟩ := List.mem_filterMap.mp member
    obtain ⟨key, length, scope, opens, unit⟩ := devin_window read
    have fits : ∀ named ∈ Readers.Devin.named, named.1 ≠ responseKey ∧ Measures named.2.2 := by
      unfold Measures
      decide
    refine usable_plain ⟨by decide, by decide⟩ (fun _ => key ▸ (fits named known).1) ?_ scope opens unit
    intro seconds stated
    rw [length] at stated
    cases stated
    exact (fits named known).2
  · intro _
    have apart : Readers.Devin.named.Pairwise fun first second => first.1 ≠ second.1 := by decide
    apply List.pairwise_filterMap.mpr
    apply apart.imp
    intro first second differ window read other reads
    rw [(devin_window read).1, (devin_window reads).1]
    exact differ

theorem distinct_toList (found : Option NewWindow) : Distinct NewWindow.key found.toList := by
  cases found <;> simp [Distinct]

theorem meta_window {object : Json} {key label : String} {length : Option Int} {window : NewWindow}
    (read : Readers.Meta.push runtime toolkit object key label length = some window)
    (spared : key ≠ responseKey) (measures : ∀ seconds, length = some seconds → Measures seconds) :
    window.key = key ∧ Usable .metaAi window := by
  unfold Readers.Meta.push at read
  simp only at read
  split at read
  next =>
    cases read
    exact ⟨rfl, usable_plain ⟨by decide, by decide⟩ (fun _ => spared) measures rfl rfl rfl⟩
  next => cases read

theorem meta_reads (key : Json) : Reads .metaAi (Readers.Meta.windows runtime toolkit key) := by
  have rolling (window : NewWindow) (here : window ∈ (((member (Readers.Meta.usage key) "window").filter
      isObject).bind fun rolling => Readers.Meta.push runtime toolkit rolling "window" "Rolling window"
        ((((member rolling "window_duration_mins").bind integer).filter (0 < ·)).bind
          (Kimi.times · 60))).toList) : window.key = "window" ∧ Usable .metaAi window := by
    obtain ⟨object, -, read⟩ := Option.bind_eq_some_iff.mp (Option.mem_toList.mp here)
    apply meta_window read (by decide)
    intro seconds stated
    obtain ⟨minutes, stated, product⟩ := Option.bind_eq_some_iff.mp stated
    exact measures_times product (of_decide_eq_true (Option.filter_eq_some_iff.mp stated).2) (by decide)
  have weekly (window : NewWindow) (here : window ∈ (((member (Readers.Meta.usage key) "weekly").filter
      isObject).bind fun weekly => Readers.Meta.push runtime toolkit weekly "weekly" "Weekly"
        (some Readers.week)).toList) : window.key = "weekly" ∧ Usable .metaAi window := by
    obtain ⟨object, -, read⟩ := Option.bind_eq_some_iff.mp (Option.mem_toList.mp here)
    apply meta_window read (by decide)
    rintro _ ⟨⟩
    exact ⟨by decide, by decide⟩
  constructor
  · intro window member
    rcases List.mem_append.mp member with here | there
    · exact (rolling window here).2
    · exact (weekly window there).2
  · intro _
    apply Distinct.append (distinct_toList _) (distinct_toList _)
    intro window here other there
    rw [(rolling window here).1, (weekly other there).1]
    decide

theorem kimi_seconds {duration seconds : Int} {unit : Option String}
    (stated : Kimi.seconds toolkit duration unit = some seconds) (positive : 0 < duration) :
    Measures seconds := by
  apply measures_times stated positive
  cases Kimi.timeUnit toolkit unit with
  | none => decide
  | some unit => cases unit <;> decide

theorem kimi_secondsFromLabel {label : String} {seconds : Int}
    (stated : Kimi.secondsFromLabel runtime label = some seconds) : Measures seconds := by
  unfold Kimi.secondsFromLabel at stated
  simp only at stated
  unfold Measures
  split at stated
  next => cases stated; decide
  split at stated
  next => cases stated; decide
  split at stated
  next => cases stated; decide
  split at stated
  next => cases stated; decide
  next => cases stated

theorem kimi_row {data : Json} {key fallback : String} {duration : Option Int} {unit : Option String}
    {now : Timestamp} {window : NewWindow}
    (read : Kimi.row runtime toolkit data key fallback duration unit now = some window)
    (spared : key ≠ responseKey) : window.key = key ∧ Usable .kimi window := by
  unfold Kimi.row at read
  simp only at read
  split at read
  next => cases read
  next =>
    cases read
    refine ⟨rfl, fun _ => spared, ?_, rfl, nofun, by simp [unitsOf]⟩
    intro seconds stated
    simp only at stated
    split at stated
    next duration kept =>
      exact kimi_seconds stated (of_decide_eq_true (Option.filter_eq_some_iff.mp kept).2)
    next => exact kimi_secondsFromLabel stated

/-- The key of a limit by its place. -/
def limitKey (index : Nat) : String := "limit-" ++ toString index

theorem limitKey_injective {first second : Nat} (same : limitKey first = limitKey second) : first = second := by
  have letters := congrArg String.toList same
  unfold limitKey at letters
  rw [String.toList_append, String.toList_append] at letters
  exact CodexWindows.toString_injective (List.append_cancel_left letters)

theorem limitKey_ne {word : String} (start : word.toList.head? ≠ some 'l') (index : Nat) :
    limitKey index ≠ word := by
  rintro rfl
  apply start
  unfold limitKey
  rw [String.toList_append]
  rfl

theorem kimi_reads (usage : Json) (now : Timestamp) :
    Reads .kimi (Kimi.windows runtime toolkit usage now) := by
  have limit (item : Json × Nat) (window : NewWindow)
      (read : Kimi.limitWindow runtime toolkit item.1 item.2 now = some window) :
      window.key = limitKey item.2 ∧ Usable .kimi window := kimi_row read (limitKey_ne (by decide) item.2)
  have summary (window : NewWindow) (here : window ∈ (((member usage "usage").filter isObject).bind fun summary =>
      Kimi.row runtime toolkit summary "summary" "Weekly limit" none none now).toList) :
      window.key = "summary" ∧ Usable .kimi window := by
    obtain ⟨object, -, read⟩ := Option.bind_eq_some_iff.mp (Option.mem_toList.mp here)
    exact kimi_row read (by decide)
  constructor
  · intro window member
    rcases List.mem_append.mp member with here | there
    · obtain ⟨item, -, read⟩ := List.mem_filterMap.mp here
      exact (limit item window read).2
    · exact (summary window there).2
  · intro _
    apply Distinct.append _ (distinct_toList _)
    · intro window here other there
      obtain ⟨item, -, read⟩ := List.mem_filterMap.mp here
      rw [(limit item window read).1, (summary other there).1]
      exact limitKey_ne (by decide) item.2
    · have places : (listed (member usage "limits")).zipIdx.Pairwise fun first second => first.2 ≠ second.2 := by
        have distinct : ((listed (member usage "limits")).zipIdx.map Prod.snd).Nodup := by
          rw [List.zipIdx_map_snd]
          exact List.nodup_range'
        exact List.pairwise_map.mp distinct
      apply List.pairwise_filterMap.mpr
      apply places.imp
      intro first second apart window read other reads same
      rw [(limit first window read).1, (limit second other reads).1] at same
      exact apart (limitKey_injective same)

theorem claude_named {usage : Json} {fable : Option Json} {name : String × String × String} {window : NewWindow}
    (known : name ∈ Readers.Claude.named)
    (read : Readers.Claude.namedWindow runtime toolkit usage fable name = some window) :
    window.key = name.2.1 ∧ (name.1 = Readers.Claude.fableKey → fable = none) ∧ Usable .claude window := by
  have spared : ∀ name ∈ Readers.Claude.named, name.2.1 ≠ responseKey := by decide
  unfold Readers.Claude.namedWindow at read
  split at read
  next => cases read
  next stays =>
    simp only [Option.bind_eq_bind, Option.bind_eq_some_iff] at read
    obtain ⟨object, -, utilization, -, same⟩ := read
    cases same
    refine ⟨rfl, fun fabled => ?_, fun _ => spared name known, ?_, rfl, ?_, List.mem_cons_self⟩
    · simpa [fabled] using stays
    · rintro seconds ⟨⟩
      have fits : Measures Readers.fiveHours ∧ Measures Readers.week := by
        unfold Measures
        decide
      change Measures (if name.1 = "five_hour" then Readers.fiveHours else Readers.week)
      split
      next => exact fits.1
      next => exact fits.2
    · intro starts
      exact ⟨rfl, congrArg some (if_pos (of_decide_eq_true starts))⟩

theorem claude_reads (usage : Json) : Reads .claude (Readers.Claude.windows runtime toolkit usage) := by
  have fabled (window : NewWindow) (here : window ∈
      ((Readers.Claude.fableLimit runtime toolkit usage).map (Readers.Claude.fableWindow runtime toolkit)).toList) :
      window.key = "seven-day-fable" ∧ (Readers.Claude.fableLimit runtime toolkit usage).isSome ∧
        Usable .claude window := by
    obtain ⟨limit, found, rfl⟩ := Option.map_eq_some_iff.mp (Option.mem_toList.mp here)
    have spared : "seven-day-fable" ≠ responseKey := by decide
    refine ⟨rfl, by rw [found]; rfl, fun _ => spared, ?_, rfl, nofun, List.mem_cons_self⟩
    rintro _ ⟨⟩
    exact ⟨by decide, by decide⟩
  have extra (window : NewWindow) (here : window ∈ (((member usage "extra_usage").filter fun extra =>
      (member extra "is_enabled").bind asBool = some true).map
        (Readers.Claude.extraWindow toolkit)).toList) :
      window.key = "extra-usage" ∧ Usable .claude window := by
    obtain ⟨object, -, rfl⟩ := Option.map_eq_some_iff.mp (Option.mem_toList.mp here)
    have spared : "extra-usage" ≠ responseKey := by decide
    exact ⟨rfl, fun _ => spared, nofun, rfl, nofun, List.mem_cons_of_mem _ List.mem_cons_self⟩
  have named (window : NewWindow) (here : window ∈ Readers.Claude.named.filterMap
      (Readers.Claude.namedWindow runtime toolkit usage (Readers.Claude.fableLimit runtime toolkit usage))) :
      ∃ name ∈ Readers.Claude.named, window.key = name.2.1 ∧
        (name.1 = Readers.Claude.fableKey → Readers.Claude.fableLimit runtime toolkit usage = none) ∧
          Usable .claude window := by
    obtain ⟨name, known, read⟩ := List.mem_filterMap.mp here
    exact ⟨name, known, claude_named known read⟩
  constructor
  · intro window member
    rcases List.mem_append.mp member with before | last
    · rcases List.mem_append.mp before with first | fable
      · obtain ⟨_, _, _, _, usable⟩ := named window first
        exact usable
      · exact (fabled window fable).2.2
    · exact (extra window last).2
  · intro _
    apply Distinct.append _ (distinct_toList _)
    · intro window before other last
      rw [(extra other last).1]
      rcases List.mem_append.mp before with first | fable
      · obtain ⟨name, known, key, _⟩ := named window first
        have apart : ∀ name ∈ Readers.Claude.named, name.2.1 ≠ "extra-usage" := by decide
        exact key ▸ apart name known
      · rw [(fabled window fable).1]
        decide
    · apply Distinct.append _ (distinct_toList _)
      · intro window first other fable
        obtain ⟨name, known, key, outranked, _⟩ := named window first
        obtain ⟨fabled, stated, _⟩ := fabled other fable
        -- The Fable window is read from its limit or from its name, never from both.
        have lone : ∀ name ∈ Readers.Claude.named, name.2.1 = "seven-day-fable" →
            name.1 = Readers.Claude.fableKey := by decide
        intro same
        rw [outranked (lone name known (key.symm.trans (same.trans fabled)))] at stated
        cases stated
      · have apart : Readers.Claude.named.Pairwise fun first second => first.2.1 ≠ second.2.1 := by decide
        apply List.pairwise_filterMap.mpr
        apply List.Pairwise.imp_of_mem _ apart
        intro first second known also differ window read other reads
        rw [(claude_named known read).1, (claude_named also reads).1]
        exact differ

theorem xai_span {start finish : Option Timestamp} {seconds : Int}
    (stated : Xai.span start finish = some seconds) : 0 ≤ seconds := by
  unfold Xai.span at stated
  simp only [Option.bind_eq_bind, Option.bind_eq_some_iff] at stated
  obtain ⟨first, -, last, -, stated⟩ := stated
  split at stated
  next before =>
    cases stated
    exact Int.sub_nonneg_of_le (Int.tdiv_le_tdiv (by decide) before.le)
  next => cases stated

/-- A window of one of xAI's periods. -/
theorem usable_spanned {window : NewWindow} (key : window.key ≠ responseKey)
    (length : ∃ start finish, window.windowSeconds = Xai.span start finish) (scope : window.scope = .account)
    (opens : window.startsOnUse = false) (unit : window.unit ∈ unitsOf .xai) : Usable .xai window where
  key := fun _ => key
  length := by
    intro seconds stated
    obtain ⟨start, finish, same⟩ := length
    exact xai_span (same.symm.trans stated)
  scope := scope
  opens := by
    intro starts
    rw [opens] at starts
    cases starts
  unit := unit

theorem xai_credits {periodType : String} {creditPercent : Option Sql.Float64} {products : List Json}
    {start finish : Option Timestamp} :
    ∀ window ∈ Xai.creditWindows runtime toolkit periodType creditPercent products start finish,
      Usable .xai window := by
  intro window member
  rcases List.mem_cons.mp member with rfl | here
  · exact usable_spanned (by simp [responseKey]) ⟨_, _, rfl⟩ rfl rfl List.mem_cons_self
  · obtain ⟨product, -, rfl⟩ := List.mem_map.mp here
    refine usable_spanned ?_ ⟨_, _, rfl⟩ rfl rfl List.mem_cons_self
    intro reserved
    have letters := congrArg (List.head? ∘ String.toList) reserved
    simp only [Function.comp, String.toList_append] at letters
    cases letters

theorem xai_billing {config : Json} {windows : List NewWindow}
    (read : Xai.billingWindows runtime toolkit config = some windows) : ∀ window ∈ windows, Usable .xai window := by
  have cents : some Xai.cents ∈ unitsOf .xai := List.mem_cons_of_mem _ List.mem_cons_self
  unfold Xai.billingWindows at read
  simp only at read
  split at read
  next => cases read
  next =>
    cases read
    intro window member
    rcases List.mem_append.mp member with before | onDemand
    · rcases List.mem_append.mp before with credits | spend
      · split at credits
        next => exact xai_credits window credits
        next => cases credits
      · split at spend
        next =>
          obtain rfl := List.mem_singleton.mp spend
          exact usable_spanned (by simp [responseKey]) ⟨_, _, rfl⟩ rfl rfl cents
        next => cases spend
    · obtain ⟨cap, -, rfl⟩ := Option.map_eq_some_iff.mp (Option.mem_toList.mp onDemand)
      exact usable_spanned (by simp [responseKey]) ⟨_, _, rfl⟩ rfl rfl cents

theorem antigravity_bucket {label id : String} {bucket : Json} {index : Nat} {window : NewWindow}
    (read : Readers.Antigravity.bucketWindow runtime toolkit label id bucket index = some window) :
    Usable .antigravity window := by
  unfold Readers.Antigravity.bucketWindow at read
  simp only [Option.bind_eq_bind, Option.bind_eq_some_iff] at read
  obtain ⟨remaining, -, same⟩ := read
  cases same
  refine usable_plain ⟨by decide, by decide⟩ (fun other => absurd rfl other) ?_ rfl rfl rfl
  intro seconds stated
  obtain ⟨name, -, stated⟩ := Option.bind_eq_some_iff.mp stated
  unfold Readers.Antigravity.windowSeconds at stated
  split at stated <;> cases stated <;> exact ⟨by decide, by decide⟩

theorem antigravity_reads (payload : Json) :
    Reads .antigravity (Readers.Antigravity.windows runtime toolkit payload) := by
  constructor
  · intro window member
    obtain ⟨group, -, here⟩ := List.mem_flatMap.mp member
    obtain ⟨bucket, -, read⟩ := List.mem_filterMap.mp here
    exact antigravity_bucket read
  · exact fun keyed => absurd rfl keyed.1

theorem reads_nil : Reads provider [] := ⟨nofun, fun _ => List.Pairwise.nil⟩

theorem claude_observes (authIndex : String) :
    (Claude.fetch runtime (Readers.reading runtime toolkit) authIndex).run.Meets (Own .claude authIndex)
      (orFailed fun observation => Reads .claude observation.windows) := by
  refine meets_bind_except (meets_ask ⟨rfl, by simp [urls]⟩) fun usage _ => ?_
  refine meets_bind_except (meets_ask ⟨rfl, by simp [urls]⟩) fun profile _ => ?_
  refine meets_bind_except (meets_ofExcept _) fun usage _ => ?_
  refine meets_bind_except (meets_ask ⟨rfl, by simp [urls]⟩) fun reply _ => ?_
  exact meets_pure_except (claude_reads usage)

theorem codex_observes (file : AuthFile) (authIndex : String) :
    (Codex.fetch runtime (Readers.reading runtime toolkit) file authIndex).run.Meets (Own .codex authIndex)
      (orFailed fun observation => Reads .codex observation.windows) := by
  refine meets_bind_except (meets_ask ⟨rfl, by simp [urls]⟩) fun reply _ => ?_
  refine meets_bind_except (meets_ofExcept _) fun usage _ => ?_
  refine meets_bind_except (meets_now trivial) fun at_ _ => ?_
  have resets : (Codex.manualResets runtime (Readers.reading runtime toolkit) authIndex).run.Meets
      (Own .codex authIndex) (orFailed fun _ => True) := by
    refine meets_bind_except (meets_ask ⟨rfl, by simp [urls]⟩) fun reply _ => ?_
    split <;> exact meets_pure_except trivial
  exact meets_bind_except resets fun resets _ => meets_pure_except (codex_reads usage at_)

theorem antigravity_quota_observes (authIndex body : String) (hosts : List String)
    (known : ∀ host ∈ hosts, host ∈ Antigravity.quotaUrls) (answered : Bool) (failure : Option RefreshError) :
    (Antigravity.quota runtime (Readers.reading runtime toolkit) authIndex body answered failure hosts).run.Meets
      (Own .antigravity authIndex) (orFailed fun outcome => orFailed (Reads .antigravity) outcome) := by
  induction hosts generalizing answered failure with
  | nil =>
    apply meets_pure_except
    cases answered with
    | true => exact reads_nil
    | false => exact trivial
  | cons url rest ih =>
    have later := fun answered failure =>
      ih (fun host member => known host (List.mem_cons_of_mem _ member)) answered failure
    have own : url ∈ urls .antigravity := List.mem_cons_of_mem _ (known url List.mem_cons_self)
    refine meets_bind_except (meets_ask ⟨rfl, own⟩) fun reply _ => ?_
    split
    next payload _ =>
      dsimp only
      split
      next => exact later _ _
      next => exact meets_pure_except (antigravity_reads _)
    next => exact later _ _

theorem antigravity_observes (file : AuthFile) (authIndex : String) :
    (Antigravity.fetch runtime (Readers.reading runtime toolkit) file authIndex).run.Meets
      (Own .antigravity authIndex) (orFailed fun observation => Reads .antigravity observation.windows) := by
  unfold Antigravity.fetch
  split
  next => exact meets_fail _
  next =>
    refine meets_bind_except (meets_ask ⟨rfl, by simp [urls]⟩) fun subscription _ => ?_
    refine meets_bind_except (antigravity_quota_observes _ _ _ (fun _ member => member) _ _) fun outcome reads => ?_
    exact meets_bind_except (meets_liftExcept reads) fun windows reads => meets_pure_except reads

theorem kimi_observes (authIndex : String) :
    (Kimi.fetch runtime (Readers.reading runtime toolkit) authIndex).run.Meets (Own .kimi authIndex)
      (orFailed fun observation => Reads .kimi observation.windows) := by
  refine meets_bind_except (meets_ask ⟨rfl, by simp [urls]⟩) fun reply _ => ?_
  refine meets_bind_except (meets_ofExcept _) fun usage _ => ?_
  refine meets_bind_except (meets_now trivial) fun at_ _ => ?_
  exact meets_pure_except (kimi_reads usage at_)

theorem devin_observes (authIndex : String) :
    (Devin.fetch runtime (Readers.reading runtime toolkit) authIndex).run.Meets (Own .devin authIndex)
      (orFailed fun observation => Reads .devin observation.windows) := by
  refine meets_bind_except (meets_ask ⟨rfl, by simp [urls]⟩) fun reply _ => ?_
  refine meets_bind_except (meets_ofExcept _) fun status _ => ?_
  dsimp only
  split
  next => exact meets_fail _
  next => exact meets_pure_except (devin_reads status)

/-- What both billing endpoints come to is what their answers state. -/
theorem xai_billed {weekly monthly : Except ManagementError ApiResponse} {windows : List NewWindow}
    (read : Xai.billed (Xai.billing runtime (Readers.reading runtime toolkit) weekly)
      (Xai.billing runtime (Readers.reading runtime toolkit) monthly) = .ok windows) : Reads .xai windows := by
  have stated (reply : Except ManagementError ApiResponse) (found : List NewWindow)
      (read : (Xai.billing runtime (Readers.reading runtime toolkit) reply).toOption.join = some found) :
      ∀ window ∈ found, Usable .xai window := by
    unfold Xai.billing at read
    cases outcome : answered runtime reply with
    | error error =>
      rw [outcome] at read
      cases read
    | ok payload =>
      rw [outcome] at read
      change (member payload "config").bind (Xai.billingWindows runtime toolkit) = some found at read
      obtain ⟨config, -, read⟩ := Option.bind_eq_some_iff.mp read
      exact xai_billing read
  unfold Xai.billed at read
  refine ⟨fun window member => ?_, fun keyed => absurd rfl keyed.2⟩
  split at read
  next => cases read
  next =>
    dsimp only at read
    split at read
    next => cases read
    next =>
      cases read
      obtain ⟨found, here, member⟩ := List.mem_flatten.mp member
      obtain ⟨outcome, known, read⟩ := List.mem_filterMap.mp here
      rcases List.mem_cons.mp known with rfl | known
      · exact stated weekly found read window member
      · obtain rfl := List.mem_singleton.mp known
        exact stated monthly found read window member

theorem xai_paid_observes (authIndex : String) :
    (Xai.paid authIndex).run.Meets (Own .xai authIndex)
      (orFailed fun outcome => orFailed (fun observation => Reads .xai observation.windows) outcome) := by
  refine meets_bind_except (meets_ask ⟨rfl, by simp [urls]⟩) fun profile _ => ?_
  refine meets_bind_except (meets_ask ⟨rfl, by simp [urls]⟩) fun chat _ => ?_
  split
  next => exact meets_pure_except trivial
  next =>
    split
    next => exact meets_pure_except reads_nil
    next => exact meets_pure_except trivial

theorem xai_observes (file : AuthFile) (authIndex : String) :
    (Xai.fetch runtime (Readers.reading runtime toolkit) file authIndex).run.Meets (Own .xai authIndex)
      (orFailed fun observation => Reads .xai observation.windows) := by
  unfold Xai.fetch
  split
  next => exact meets_bind_except (xai_paid_observes authIndex) fun observed reads => meets_liftExcept reads
  next =>
    refine meets_bind_except (meets_ask ⟨rfl, by simp [urls]⟩) fun weekly _ => ?_
    refine meets_bind_except (meets_ask ⟨rfl, by simp [urls]⟩) fun monthly _ => ?_
    split
    next windows read => exact meets_pure_except (xai_billed read)
    next =>
      refine meets_bind_except (xai_paid_observes authIndex) fun observed reads => meets_liftExcept ?_
      cases observed with
      | ok observation => exact reads
      | error error => exact trivial

theorem meta_observes (file : AuthFile) (authIndex : String) :
    (Meta.fetch runtime (Readers.reading runtime toolkit) file authIndex).run.Meets (Own .metaAi authIndex)
      (orFailed fun observation => Reads .metaAi observation.windows) := by
  unfold Meta.fetch
  split
  next => exact meets_fail _
  next =>
    refine meets_bind_except (meets_lift_except (meets_question rfl fun _ => trivial)) fun credential _ => ?_
    refine meets_bind_except (meets_ofExcept _) fun credential _ => ?_
    refine meets_bind_except (meets_ofExcept _) fun token _ => ?_
    refine meets_bind_except (meets_ask ⟨rfl, by simp [urls]⟩) fun reply _ => ?_
    refine meets_bind_except (meets_ofExcept _) fun key _ => ?_
    split
    next => exact meets_pure_except (meta_reads key)
    next => exact meets_fail _

/-- A hard refresh reads only windows that fit, whatever it is answered. -/
theorem fetch_observes (provider : Provider) (file : AuthFile) (authIndex : String) :
    (fetch runtime (Readers.reading runtime toolkit) provider file authIndex).run.Meets (Own provider authIndex)
      (orFailed fun observation => Reads provider observation.windows) := by
  cases provider with
  | claude => exact claude_observes authIndex
  | codex => exact codex_observes file authIndex
  | antigravity => exact antigravity_observes file authIndex
  | kimi => exact kimi_observes authIndex
  | devin => exact devin_observes authIndex
  | xai => exact xai_observes file authIndex
  | metaAi => exact meta_observes file authIndex

theorem succeeds_replaceCredits {base : Tables} {id : AccountId} (known : base.accounts.any (·.id = id) = true)
    (grants : List Grant) :
    Succeeds (fun _ tables => tables.accounts = base.accounts) (replaceCredits id grants)
      fun _ _ tables => tables.accounts = base.accounts := by
  have cleared : Succeeds (fun _ tables => tables.accounts = base.accounts) (execute (clearCredits id))
      fun _ _ tables => tables.accounts = base.accounts := Succeeds.update fun _ _ same => same
  apply cleared.bind
  intro _
  apply Succeeds.forM
  intro grant _
  apply succeeds_attempt
  intro _ tables same
  have present : tables.accounts.any (·.id = id) = true := by rw [same]; exact known
  exact ⟨(), _, if_pos present, same⟩

/-- What a refresh observed is stored, unless it names the evidence's key. -/
theorem succeeds_recordRefresh {base : Tables} {id : AccountId}
    (known : base.accounts.any (·.id = id) = true) {observation : Observation}
    (spared : ∀ window ∈ observation.windows, window.key ≠ responseKey) (refreshedAt : Timestamp) :
    Succeeds (fun _ tables => tables = base) (recordRefresh runtime id (.ok observation) refreshedAt)
      fun ending _ _ => ending = .committed () := by
  rw [Landing.recordRefresh_eq]
  apply (Succeeds.reading fun _ _ _ initial => initial).bind
  intro now
  apply succeeds_read.bind
  intro snapshot
  have stored : Succeeds (fun _ tables => tables = base) (storeResult runtime id (.ok observation) refreshedAt)
      fun _ _ _ => True := by
    let retried : Tables := { base with recoveries := base.recoveries.filter (·.accountId ≠ id) }
    have forgotten : Succeeds (fun _ tables => tables = base)
        (execute fun tables => { tables with recoveries := tables.recoveries.filter (·.accountId ≠ id) })
        fun _ _ tables => tables = retried := by
      apply Succeeds.update
      rintro _ _ rfl
      rfl
    apply forgotten.bind
    intro _
    have kept : (replaced runtime id observation.windows refreshedAt retried).accounts = base.accounts :=
      (windows_replaced runtime id observation.windows refreshedAt retried).2
    have replaces : Succeeds (fun _ tables => tables = retried) (replace runtime id observation.windows refreshedAt)
        fun _ _ tables => tables.accounts = base.accounts := by
      have still : retried.accounts.any (·.id = id) = true := known
      exact (succeeds_replaced still spared).weaken (fun _ _ same => same)
        fun _ _ _ same => (congrArg Tables.accounts same).trans kept
    apply replaces.bind
    intro _
    have resets : Succeeds (fun _ tables => tables.accounts = base.accounts)
        (storeResets id observation.manualResets) fun _ _ tables => tables.accounts = base.accounts := by
      cases observation.manualResets with
      | unchanged => exact Succeeds.pure fun _ _ same => same
      | reported grants => exact succeeds_replaceCredits known grants
    apply resets.bind
    intro _
    unfold refreshed
    exact Succeeds.update fun _ _ _ => trivial
  apply stored.bind
  intro _
  have compared : Succeeds (fun _ _ => True) (Snapshots.recordChanges runtime snapshot) fun _ _ _ => True :=
    succeeds_read.bind fun _ => Succeeds.forM fun subject _ => succeeds_record subject
  exact compared.bind fun _ => Succeeds.commit fun _ _ _ => rfl

/-- What storing an observation comes to: the evidence of a rejected request and the windows that were
read, a row to each key; the other accounts as they were; and the grants, the plan and the health beside. -/
structure Stored (runtime : Sql.Runtime) (id : AccountId) (observation : Observation) (refreshedAt : Timestamp)
    (base next : Tables) : Prop where
  rows : windowsOf next id = base.windows.filter (isWindow id responseKey) ++
    (firsts NewWindow.key observation.windows).map (·.row (windowsOf base id) id refreshedAt)
  others : ∀ other, other ≠ id → windowsOf next other = windowsOf base other
  beside : ResetGrants.Recorded runtime id observation refreshedAt base next

/-- What a hard refresh observes can be stored, and is stored as it was observed. -/
structure Lands (runtime : Sql.Runtime) (provider : Provider) (observation : Observation) : Prop where
  usable : ∀ window ∈ observation.windows, Usable provider window
  whole : Keyed provider → firsts NewWindow.key observation.windows = observation.windows
  commits : ∀ id refreshedAt session, Calm session → session.data.accounts.any (·.id = id) = true →
    (provider = .antigravity → ∀ window ∈ observation.windows, window.key ≠ responseKey) →
      ∃ next, transact (recordRefresh runtime id (.ok observation) refreshedAt) session =
        (.ok (.committed ()), next) ∧ Stored runtime id observation refreshedAt session.data next

theorem stored_of_recorded {id : AccountId} {observation : Observation} {refreshedAt : Timestamp}
    {base next : Tables} (recorded : ResetGrants.Recorded runtime id observation refreshedAt base next) :
    Stored runtime id observation refreshedAt base next where
  rows := by
    rw [← windowsOf_replaced runtime id observation.windows refreshedAt base]
    unfold windowsOf
    rw [recorded.windows]
  others := by
    intro other apart
    rw [← @windowsOf_other runtime id base observation.windows refreshedAt other apart]
    unfold windowsOf
    rw [recorded.windows]
  beside := recorded

theorem lands_of_reads {observation : Observation} (reads : Reads provider observation.windows) :
    Lands runtime provider observation where
  usable := reads.usable
  whole := fun keyed => firsts_of_distinct (reads.distinct keyed)
  commits := by
    intro id refreshedAt session calm known reserved
    have spared : ∀ window ∈ observation.windows, window.key ≠ responseKey := by
      intro window member
      by_cases named : provider = .antigravity
      · exact reserved named window member
      · exact (reads.usable window member).key named
    have both := (@succeeds_recordRefresh runtime _ _ known _ spared refreshedAt).and_holds
      (holds_recordRefresh id observation refreshedAt session.data)
    obtain ⟨_, finish, ran, -, rfl, recorded⟩ := both.runs session calm ⟨rfl, rfl⟩
    exact ⟨finish.data, transact_committed.mpr ⟨finish, ran, rfl⟩, stored_of_recorded recorded⟩

/-- Whatever a provider answers along a hard refresh of a credential, the refresh fails, or it observes
windows that are stored as they were read. -/
theorem refreshes_land (runtime : Sql.Runtime) (toolkit : Toolkit) (provider : Provider) (file : AuthFile)
    (authIndex : String) :
    (fetch runtime (Readers.reading runtime toolkit) provider file authIndex).run.Meets (Own provider authIndex)
      (orFailed (Lands runtime provider)) := by
  have lands (outcome : Except RefreshError Observation)
      (reads : orFailed (fun observation => Reads provider observation.windows) outcome) :
      orFailed (Lands runtime provider) outcome := by
    cases outcome with
    | ok observation => exact lands_of_reads reads
    | error error => exact trivial
  exact meets_weaken (fetch_observes provider file authIndex) lands

end MeteredUsage.Gateway.Refreshes

import MeteredUsage.Collector.Accounting
import MeteredUsage.Library.OrderedMap
import Mathlib.Data.List.Find
import Mathlib.Data.String.Basic

/-! What storage learns of a client key from a CLIProxy payload, by two payloads that differ in
little else: the events of records that can be read, and the texts and payloads kept of those that
cannot. -/

namespace MeteredUsage.Collector.Secrets
open MeteredUsage.Values MeteredUsage.Store MeteredUsage.Store.Schema MeteredUsage.Store.Accounts
open MeteredUsage.Store.Events MeteredUsage.Collector.Accounting MeteredUsage.Library.OrderedMap
open MeteredUsage.Store.Credentials (asText)
open MeteredUsage.Collector.LiteLlm (removeField)

/-- A JSON object as `serde_json` holds it. -/
structure Payload where
  entries : List (String × Json)
  ordered : Ordered entries

def Payload.json (payload : Payload) : Json := .object payload.entries

def Payload.get (payload : Payload) (name : String) : Option Json := payload.entries.lookup name

def Payload.text (payload : Payload) (name : String) : Option String := (payload.get name).bind asText

/-- The auth type says the credential is an OAuth login. -/
def Payload.IsOAuth (payload : Payload) : Prop := authKind (payload.text "auth_type") = .oauth

/-- The last four characters of a key long enough to show them. -/
def tail (key : String) : Option (List Char) :=
  if key.toList.length < maskableLength then none
  else some (key.toList.drop (key.toList.length - maskTail))

/-- All that may be told of the client key of a payload. -/
def Payload.keyTail (payload : Payload) : Option (List Char) := (payload.text "api_key").bind tail

def shown (tail : List Char) : String := String.ofList ('…' :: tail)

theorem mask_eq (key : String) : mask key = (tail key).map shown := by
  unfold mask tail
  by_cases short : key.toList.length < maskableLength
  · simp [short]
  · simp [short, shown]

/-- An event less its caller and the label of its account. -/
def blank (event : NewUsageEvent) : NewUsageEvent :=
  { event with caller := none, account := { event.account with label := none } }

/-- A record less its client key and its source. -/
def blind (record : CliProxyRecord) : CliProxyRecord :=
  { record with apiKey := none, source := none }

section
variable (reading : Reading)

/-- The source of a payload is its own client key. -/
def Payload.OwnSource (payload : Payload) : Prop :=
  ∃ source key, payload.get "source" = some source ∧ payload.get "api_key" = some key ∧
    same reading source key = true

/-- They differ in the client key, in the response headers, and in a source that is the own client
key of each. -/
def Twins (first second : Payload) : Prop :=
  ∀ name, first.get name = second.get name ∨ name = "api_key" ∨ name = "response_headers" ∨
    name = "source" ∧ first.OwnSource reading ∧ second.OwnSource reading

/-- Why serde refuses the value of a field. -/
def Payload.refused (payload : Payload) (name : String) : Option String :=
  (payload.get name).bind (refuseEntry (recordFields reading) name)

/-- Serde says one thing of both client keys, or refuses a field before it comes to them. -/
def KeysReadAlike (first second : Payload) : Prop :=
  first.refused reading "api_key" = second.refused reading "api_key" ∨
    ∃ name < "api_key", (first.refused reading name).isSome

/-- What an event tells of the client key of its payload. -/
structure Shows (payload : Payload) (event : NewUsageEvent) : Prop where
  caller : event.caller = payload.keyTail.map shown
  /-- A source that is the key is shown as the key is, and is no login. -/
  own : payload.OwnSource reading → event.account.label =
    if event.account.authKind = .oauth then none else payload.keyTail.map shown
  other : ¬ payload.OwnSource reading → event.account =
    NewAccount.new event.account.upstreamKey event.account.authKind (payload.text "source")

end

variable {reading : Reading} {first second payload : Payload} {record : CliProxyRecord}
  {event : NewUsageEvent}

/-- The client key and the source reach the caller and the label alone. -/
theorem event_blind (record : CliProxyRecord) :
    (record.event reading).map blank = (blind record).event reading := by
  have counted : (blind record).countTokens reading = record.countTokens reading := rfl
  have stamped : (blind record).timestamp = record.timestamp := rfl
  have unlabelled : NewAccount.new ((blind record).authIndex.getD "") (authKind (blind record).authType)
      (blind record).shownSource = ⟨record.authIndex.getD "", authKind record.authType, none⟩ := by
    change NewAccount.new _ (authKind record.authType) none = _
    cases authKind record.authType <;> rfl
  unfold CliProxyRecord.event
  rw [counted, stamped, unlabelled]
  cases reading.runtime.parseTimestamp record.timestamp with
  | none => rfl
  | some occurredAt =>
    cases record.countTokens reading with
    | error error => rfl
    | ok tokens => rfl

theorem event_shows (read : record.event reading = .ok event) :
    event.caller = record.apiKey.bind mask ∧
    event.account = NewAccount.new (record.authIndex.getD "") (authKind record.authType)
      record.shownSource := by
  unfold CliProxyRecord.event at read
  cases parsed : reading.runtime.parseTimestamp record.timestamp with
  | none =>
    rw [parsed] at read
    cases read
  | some occurredAt =>
    rw [parsed] at read
    cases counted : record.countTokens reading with
    | error error =>
      rw [counted] at read
      cases read
    | ok tokens =>
      rw [counted] at read
      cases read
      exact ⟨rfl, rfl⟩

/-- The record of a payload that serde does not refuse. -/
def recordOf (reading : Reading) (payload : Payload) : CliProxyRecord :=
  CliProxyRecord.of reading payload.get

/-- Why serde refuses a payload. -/
def refusalOf (reading : Reading) (payload : Payload) : Option String :=
  refuseStruct reading "CliProxyRecord" (recordFields reading) payload.json

/-- Why a payload cannot be read. -/
def failure (reading : Reading) (payload : Payload) : Option String :=
  (refusalOf reading payload).or (match (recordOf reading payload).event reading with
    | .ok _ => none
    | .error error => some (error.message reading))

theorem read_refused {error : String} (refused : refusalOf reading payload = some error) :
    CliProxyRecord.read reading payload.json = .error error := by
  unfold refusalOf at refused
  unfold CliProxyRecord.read
  rw [refused]

theorem read_fine (fine : refusalOf reading payload = none) :
    CliProxyRecord.read reading payload.json = .ok (recordOf reading payload) := by
  unfold refusalOf at fine
  unfold CliProxyRecord.read
  rw [fine]
  rfl

theorem parse_record (read : parse reading payload.json = .record event) :
    refusalOf reading payload = none ∧ (recordOf reading payload).event reading = .ok event := by
  unfold parse at read
  cases refused : refusalOf reading payload with
  | some error =>
    rw [read_refused refused] at read
    cases read
  | none =>
    simp only [read_fine refused, Except.bind] at read
    cases made : (recordOf reading payload).event reading with
    | error error =>
      rw [made] at read
      cases read
    | ok other =>
      rw [made] at read
      cases read
      exact ⟨rfl, rfl⟩

theorem parse_rejected {error : String} {kept : Json}
    (read : parse reading payload.json = .rejected error kept) :
    failure reading payload = some error ∧ kept = stripped reading payload.json := by
  unfold parse at read
  unfold failure
  cases refused : refusalOf reading payload with
  | some error =>
    rw [read_refused refused] at read
    cases read
    exact ⟨rfl, rfl⟩
  | none =>
    simp only [read_fine refused, Except.bind] at read
    cases made : (recordOf reading payload).event reading with
    | error error =>
      rw [made] at read
      cases read
      exact ⟨rfl, rfl⟩
    | ok other =>
      rw [made] at read
      cases read

/-- What serde refuses of a payload, field by field. -/
def refusals (reading : Reading) (payload : Payload) : List (String × String) :=
  choose (refuseEntry (recordFields reading)) payload.entries

theorem lookup_refusals (payload : Payload) (name : String) :
    (refusals reading payload).lookup name = payload.refused reading name :=
  payload.ordered.lookup_choose _

theorem refusalOf_eq (payload : Payload) :
    refusalOf reading payload = ((refusals reading payload).head?.map Prod.snd).or
      (missing (recordFields reading) payload.entries) := by
  have first : (refusals reading payload).head?.map Prod.snd =
      payload.entries.findSome? fun entry => refuseEntry (recordFields reading) entry.1 entry.2 := by
    rw [refusals, choose, List.head?_filterMap]
    induction payload.entries with
    | nil => rfl
    | cons entry rest ih =>
      rw [List.findSome?_cons, List.findSome?_cons]
      cases refuseEntry (recordFields reading) entry.1 entry.2 with
      | none => exact ih
      | some error => rfl
  rw [first]
  rfl

theorem Twins.get_eq (twins : Twins reading first second) {name : String} (noKey : name ≠ "api_key")
    (noHeaders : name ≠ "response_headers") (noSource : name ≠ "source") :
    first.get name = second.get name := by
  rcases twins name with same | named | named | ⟨named, _⟩
  · exact same
  · exact absurd named noKey
  · exact absurd named noHeaders
  · exact absurd named noSource

/-- No field without a default may differ. -/
theorem Twins.missing_eq (twins : Twins reading first second) :
    missing (recordFields reading) first.entries = missing (recordFields reading) second.entries := by
  have named : ∀ field ∈ recordFields reading, field.required = true →
      field.name ≠ "api_key" ∧ field.name ≠ "response_headers" ∧ field.name ≠ "source" := by
    simp [recordFields]
  unfold missing
  congr 1
  apply List.find?_congr
  intro field member
  cases required : field.required with
  | false => rfl
  | true =>
    obtain ⟨noKey, noHeaders, noSource⟩ := named field member required
    have same := twins.get_eq noKey noHeaders noSource
    unfold Payload.get at same
    rw [same]

theorem Twins.refused_eq (twins : Twins reading first second) {name : String}
    (noKey : name ≠ "api_key") (noSource : name ≠ "source") :
    first.refused reading name = second.refused reading name := by
  by_cases noHeaders : name = "response_headers"
  · subst noHeaders
    have unread : ∀ value, refuseEntry (recordFields reading) "response_headers" value = none :=
      fun _ => rfl
    rw [Payload.refused, Payload.refused, Option.bind_congr fun value _ => unread value,
      Option.bind_congr fun value _ => unread value]
    simp
  · rw [Payload.refused, Payload.refused, twins.get_eq noKey noHeaders noSource]

theorem refused_eq_none_iff (payload : Payload) {name : String}
    (text : refuseEntry (recordFields reading) name = orNull (refuseText reading)) :
    payload.refused reading name = none ↔
      payload.get name = none ∨ payload.get name = some .null ∨
        ∃ value, payload.get name = some (.string value) := by
  rw [Payload.refused, text]
  cases payload.get name with
  | none => simp
  | some value => cases value <;> simp [orNull, refuseText]

theorem same_text_or_null {source key : Json} (alike : same reading source key = true)
    (text : key = .null ∨ ∃ value, key = .string value) : source = key := by
  obtain rfl | ⟨value, rfl⟩ := text
  · cases source <;> simp_all [same]
  · cases source <;> simp_all [same]

/-- A source that is a client key serde reads is one it reads. -/
theorem own_refused (own : payload.OwnSource reading)
    (fine : payload.refused reading "api_key" = none) : payload.refused reading "source" = none := by
  obtain ⟨source, key, sourced, keyed, alike⟩ := own
  have text : key = .null ∨ ∃ value, key = .string value := by
    rcases (refused_eq_none_iff payload rfl).mp fine with absent | null | ⟨value, written⟩
    · rw [keyed] at absent
      cases absent
    · exact .inl (Option.some.inj (keyed.symm.trans null))
    · exact .inr ⟨value, Option.some.inj (keyed.symm.trans written)⟩
  have equal := same_text_or_null alike text
  apply (refused_eq_none_iff payload rfl).mpr
  rw [sourced, equal]
  exact .inr (text.imp (congrArg some) fun ⟨value, written⟩ => ⟨value, congrArg some written⟩)

theorem Twins.source_refused (twins : Twins reading first second)
    (left : first.refused reading "api_key" = none) (right : second.refused reading "api_key" = none) :
    first.refused reading "source" = second.refused reading "source" := by
  rcases twins "source" with same | named | named | ⟨_, own, other⟩
  · rw [Payload.refused, Payload.refused, same]
  · exact absurd named (by decide)
  · exact absurd named (by decide)
  · rw [own_refused own left, own_refused other right]

/-- The first field serde refuses, if any, is the same of both, and refused with the same words. -/
theorem Twins.head_eq (twins : Twins reading first second)
    (alike : KeysReadAlike reading first second) :
    (refusals reading first).head? = (refusals reading second).head? := by
  have left := first.ordered.choose (refuseEntry (recordFields reading))
  have right := second.ordered.choose (refuseEntry (recordFields reading))
  obtain keys | ⟨name, before, early⟩ := alike
  · cases key : first.refused reading "api_key" with
    | none =>
      have equal : refusals reading first = refusals reading second := by
        apply left.eq_of_lookup right
        intro name
        change (refusals reading first).lookup name = (refusals reading second).lookup name
        rw [lookup_refusals, lookup_refusals]
        by_cases isKey : name = "api_key"
        · rw [isKey, keys]
        · by_cases isSource : name = "source"
          · rw [isSource]
            exact twins.source_refused key (keys ▸ key)
          · exact twins.refused_eq isKey isSource
      rw [equal]
    | some error =>
      -- The client key is refused before the source is read.
      have found : (refusals reading first).lookup "api_key" = some error :=
        (lookup_refusals first "api_key").trans key
      refine left.head?_eq_of_before right (fun other earlier => ?_)
        ⟨("api_key", error), mem_of_lookup found, (by decide : "api_key" < "source")⟩
      change (refusals reading first).lookup other = (refusals reading second).lookup other
      rw [lookup_refusals, lookup_refusals]
      by_cases isKey : other = "api_key"
      · rw [isKey, keys]
      · exact twins.refused_eq isKey earlier.ne
  · obtain ⟨error, refused⟩ := Option.isSome_iff_exists.mp early
    have found : (refusals reading first).lookup name = some error :=
      (lookup_refusals first name).trans refused
    refine left.head?_eq_of_before right (fun other earlier => ?_)
      ⟨(name, error), mem_of_lookup found, before⟩
    change (refusals reading first).lookup other = (refusals reading second).lookup other
    rw [lookup_refusals, lookup_refusals]
    exact twins.refused_eq earlier.ne (earlier.trans (by decide)).ne

theorem Twins.refusal_eq (twins : Twins reading first second)
    (alike : KeysReadAlike reading first second) :
    refusalOf reading first = refusalOf reading second := by
  rw [refusalOf_eq, refusalOf_eq, twins.head_eq alike, twins.missing_eq]

/-- The records of both differ in the client key and the source alone. -/
theorem Twins.blind_eq (twins : Twins reading first second) :
    blind (recordOf reading first) = blind (recordOf reading second) := by
  have same : ∀ name ∉ ["api_key", "response_headers", "source"], first.get name = second.get name := by
    intro name apart
    simp only [List.mem_cons, List.not_mem_nil, or_false, not_or] at apart
    exact twins.get_eq apart.1 apart.2.1 apart.2.2
  simp (disch := decide) only [blind, recordOf, CliProxyRecord.of, same]

theorem Twins.failure_eq (twins : Twins reading first second)
    (alike : KeysReadAlike reading first second) :
    failure reading first = failure reading second := by
  have made : ((recordOf reading first).event reading).map blank =
      ((recordOf reading second).event reading).map blank := by
    rw [event_blind, event_blind, twins.blind_eq]
  unfold failure
  rw [twins.refusal_eq alike]
  congr 1
  cases left : (recordOf reading first).event reading with
  | ok event =>
    cases right : (recordOf reading second).event reading with
    | ok other => rfl
    | error error =>
      rw [left, right] at made
      cases made
  | error error =>
    cases right : (recordOf reading second).event reading with
    | ok other =>
      rw [left, right] at made
      cases made
    | error other =>
      rw [left, right] at made
      cases made
      rfl

theorem refused_of_read (read : refusalOf reading payload = none) (name : String) :
    payload.refused reading name = none := by
  rw [refusalOf_eq, Option.or_eq_none_iff, Option.map_eq_none_iff, List.head?_eq_none_iff] at read
  rw [← lookup_refusals, read.1]
  rfl

theorem text_eq_some_iff {name text : String} :
    payload.text name = some text ↔ payload.get name = some (.string text) := by
  unfold Payload.text
  cases payload.get name with
  | none => simp
  | some value => cases value <;> simp [asText]

theorem bind_mask (text : Option String) : text.bind mask = (text.bind tail).map shown := by
  cases text with
  | none => rfl
  | some text => exact mask_eq text

/-- An empty text shows nothing either way. -/
theorem filter_bind_mask (text : Option String) : (text.filter (· ≠ "")).bind mask = text.bind mask := by
  cases text with
  | none => rfl
  | some text =>
    by_cases empty : text = ""
    · subst empty
      decide
    · simp [Option.filter, empty]

/-- A source other than the client key is shown, and any that is not of an OAuth login. -/
theorem shownSource_eq (apart : authKind record.authType ≠ .oauth ∨
    ∀ source, record.source = some source → record.apiKey ≠ some source) :
    record.shownSource = record.source := by
  unfold CliProxyRecord.shownSource
  cases sourced : record.source with
  | none => rfl
  | some source =>
    have kept : authKind record.authType ≠ .oauth ∨ record.apiKey ≠ some source :=
      apart.imp_right fun differs => differs source sourced
    simpa [Option.filter, imp_iff_not_or] using kept

/-- A source that is the own client key of a payload that is read has its text. -/
theorem own_text (read : refusalOf reading payload = none) (own : payload.OwnSource reading) :
    payload.text "source" = payload.text "api_key" := by
  obtain ⟨source, key, sourced, keyed, alike⟩ := own
  have equal : source = key := by
    apply same_text_or_null alike
    rcases (refused_eq_none_iff payload rfl).mp (refused_of_read read "api_key") with
      absent | null | ⟨value, written⟩
    · rw [keyed] at absent
      cases absent
    · exact .inl (Option.some.inj (keyed.symm.trans null))
    · exact .inr ⟨value, Option.some.inj (keyed.symm.trans written)⟩
  rw [Payload.text, Payload.text, sourced, keyed, equal]

theorem parse_kind (read : parse reading payload.json = .record event) :
    event.account.authKind = authKind (payload.text "auth_type") := by
  rw [(event_shows (parse_record read).2).2]
  rfl

theorem parse_masked (read : parse reading payload.json = .record event)
    (masked : event.account.authKind ≠ .oauth) :
    event.account.label = (payload.text "source").bind mask := by
  have kind := parse_kind read
  obtain ⟨caller, account⟩ := event_shows (parse_record read).2
  have whole : (recordOf reading payload).shownSource = payload.text "source" :=
    shownSource_eq (.inl (kind ▸ masked))
  rw [← filter_bind_mask, account, whole]
  rw [kind] at masked
  change NewAccount.label (NewAccount.new _ (authKind (payload.text "auth_type")) _) = _
  cases named : authKind (payload.text "auth_type") with
  | oauth => exact absurd named masked
  | apiKey => rfl
  | unknown => rfl

/-- What the event of a payload that is read tells of its client key. -/
theorem parse_shows (read : parse reading payload.json = .record event) : Shows reading payload event := by
  have kind := parse_kind read
  obtain ⟨fine, made⟩ := parse_record read
  obtain ⟨caller, account⟩ := event_shows made
  refine ⟨caller.trans (bind_mask _), fun own => ?_, fun other => ?_⟩
  · have texts := own_text fine own
    split
    next oauth =>
      have hidden : (recordOf reading payload).shownSource = none := by
        change Option.filter (fun source => decide (authKind (payload.text "auth_type") ≠ .oauth) ||
          decide (payload.text "api_key" ≠ some source)) (payload.text "source") = none
        rw [texts, ← kind, oauth]
        cases payload.text "api_key" with
        | none => rfl
        | some text => simp [Option.filter]
      rw [account, hidden]
      cases authKind (recordOf reading payload).authType <;> rfl
    next masked =>
      rw [parse_masked read masked, texts, bind_mask]
      rfl
  · have whole : (recordOf reading payload).shownSource = payload.text "source" := by
      apply shownSource_eq (.inr _)
      intro source sourced keyed
      exact other ⟨_, _, text_eq_some_iff.mp sourced, text_eq_some_iff.mp keyed, by simp [same]⟩
    rw [account, whole]
    rfl

theorem Ordered.removeField {entries : List (String × Json)} (ordered : Ordered entries)
    (field : String) : Ordered (removeField field entries) := ordered.restrict (· ≠ field)

theorem lookup_removeField (entries : List (String × Json)) (field name : String) :
    (removeField field entries).lookup name = if name = field then none else entries.lookup name := by
  have restricted := @lookup_restrict _ _ _ entries name (· ≠ field)
  rw [show removeField field entries = restrict (· ≠ field) entries from rfl, restricted]
  by_cases named : name = field <;> simp [named]

/-- The fields of a payload that are no secret on their own. -/
def Payload.plain (payload : Payload) : List (String × Json) :=
  removeField "response_headers" (removeField "api_key" payload.entries)

theorem Payload.plain_ordered (payload : Payload) : Ordered payload.plain :=
  Ordered.removeField (Ordered.removeField payload.ordered _) _

theorem Payload.lookup_plain (payload : Payload) {name : String} (noKey : name ≠ "api_key")
    (noHeaders : name ≠ "response_headers") : payload.plain.lookup name = payload.get name := by
  rw [Payload.plain, lookup_removeField, if_neg noHeaders, lookup_removeField, if_neg noKey]
  rfl

theorem Payload.plain_hides (payload : Payload) {name : String}
    (secret : name = "api_key" ∨ name = "response_headers") : payload.plain.lookup name = none := by
  rw [Payload.plain, lookup_removeField, lookup_removeField]
  rcases secret with rfl | rfl <;> simp

/-- The source goes too: it is no login, or it is the key. -/
def Payload.HidesSource (reading : Reading) (payload : Payload) : Prop :=
  ¬ payload.IsOAuth ∨ sameOption reading (payload.get "source") (payload.get "api_key") = true

instance (reading : Reading) (payload : Payload) : Decidable (payload.HidesSource reading) :=
  inferInstanceAs (Decidable (¬ authKind _ = .oauth ∨ _ = _))

def Payload.kept (reading : Reading) (payload : Payload) : List (String × Json) :=
  if payload.HidesSource reading then removeField "source" payload.plain else payload.plain

theorem stripped_eq (payload : Payload) :
    stripped reading payload.json = .object (payload.kept reading) := by
  have kind : (((payload.plain.lookup "auth_type").bind asText).any fun authType =>
      authKind (some authType) = .oauth) = decide (authKind (payload.text "auth_type") = .oauth) := by
    rw [payload.lookup_plain (by decide) (by decide)]
    change ((payload.text "auth_type").any _) = _
    cases payload.text "auth_type" with
    | none => rfl
    | some text => rfl
  have source := @Payload.lookup_plain payload "source" (by decide) (by decide)
  change Json.object (if (!((payload.plain.lookup "auth_type").bind asText).any fun authType =>
      authKind (some authType) = .oauth) || sameOption reading (payload.plain.lookup "source")
        (payload.get "api_key") then removeField "source" payload.plain else payload.plain) = _
  have hides : (!decide (authKind (payload.text "auth_type") = .oauth) ||
      sameOption reading (payload.get "source") (payload.get "api_key")) = true ↔
        payload.HidesSource reading := by
    simp [Payload.HidesSource, Payload.IsOAuth]
  rw [kind, source, Payload.kept]
  simp only [hides]

/-- A payload kept without its source. -/
def withoutSource : Json → Json
  | .object entries => .object (removeField "source" entries)
  | value => value

theorem Twins.plain_eq (twins : Twins reading first second) {name : String} (noSource : name ≠ "source") :
    first.plain.lookup name = second.plain.lookup name := by
  by_cases secret : name = "api_key" ∨ name = "response_headers"
  · rw [first.plain_hides secret, second.plain_hides secret]
  · rw [not_or] at secret
    rw [first.lookup_plain secret.1 secret.2, second.lookup_plain secret.1 secret.2]
    exact twins.get_eq secret.1 secret.2 noSource

theorem Twins.kind_eq (twins : Twins reading first second) :
    first.text "auth_type" = second.text "auth_type" := by
  rw [Payload.text, Payload.text, twins.get_eq (by decide) (by decide) (by decide)]

theorem Payload.lookup_kept (payload : Payload) :
    (payload.kept reading).lookup "source" =
      if payload.HidesSource reading then none else payload.get "source" := by
  unfold Payload.kept
  split
  · rw [lookup_removeField, if_pos rfl]
  · exact payload.lookup_plain (by decide) (by decide)

theorem Payload.lookup_kept_of_ne (payload : Payload) {name : String} (noSource : name ≠ "source") :
    (payload.kept reading).lookup name = payload.plain.lookup name := by
  unfold Payload.kept
  split
  · rw [lookup_removeField, if_neg noSource]
  · rfl

theorem Payload.kept_ordered (payload : Payload) : Ordered (payload.kept reading) := by
  unfold Payload.kept
  split
  · exact Ordered.removeField payload.plain_ordered _
  · exact payload.plain_ordered

/-- Both payloads are kept alike, the source aside. -/
theorem Twins.withoutSource_eq (twins : Twins reading first second) :
    removeField "source" (first.kept reading) = removeField "source" (second.kept reading) := by
  apply (Ordered.removeField first.kept_ordered _).eq_of_lookup (Ordered.removeField second.kept_ordered _)
  intro name
  rw [lookup_removeField, lookup_removeField]
  split
  · rfl
  next noSource =>
    rw [first.lookup_kept_of_ne noSource, second.lookup_kept_of_ne noSource, twins.plain_eq noSource]

theorem hidesSource_iff (oauth : payload.IsOAuth) (sourced : payload.get "source" ≠ none) :
    payload.HidesSource reading ↔ payload.OwnSource reading := by
  unfold Payload.HidesSource Payload.OwnSource
  cases found : payload.get "source" with
  | none => exact absurd found sourced
  | some source =>
    cases payload.get "api_key" with
    | none => simp [oauth, sameOption]
    | some key => simp [oauth, sameOption]

/-- Under an OAuth login the source is the own key of both payloads or of neither. -/
def OwnAlike (reading : Reading) (first second : Payload) : Prop :=
  first.IsOAuth → (first.OwnSource reading ↔ second.OwnSource reading)

theorem Twins.source_eq (twins : Twins reading first second)
    (apart : ¬ (first.OwnSource reading ∧ second.OwnSource reading)) :
    first.get "source" = second.get "source" := by
  rcases twins "source" with same | named | named | ⟨_, both⟩
  · exact same
  · exact absurd named (by decide)
  · exact absurd named (by decide)
  · exact absurd both apart

theorem Twins.kept_eq (twins : Twins reading first second) (alike : OwnAlike reading first second) :
    first.kept reading = second.kept reading := by
  apply first.kept_ordered.eq_of_lookup second.kept_ordered
  intro name
  by_cases noSource : name = "source"
  · subst noSource
    rw [first.lookup_kept, second.lookup_kept]
    by_cases oauth : first.IsOAuth
    · have also : second.IsOAuth := by
        unfold Payload.IsOAuth at oauth ⊢
        rwa [← twins.kind_eq]
      by_cases own : first.OwnSource reading ∧ second.OwnSource reading
      · have sourced : ∀ payload : Payload, payload.OwnSource reading → payload.get "source" ≠ none := by
          rintro payload ⟨source, key, found, _⟩
          rw [found]
          exact Option.some_ne_none source
        rw [if_pos ((hidesSource_iff oauth (sourced first own.1)).mpr own.1),
          if_pos ((hidesSource_iff also (sourced second own.2)).mpr own.2)]
      · have shared := twins.source_eq own
        by_cases absent : first.get "source" = none
        · rw [← shared, absent, ite_self, ite_self]
        · have neither : ¬ first.OwnSource reading := fun held => own ⟨held, (alike oauth).mp held⟩
          have nor : ¬ second.OwnSource reading := fun held => own ⟨(alike oauth).mpr held, held⟩
          rw [if_neg (mt (hidesSource_iff oauth absent).mp neither),
            if_neg (mt (hidesSource_iff also (shared ▸ absent)).mp nor), shared]
    · have also : ¬ second.IsOAuth := by
        unfold Payload.IsOAuth at oauth ⊢
        rwa [← twins.kind_eq]
      rw [if_pos (.inl oauth), if_pos (.inl also)]
  · rw [first.lookup_kept_of_ne noSource, second.lookup_kept_of_ne noSource, twins.plain_eq noSource]

theorem blank_eq {one other : NewUsageEvent} (same : blank one = blank other)
    (caller : one.caller = other.caller) (label : one.account.label = other.account.label) :
    one = other := by
  have rebuilt (event : NewUsageEvent) : event = { blank event with
      caller := event.caller
      account := { (blank event).account with label := event.account.label } } := rfl
  rw [rebuilt one, rebuilt other, same, caller, label]

/-- Twins that are read differ in their callers and labels alone. -/
theorem Twins.blank_eq (twins : Twins reading first second) {one other : NewUsageEvent}
    (left : parse reading first.json = .record one)
    (right : parse reading second.json = .record other) : blank one = blank other := by
  have made := @event_blind reading (recordOf reading first)
  rw [twins.blind_eq, ← event_blind, (parse_record left).2, (parse_record right).2] at made
  exact Except.ok.inj made

theorem Twins.label_eq (twins : Twins reading first second) {one other : NewUsageEvent}
    (left : parse reading first.json = .record one)
    (right : parse reading second.json = .record other) (tails : first.keyTail = second.keyTail)
    (alike : OwnAlike reading first second) : one.account.label = other.account.label := by
  have blanks := twins.blank_eq left right
  have upstream : one.account.upstreamKey = other.account.upstreamKey :=
    congrArg (fun event => event.account.upstreamKey) blanks
  have kinds : one.account.authKind = other.account.authKind :=
    congrArg (fun event => event.account.authKind) blanks
  by_cases both : first.OwnSource reading ∧ second.OwnSource reading
  · rw [(parse_shows left).own both.1, (parse_shows right).own both.2, kinds, tails]
  · have texts : first.text "source" = second.text "source" :=
      congrArg (Option.bind · asText) (twins.source_eq both)
    by_cases oauth : one.account.authKind = .oauth
    · have own := alike ((parse_kind left).symm.trans oauth)
      have neither : ¬ first.OwnSource reading := fun held => both ⟨held, own.mp held⟩
      have nor : ¬ second.OwnSource reading := fun held => both ⟨own.mpr held, held⟩
      rw [(parse_shows left).other neither, (parse_shows right).other nor, upstream, kinds, texts]
    · rw [parse_masked left oauth, parse_masked right (kinds ▸ oauth), texts]

/-- Payloads that differ in the client key, in the response headers and in a source that is the key
leave the same behind, but for what may be shown of the key. -/
theorem keys_stay_out (reading : Reading) (first second : Payload) (twins : Twins reading first second) :
    (∀ one other, parse reading first.json = .record one →
      parse reading second.json = .record other →
        blank one = blank other ∧ Shows reading first one ∧ Shows reading second other ∧
        (first.keyTail = second.keyTail → OwnAlike reading first second → one = other)) ∧
    ∀ error text kept stored, parse reading first.json = .rejected error kept →
      parse reading second.json = .rejected text stored →
        (KeysReadAlike reading first second → error = text) ∧
        withoutSource kept = withoutSource stored ∧
        (OwnAlike reading first second → kept = stored) := by
  constructor
  · intro one other left right
    have shows := parse_shows left
    have also := parse_shows right
    refine ⟨twins.blank_eq left right, shows, also, fun tails alike => ?_⟩
    apply Secrets.blank_eq (twins.blank_eq left right)
    · rw [shows.caller, also.caller, tails]
    · exact twins.label_eq left right tails alike
  · intro error text kept stored left right
    obtain ⟨failed, rfl⟩ := parse_rejected left
    obtain ⟨broke, rfl⟩ := parse_rejected right
    rw [stripped_eq, stripped_eq]
    refine ⟨fun alike => ?_, congrArg Json.object twins.withoutSource_eq, fun alike => ?_⟩
    · exact Option.some.inj (failed.symm.trans ((twins.failure_eq alike).trans broke))
    · rw [twins.kept_eq alike]

/-- A refusal quotes a number, and every text is the same instant. -/
def quoting : Reading where
  runtime := { Sql.Runtime.inert with parseTimestamp := fun _ => some 0 }
  quoted := id
  refusal value expected := match value with
    | .number text => "invalid type: integer `" ++ text ++ "`, expected " ++ expected
    | _ => "invalid type, expected " ++ expected
  sameNumber first second := first = second

/-- A request through an API key that is also the client's own. -/
def request (key : String) : Payload where
  entries := [("api_key", .string key), ("auth_type", .string "api_key"), ("endpoint", .string ""),
    ("fail", .object []), ("model", .string ""), ("provider", .string ""), ("source", .string key),
    ("timestamp", .string ""), ("tokens", .object [])]
  ordered := ordered_iff_keys.mpr (by simp only [List.map]; decide)

theorem requests_are_masked :
    ∃ one other, parse quoting (request "client-key-1234").json = .record one ∧
      parse quoting (request "client-key-5678").json = .record other ∧ blank one = blank other ∧
      one.caller = some "…1234" ∧ one.account.label = some "…1234" ∧
      other.caller = some "…5678" ∧ other.account.label = some "…5678" := by
  have twins : Twins quoting (request "client-key-1234") (request "client-key-5678") := by
    intro name
    by_cases key : name = "api_key"
    · exact .inr (.inl key)
    · by_cases source : name = "source"
      · exact .inr (.inr (.inr ⟨source, ⟨_, _, rfl, rfl, rfl⟩, ⟨_, _, rfl, rfl, rfl⟩⟩))
      · exact .inl (by simp [Payload.get, request, lookup_cons, key, source])
  refine ⟨_, _, rfl, rfl, ?_, rfl, rfl, rfl, rfl⟩
  exact ((keys_stay_out quoting _ _ twins).1 _ _ rfl rfl).1

/-- An OAuth login that lacks every other field. -/
def login (key : String) : Payload where
  entries := [("api_key", .string key), ("auth_type", .string "oauth"), ("source", .string "login")]
  ordered := ordered_iff_keys.mpr (by simp only [List.map]; decide)

def keyed (key : Json) : Payload := ⟨[("api_key", key)], List.pairwise_singleton _ _⟩

/-- Two logins are kept apart by the client key that is the source of one, and two refusals by the
numbers they quote. -/
theorem keys_tell_rejections_apart :
    (Twins quoting (login "login") (login "client") ∧
      ∃ error kept stored, parse quoting (login "login").json = .rejected error kept ∧
        parse quoting (login "client").json = .rejected error stored ∧ kept ≠ stored) ∧
    Twins quoting (keyed (.number "1")) (keyed (.number "2")) ∧
      ∃ error text kept, parse quoting (keyed (.number "1")).json = .rejected error kept ∧
        parse quoting (keyed (.number "2")).json = .rejected text kept ∧
        error = "invalid type: integer `1`, expected a string" ∧
        text = "invalid type: integer `2`, expected a string" := by
  constructor
  · constructor
    · intro name
      by_cases key : name = "api_key"
      · exact .inr (.inl key)
      · exact .inl (by simp [Payload.get, login, lookup_cons, key])
    · refine ⟨"missing field `timestamp`", .object [("auth_type", .string "oauth")],
        .object [("auth_type", .string "oauth"), ("source", .string "login")], rfl, rfl, ?_⟩
      simp
  · constructor
    · intro name
      by_cases key : name = "api_key"
      · exact .inr (.inl key)
      · exact .inl (by simp [Payload.get, keyed, lookup_cons, key])
    · exact ⟨_, _, .object [], rfl, rfl, rfl, rfl⟩

end MeteredUsage.Collector.Secrets

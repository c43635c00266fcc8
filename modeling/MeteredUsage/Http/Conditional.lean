import MeteredUsage.Library.Execution
import MeteredUsage.Library.Fields
import MeteredUsage.Store.Sql

/-! Conditional reads. A list answers with an `ETag` of its body, and a reader that names the tags of the
answers it keeps gets 304 with no body for as long as the list reads the same. However the tags it names
are spelled and split over lines, what the reader then shows is what the list says. -/

namespace MeteredUsage.Http.Conditional
open MeteredUsage.Store MeteredUsage.Library.Execution MeteredUsage.Library.Fields

/-- The characters of a header field. -/
abbrev Field := List Char

/-- `HeaderValue::to_str`, which reads visible ASCII, blanks and tabs alone. -/
def toStr (line : Field) : Option Field :=
  if line.all fun character => character = '\t' || (32 ≤ character.toNat && character.toNat < 127) then some line
  else none

structure Response (Body : Type) where
  status : Nat
  etag : Option Field
  /-- None is sent where the status has none. -/
  body : Option Body

variable {Body : Type} (hash : Body → Field)

/-- The tag of a body, in quotes. -/
def tagOf (body : Body) : Field := '"' :: hash body ++ ['"']

/-- Drops a `W/` in front. -/
def strong : Field → Field
  | 'W' :: '/' :: rest => rest
  | candidate => candidate

/-- `names`: whether an `If-None-Match` value names the tag. It compares weakly, and `*` names any tag. -/
def names (header tag : Field) : Bool :=
  ((header.splitOn ',').map (strip Sql.isWhitespace)).any fun candidate => candidate = ['*'] || strong candidate = tag

/-- `Conditional::call` over what the operation answered. A list of tags may be split over several field
lines. -/
def call (ifNoneMatch : List Field) (answered : Nat × Body) : Response Body :=
  let header := [','].intercalate (ifNoneMatch.filterMap toStr)
  if answered.1 ≠ 200 then ⟨answered.1, none, some answered.2⟩
  else if names header (tagOf hash answered.2) then ⟨304, some (tagOf hash answered.2), none⟩
  else ⟨200, some (tagOf hash answered.2), some answered.2⟩

/-- A tag as a reader or a proxy on the way writes it. -/
structure Written where
  before : Field
  weak : Bool
  tag : Field
  after : Field

def Written.core (written : Written) : Field := if written.weak then 'W' :: '/' :: written.tag else written.tag

def Written.text (written : Written) : Field := written.before ++ written.core ++ written.after

/-- A field line of tags. -/
def lineOf (line : List Written) : Field := [','].intercalate (line.map Written.text)

/-- What a reader keeps of the answers it was sent, each under its tag, and what it shows. -/
structure Reader (Body : Type) where
  kept : List (Field × Body)
  shown : Option Body

/-- An answer of 304 is the kept one of its tag; another status is no answer of the list. -/
def Reader.take (reader : Reader Body) (response : Response Body) : Reader Body :=
  if response.status = 304 then
    { reader with shown := response.etag.bind fun tag =>
        (reader.kept.find? fun entry => entry.1 = tag).map Prod.snd }
  else if response.status = 200 then
    match response.etag, response.body with
    | some tag, some body => ⟨(tag, body) :: reader.kept, some body⟩
    | _, _ => reader
  else reader

structure Service (Body : Type) where
  /-- What the operation answers now. -/
  answered : Nat × Body
  reader : Reader Body

inductive Event (Body : Type) where
  /-- The list changes, or an error answers in its place. -/
  | serve (status : Nat) (body : Body)
  | poll (lines : List (List Written))
  /-- The reader drops what it keeps under a tag. -/
  | forget (tag : Field)

/-- Blanks that a field may hold. -/
def isBlank (character : Char) : Bool := character = ' ' || character = '\t'

/-- The lines name kept answers, with blanks around them. -/
def Spells (reader : Reader Body) (lines : List (List Written)) : Prop :=
  ∀ line ∈ lines, ∀ written ∈ line, written.tag ∈ reader.kept.map Prod.fst ∧
    written.before.all isBlank = true ∧ written.after.all isBlank = true

instance (reader : Reader Body) (lines : List (List Written)) : Decidable (Spells reader lines) :=
  inferInstanceAs (Decidable (∀ line ∈ lines, ∀ written ∈ line, _ ∧ _))

/-- The answer to a poll. -/
def answer (service : Service Body) (lines : List (List Written)) : Response Body :=
  call hash (lines.map lineOf) service.answered

def step (service : Service Body) : Event Body → Option (Service Body)
  | .serve status body => some { service with answered := (status, body) }
  | .poll lines =>
    if Spells service.reader lines then
      some { service with reader := service.reader.take (answer hash service lines) }
    else none
  | .forget tag =>
    some { service with reader := { service.reader with kept := service.reader.kept.filter (·.1 ≠ tag) } }

/-- A reader that keeps nothing. -/
def Service.new (status : Nat) (body : Body) : Service Body := ⟨(status, body), [], none⟩

/-- The bodies a run serves after the first. -/
def served (events : List (Event Body)) : List Body :=
  events.filterMap fun event => match event with
    | .serve _ body => some body
    | _ => none

/-- `to_hex` writes lowercase digits. -/
def isHexDigit (character : Char) : Bool := character.isDigit || (97 ≤ character.toNat && character.toNat ≤ 102)

section Names
variable {hash} {body : Body} {written : Written}

/-- Every character of a tag reads as one, and none separates tags. -/
theorem symbol_of_tag (hex : ∀ character ∈ hash body, isHexDigit character = true) {character : Char}
    (member : character ∈ tagOf hash body) :
    character ≠ ',' ∧ 32 ≤ character.toNat ∧ character.toNat < 127 := by
  have inside : character = '"' ∨ isHexDigit character = true := by
    rcases List.mem_append.mp member with front | last
    · rcases List.mem_cons.mp front with same | digit
      · exact .inl same
      · exact .inr (hex character digit)
    · exact .inl (List.mem_singleton.mp last)
  rcases inside with rfl | digit
  · decide
  · have bounds : 48 ≤ character.toNat ∧ character.toNat ≤ 102 := by
      simp only [isHexDigit, Char.isDigit, Bool.or_eq_true, Bool.and_eq_true, decide_eq_true_eq] at digit
      rcases digit with ⟨low, high⟩ | ⟨low, high⟩
      · exact ⟨low, high.trans (by decide)⟩
      · exact ⟨(by decide : 48 ≤ 97).trans low, high⟩
    refine ⟨?_, by omega, by omega⟩
    rintro rfl
    exact absurd bounds.1 (by decide)

theorem solid_core (tagged : written.tag = tagOf hash body) : Solid Sql.isWhitespace written.core := by
  unfold Written.core
  rw [tagged]
  split
  · refine ⟨?_, ?_⟩
    · intro first member
      cases member
      decide
    · intro last member
      rw [show 'W' :: '/' :: tagOf hash body = 'W' :: '/' :: '"' :: hash body ++ ['"'] from rfl,
        List.getLast?_append] at member
      cases member
      decide
  · refine ⟨?_, ?_⟩
    · intro first member
      cases member
      decide
    · intro last member
      rw [tagOf, List.getLast?_append] at member
      cases member
      decide

theorem strong_core (tagged : written.tag = tagOf hash body) : strong written.core = tagOf hash body := by
  unfold Written.core
  rw [tagged]
  split
  · rfl
  · rfl

/-- A written tag is of a body and has blanks around it. -/
def Tags (hash : Body → Field) (written : Written) (body : Body) : Prop :=
  written.tag = tagOf hash body ∧ written.before.all isBlank = true ∧ written.after.all isBlank = true

theorem whitespace_of_blank {field : Field} (blanks : field.all isBlank = true) :
    ∀ character ∈ field, Sql.isWhitespace character = true := by
  intro character member
  have blank := List.all_eq_true.mp blanks character member
  simp only [isBlank, Bool.or_eq_true, decide_eq_true_eq] at blank
  rcases blank with rfl | rfl
  · decide
  · decide

theorem strip_text (tags : Tags hash written body) : strip Sql.isWhitespace written.text = written.core :=
  strip_padded (solid_core tags.1) (whitespace_of_blank tags.2.1) (whitespace_of_blank tags.2.2)

/-- A written tag holds no comma, and a header field may hold it. -/
theorem symbol_of_text (hex : ∀ character ∈ hash body, isHexDigit character = true) (tags : Tags hash written body)
    {character : Char} (member : character ∈ written.text) :
    character ≠ ',' ∧ (character = '\t' ∨ 32 ≤ character.toNat ∧ character.toNat < 127) := by
  have blank (field : Field) (blanks : field.all isBlank = true) (held : character ∈ field) :
      character ≠ ',' ∧ (character = '\t' ∨ 32 ≤ character.toNat ∧ character.toNat < 127) := by
    have blank := List.all_eq_true.mp blanks character held
    simp only [isBlank, Bool.or_eq_true, decide_eq_true_eq] at blank
    rcases blank with rfl | rfl
    · decide
    · decide
  have tag (held : character ∈ written.tag) :
      character ≠ ',' ∧ (character = '\t' ∨ 32 ≤ character.toNat ∧ character.toNat < 127) := by
    rw [tags.1] at held
    have symbol := symbol_of_tag hex held
    exact ⟨symbol.1, .inr symbol.2⟩
  rcases List.mem_append.mp member with front | behind
  · rcases List.mem_append.mp front with ahead | core
    · exact blank _ tags.2.1 ahead
    · unfold Written.core at core
      split at core
      · rcases List.mem_cons.mp core with rfl | core
        · decide
        · rcases List.mem_cons.mp core with rfl | core
          · decide
          · exact tag core
      · exact tag core
  · exact blank _ tags.2.2 behind

theorem toStr_lineOf {line : List Written} (hex : ∀ body, ∀ character ∈ hash body, isHexDigit character = true)
    (tags : ∀ written ∈ line, ∃ body, Tags hash written body) : toStr (lineOf line) = some (lineOf line) := by
  unfold toStr
  rw [if_pos]
  rw [List.all_eq_true]
  intro character member
  rcases mem_join member with rfl | ⟨text, listed, inside⟩
  · decide
  · obtain ⟨written, held, rfl⟩ := List.mem_map.mp listed
    obtain ⟨body, tagged⟩ := tags written held
    simpa using (symbol_of_text (hex body) tagged inside).2

/-- A header of tags names those that are written in it. -/
theorem names_iff (body : Body) {lines : List (List Written)}
    (hex : ∀ body, ∀ character ∈ hash body, isHexDigit character = true)
    (tags : ∀ line ∈ lines, ∀ written ∈ line, ∃ body, Tags hash written body) :
    names ([','].intercalate ((lines.map lineOf).filterMap toStr)) (tagOf hash body) = true ↔
      ∃ line ∈ lines, ∃ written ∈ line, written.tag = tagOf hash body := by
  have readable : (lines.map lineOf).filterMap toStr =
      (lines.map fun line => line.map Written.text).map [','].intercalate := by
    rw [List.filterMap_map, List.map_map, ← List.filterMap_eq_map]
    apply List.filterMap_congr
    intro line member
    exact toStr_lineOf hex (tags line member)
  have whole : ∀ texts ∈ lines.map fun line => line.map Written.text, ∀ text ∈ texts, ',' ∉ text := by
    intro texts listed text held separates
    obtain ⟨line, member, rfl⟩ := List.mem_map.mp listed
    obtain ⟨written, inside, rfl⟩ := List.mem_map.mp held
    obtain ⟨body, tagged⟩ := tags line member written inside
    exact (symbol_of_text (hex body) tagged separates).1 rfl
  have candidate (written : Written) (other : Body) (tagged : Tags hash written other) :
      (strip Sql.isWhitespace written.text = ['*'] ∨
        strong (strip Sql.isWhitespace written.text) = tagOf hash body) ↔
        written.tag = tagOf hash body := by
    rw [strip_text tagged, strong_core tagged.1, tagged.1]
    refine or_iff_right ?_
    intro star
    unfold Written.core at star
    rw [tagged.1] at star
    split at star <;> simp [tagOf] at star
  unfold names
  rw [readable, List.any_eq_true]
  simp only [List.mem_map, Bool.or_eq_true, decide_eq_true_eq]
  constructor
  · rintro ⟨_, ⟨field, held, rfl⟩, same⟩
    rcases (mem_splitOn_lines whole).mp held with ⟨texts, listed, inside⟩ | ⟨rfl, -⟩
    · obtain ⟨line, member, rfl⟩ := List.mem_map.mp listed
      obtain ⟨written, there, rfl⟩ := List.mem_map.mp inside
      obtain ⟨other, tagged⟩ := tags line member written there
      exact ⟨line, member, written, there, (candidate written other tagged).mp same⟩
    · simp [strip, strong, tagOf] at same
  · rintro ⟨line, member, written, there, same⟩
    obtain ⟨other, tagged⟩ := tags line member written there
    refine ⟨_, ⟨written.text, ?_, rfl⟩, (candidate written other tagged).mpr same⟩
    exact (mem_splitOn_lines whole).mpr (.inl ⟨_, List.mem_map_of_mem member, List.mem_map_of_mem there⟩)

end Names

section Runs
variable {hash} {service after : Service Body} {bodies : List Body}

/-- What a reader keeps under a tag is a served body of that tag. -/
def Keeps (hash : Body → Field) (bodies : List Body) (reader : Reader Body) : Prop :=
  ∀ entry ∈ reader.kept, entry.1 = tagOf hash entry.2 ∧ entry.2 ∈ bodies

structure Invariant (hash : Body → Field) (bodies : List Body) (service : Service Body) : Prop where
  kept : Keeps hash bodies service.reader
  answered : service.answered.2 ∈ bodies

theorem Keeps.mono {more : List Body} {reader : Reader Body} (keeps : Keeps hash bodies reader)
    (grown : bodies ⊆ more) :
    Keeps hash more reader := fun entry member => ⟨(keeps entry member).1, grown (keeps entry member).2⟩

theorem Keeps.tags {reader : Reader Body} {lines : List (List Written)} (keeps : Keeps hash bodies reader)
    (spells : Spells reader lines) : ∀ line ∈ lines, ∀ written ∈ line, ∃ body, Tags hash written body := by
  intro line member written there
  obtain ⟨tagged, blanks⟩ := spells line member written there
  obtain ⟨entry, held, same⟩ := List.mem_map.mp tagged
  exact ⟨entry.2, same.symm.trans (keeps entry held).1, blanks⟩

/-- The answer is the operation's own error, or that the list reads the same, or the list. -/
theorem call_cases (hash : Body → Field) (ifNoneMatch : List Field) (answered : Nat × Body) :
    call hash ifNoneMatch answered = ⟨answered.1, none, some answered.2⟩ ∨
      call hash ifNoneMatch answered = ⟨304, some (tagOf hash answered.2), none⟩ ∨
      call hash ifNoneMatch answered = ⟨200, some (tagOf hash answered.2), some answered.2⟩ := by
  unfold call
  dsimp only
  split
  · exact .inl rfl
  · split
    · exact .inr (.inl rfl)
    · exact .inr (.inr rfl)

theorem keeps_take {reader : Reader Body} (keeps : Keeps hash bodies reader) (answered : Nat × Body)
    (known : answered.2 ∈ bodies) (ifNoneMatch : List Field) :
    Keeps hash bodies (reader.take (call hash ifNoneMatch answered)) := by
  rcases call_cases hash ifNoneMatch answered with same | same | same
  · rw [same]
    unfold Reader.take
    split
    · exact keeps
    · split
      · exact keeps
      · exact keeps
  · rw [same]
    exact keeps
  · rw [same]
    intro entry member
    rcases List.mem_cons.mp member with rfl | held
    · exact ⟨rfl, known⟩
    · exact keeps entry held

theorem step_poll {lines : List (List Written)} (taken : step hash service (.poll lines) = some after) :
    Spells service.reader lines ∧
      after = { service with reader := service.reader.take (answer hash service lines) } := by
  change (if Spells service.reader lines then _ else none) = some after at taken
  by_cases spells : Spells service.reader lines
  · rw [if_pos spells] at taken
    exact ⟨spells, (Option.some.inj taken).symm⟩
  · rw [if_neg spells] at taken
    cases taken

theorem invariant_new (hash : Body → Field) (status : Nat) (first : Body) :
    Invariant hash [first] (.new status first) :=
  ⟨fun _ member => absurd member List.not_mem_nil, List.mem_singleton_self _⟩

/-- What one event adds to what was served. -/
theorem invariant_step (held : Invariant hash bodies service) {event : Event Body}
    (taken : step hash service event = some after) : Invariant hash (bodies ++ served [event]) after := by
  have grown : bodies ⊆ bodies ++ served [event] := List.subset_append_left _ _
  cases event with
  | serve status body =>
    cases taken
    exact ⟨held.kept.mono grown, List.mem_append_right _ (List.mem_singleton_self _)⟩
  | poll lines =>
    obtain ⟨-, rfl⟩ := step_poll taken
    exact ⟨keeps_take (held.kept.mono grown) _ (grown held.answered) _, grown held.answered⟩
  | forget tag =>
    cases taken
    refine ⟨?_, grown held.answered⟩
    intro entry member
    exact held.kept.mono grown entry (List.mem_of_mem_filter member)

theorem invariant_run (held : Invariant hash bodies service) {events : List (Event Body)}
    (ran : run (step hash) service events = some after) : Invariant hash (bodies ++ served events) after := by
  induction events generalizing service bodies with
  | nil =>
    cases ran
    simpa [served] using held
  | cons event rest ih =>
    obtain ⟨next, taken, later⟩ := (run_cons _ _ _ _ _).mp ran
    have whole := ih (invariant_step held taken) later
    have joined : served (event :: rest) = served [event] ++ served rest := by
      unfold served
      rw [← List.filterMap_append]
      rfl
    rwa [List.append_assoc, ← joined] at whole

/-- Where bodies served have tags of their own, a poll leaves a reader with the list as it is, and is
answered without a body where the reader named it. -/
theorem readers_are_current (hex : ∀ body, ∀ character ∈ hash body, isHexDigit character = true) {status : Nat}
    {first : Body} {events : List (Event Body)} {finish : Service Body}
    (ran : run (step hash) (.new status first) events = some finish)
    (apart : ∀ body ∈ first :: served events, ∀ other ∈ first :: served events,
      hash body = hash other → body = other)
    {lines : List (List Written)} (polled : step hash finish (.poll lines) = some after)
    (listed : finish.answered.1 = 200) :
    after.reader.shown = some finish.answered.2 ∧
      ((answer hash finish lines).body = none ↔
        ∃ line ∈ lines, ∃ written ∈ line, written.tag = tagOf hash finish.answered.2) := by
  have held : Invariant hash ([first] ++ served events) finish :=
    invariant_run (invariant_new hash status first) ran
  obtain ⟨spells, rfl⟩ := step_poll polled
  have named := names_iff finish.answered.2 hex (held.kept.tags spells)
  have answered : answer hash finish lines =
      if names ([','].intercalate ((lines.map lineOf).filterMap toStr)) (tagOf hash finish.answered.2) then
        ⟨304, some (tagOf hash finish.answered.2), none⟩
      else ⟨200, some (tagOf hash finish.answered.2), some finish.answered.2⟩ := by
    unfold answer call
    rw [if_neg (not_not_intro listed)]
  rw [answered]
  split
  next names =>
    have written := named.mp names
    refine ⟨?_, iff_of_true rfl written⟩
    -- The tag named is kept, and what is kept under it is the body served now.
    obtain ⟨line, member, tag, there, same⟩ := written
    obtain ⟨entry, kept, under⟩ := List.mem_map.mp (spells line member tag there).1
    change (((finish.reader.kept.find? fun entry => entry.1 = tagOf hash finish.answered.2).map Prod.snd)) = _
    cases found : finish.reader.kept.find? fun entry => entry.1 = tagOf hash finish.answered.2 with
    | none =>
      have missed := List.find?_eq_none.mp found entry kept
      exact absurd (decide_eq_true (under.trans same)) missed
    | some shown =>
      have tagged := List.find?_some found
      obtain ⟨tag, known⟩ := held.kept shown (List.mem_of_find?_eq_some found)
      rw [tag, decide_eq_true_eq] at tagged
      have hashes := List.append_cancel_right (List.cons.inj tagged).2
      exact congrArg some (apart _ known _ held.answered hashes)
  next missed =>
    have unnamed := mt named.mpr missed
    exact ⟨rfl, iff_of_false (Option.some_ne_none _) unnamed⟩

/-- Two bodies of a letter each. -/
def letter (body : Bool) : Field := if body then ['a'] else ['b']

/-- The list turns and turns back, and the reader keeps both. -/
def turnedBack : List (Event Bool) :=
  [.poll [], .serve 200 true, .poll [[⟨[], true, tagOf letter false, [' ']⟩]], .serve 200 false]

/-- Both tags over two lines, one of them weakened on the way. -/
def bothTags : List (List Written) :=
  [[⟨[], false, tagOf letter true, []⟩], [⟨[' '], true, tagOf letter false, []⟩]]

theorem a_list_that_turned_back_is_not_sent : ∃ finish after,
    run (step letter) (.new 200 false) turnedBack = some finish ∧ step letter finish (.poll bothTags) = some after ∧
      after.reader.shown = some false ∧ (answer letter finish bothTags).body = none := by
  have ran : (run (step letter) (.new 200 false) turnedBack).any (fun finish =>
      finish.answered = (200, false) && (step letter finish (.poll bothTags)).isSome) = true := by decide
  obtain ⟨finish, reached, last⟩ := (Option.any_eq_true _ _).mp ran
  rw [Bool.and_eq_true, decide_eq_true_eq] at last
  obtain ⟨answered, polls⟩ := last
  obtain ⟨after, polled⟩ := Option.isSome_iff_exists.mp polls
  have hex : ∀ body, ∀ character ∈ letter body, isHexDigit character = true := fun body =>
    List.all_eq_true.mp (by cases body <;> rfl)
  obtain ⟨shown, unsent⟩ := readers_are_current hex reached (by decide) polled (congrArg Prod.fst answered)
  rw [answered] at shown unsent
  exact ⟨finish, after, reached, polled, shown, unsent.mpr
    ⟨_, List.mem_cons_of_mem _ List.mem_cons_self, _, List.mem_cons_self, rfl⟩⟩

end Runs

end MeteredUsage.Http.Conditional

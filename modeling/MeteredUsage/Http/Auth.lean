import MeteredUsage.Http.Conditional
import MeteredUsage.Library.Utf8

/-! One shared token guards everything that reads or writes usage. A client presents it as a bearer token,
or as the session cookie a browser was given for it; two narrower tokens reach less. A browser that was
given the cookie is admitted until it is told to forget it, as far as a cookie can hold the token. -/

namespace MeteredUsage.Http.Auth
open MeteredUsage.Store MeteredUsage.Library.Execution MeteredUsage.Library.Fields MeteredUsage.Library.Utf8
open MeteredUsage.Http.Conditional (Field toStr isBlank)

inductive Method where
  | get
  | post
  | put
  | patch
  | delete
  | other (name : String)
deriving DecidableEq

/-- What of a request says who sends it, and what for. -/
structure Request where
  method : Method
  /-- Under the mount. -/
  path : String
  /-- The first `Authorization` line. -/
  authorization : Option Field
  /-- The `Cookie` lines. -/
  cookies : List Field

structure Token where
  text : String
  filled : text ≠ ""

/-- `Token::try_from`. -/
def Token.tryFrom (value : String) : Option Token := if filled : value ≠ "" then some ⟨value, filled⟩ else none

/-- `Token::matches`: as long for a wrong guess that shares a prefix as for one that shares nothing. -/
def Token.matches (token : Token) (candidate : String) : Bool :=
  if (utf8 token.text).length ≠ (utf8 candidate).length then false
  else ((utf8 token.text).zip (utf8 candidate)).foldl
    (fun difference pair => difference ||| (pair.1 ^^^ pair.2)) 0 = (0 : UInt8)

def sessionCookie : Field := "metered_usage_session".toList
def cookieAttributes : Field := "HttpOnly; SameSite=Strict; Path=/".toList
def bearerPrefix : Field := "Bearer ".toList

/-- How a request presents a token. -/
inductive Transport where
  | bearer
  | session
deriving DecidableEq

/-- `str::split_once`. -/
def splitOnce (separator : Char) (text : Field) : Option (Field × Field) :=
  if separator ∈ text then
    some (text.takeWhile (· ≠ separator), (text.dropWhile (· ≠ separator)).tail)
  else none

/-- The name and value of one pair. -/
def readPair (pair : Field) : Option (Field × Field) := splitOnce '=' (strip Sql.isWhitespace pair)

/-- The name and value pairs of the `Cookie` lines. -/
def pairs (cookies : List Field) : List (Field × Field) :=
  ((cookies.filterMap toStr).flatMap (List.splitOn ';')).filterMap readPair

/-- `Token::presented`. -/
def Token.presented (token : Token) (request : Request) : Option Transport :=
  let bearer := (request.authorization.bind toStr).bind fun value =>
    if bearerPrefix.isPrefixOf value then some (value.drop bearerPrefix.length) else none
  if bearer.any fun bearer => token.matches (String.ofList bearer) then some .bearer
  else if (pairs request.cookies).any fun pair => pair.1 = sessionCookie && token.matches (String.ofList pair.2) then
    some .session
  else none

/-- `Token::session_cookie`: the `Set-Cookie` value that makes a browser present the token. -/
def Token.sessionCookie (token : Token) : Field :=
  Auth.sessionCookie ++ '=' :: token.text.toList ++ ';' :: ' ' :: cookieAttributes

/-- `Token::cleared_cookie`: the `Set-Cookie` value that makes a browser forget it. -/
def Token.clearedCookie : Field :=
  Auth.sessionCookie ++ '=' :: ';' :: ' ' :: cookieAttributes ++ "; Max-Age=0".toList

/-- Operations a client reaches before it has a credential. -/
def openOperations : List (Method × String) := [(.get, "/health"), (.post, "/session"), (.get, "/session")]

/-- The change feed, the lists its changes name, and the request and failure counts per account. -/
def consumerReads : List String :=
  ["/events", "/quota", "/quota/actions", "/prices", "/accounts", "/usage/summary", "/plans", "/leverage",
    "/analytics/health"]

/-- A soft sync and a hard refresh. -/
def consumerActions : List String := ["/quota/sync", "/quota/refresh"]

/-- The tokens the API admits, each to its own operations. -/
structure Credentials where
  token : Token
  readToken : Option Token
  consumerToken : Option Token

inductive Role where
  | admin
  | read
  | consumer
deriving DecidableEq

/-- `Role::reaches`. -/
def Role.reaches (method : Method) (path : String) : Role → Bool
  | .admin => true
  | .read => method = .get
  | .consumer => (method = .get && consumerReads.contains path) || (method = .post && consumerActions.contains path)

/-- `CredentialIdentity`: the authority that admitted a request, and how it was presented. -/
structure Identity where
  credential : Role
  transport : Transport
deriving DecidableEq

/-- `Credentials::admit`. -/
def Credentials.admit (credentials : Credentials) (request : Request) (method : Method) (path : String) :
    Option Identity :=
  let roles := [(Role.admin, some credentials.token), (.read, credentials.readToken),
    (.consumer, credentials.consumerToken)]
  (roles.filter fun entry => entry.1.reaches method path).findSome? fun entry =>
    (entry.2.bind (·.presented request)).map (⟨entry.1, ·⟩)

/-- What the middleware makes of a request. -/
inductive Admission where
  /-- Passed on without a credential. -/
  | unguarded
  | admitted (identity : Identity)
  /-- Answered 401. -/
  | refused
deriving DecidableEq

/-- `RequireCredentialEndpoint::call`. -/
def Credentials.require (credentials : Credentials) (request : Request) : Admission :=
  if (request.method, request.path) ∈ openOperations then .unguarded
  else match credentials.admit request request.method request.path with
    | some identity => .admitted identity
    | none => .refused

/-- `create_session`: the cookie for the access token. -/
def createSession (credentials : Credentials) (input : String) : Option Field :=
  if credentials.token.matches input then some credentials.token.sessionCookie else none

section Tokens
variable {token : Token}

theorem foldl_or_xor (difference : UInt8) (pairs : List (UInt8 × UInt8)) :
    pairs.foldl (fun difference pair => difference ||| (pair.1 ^^^ pair.2)) difference = 0 ↔
      difference = 0 ∧ ∀ pair ∈ pairs, pair.1 = pair.2 := by
  induction pairs generalizing difference with
  | nil => simp
  | cons pair rest ih =>
    rw [List.foldl_cons, ih, UInt8.or_eq_zero_iff, UInt8.xor_eq_zero_iff, List.forall_mem_cons, and_assoc]

theorem zip_iff {first second : List UInt8} (long : first.length = second.length) :
    (∀ pair ∈ first.zip second, pair.1 = pair.2) ↔ first = second := by
  induction first generalizing second with
  | nil => simp [List.length_eq_zero_iff.mp long.symm]
  | cons byte rest ih =>
    cases second with
    | nil => cases long
    | cons other others =>
      rw [List.zip_cons_cons, List.forall_mem_cons, ih (Nat.succ.inj long), List.cons.injEq]

@[simp] theorem matches_iff (token : Token) (candidate : String) :
    token.matches candidate = true ↔ candidate = token.text := by
  unfold Token.matches
  split
  next apart =>
    refine iff_of_false Bool.false_ne_true ?_
    rintro rfl
    exact apart rfl
  next long =>
    rw [decide_eq_true_eq, foldl_or_xor, zip_iff (not_not.mp long)]
    constructor
    · rintro ⟨-, same⟩
      exact (utf8_injective same).symm
    · rintro rfl
      exact ⟨rfl, rfl⟩

end Tokens

/-- What a browser keeps for the service's host: values under names. -/
abbrev Jar := List (Field × Field)

/-- How a user agent reads a `Set-Cookie` value: the pair before the first semicolon, without the blanks
around its name and value, and the attributes after it. A cookie of no name is not kept, and one whose
age is over is dropped. -/
def Jar.receive (jar : Jar) (setCookie : Field) : Jar :=
  match setCookie.splitOn ';' with
  | [] => jar
  | pair :: attributes =>
    match splitOnce '=' pair with
    | none => jar
    | some (name, value) =>
      let name := strip isBlank name
      let others := jar.filter fun cookie => cookie.1 ≠ name
      if name = [] then jar
      else if attributes.any fun part => strip isBlank part = "Max-Age=0".toList then others
      else others ++ [(name, strip isBlank value)]

/-- The request a browser sends: its cookies on one line, and no other credential. -/
def Jar.request (jar : Jar) (method : Method) (path : String) : Request :=
  ⟨method, path, none,
    if jar = [] then [] else [[';', ' '].intercalate (jar.map fun cookie => cookie.1 ++ '=' :: cookie.2)]⟩

inductive Event where
  /-- The page trades a text for a session. -/
  | signIn (text : String)
  | signOut
  /-- Another service of the host sets a cookie. -/
  | foreign (name value : Field)

/-- A cookie a user agent keeps beside the service's own: a name of its own without `=`, no semicolon, no
blanks around either, and nothing but visible ASCII. -/
structure Foreign (name value : Field) : Prop where
  named : name ≠ []
  apart : name ≠ sessionCookie
  solidName : Solid Sql.isWhitespace name
  solidValue : Solid Sql.isWhitespace value
  noEquals : '=' ∉ name
  noSemicolon : ';' ∉ name ++ value
  visible : toStr (name ++ value) = some (name ++ value)

def browse (credentials : Credentials) (jar : Jar) : Event → Jar
  | .signIn text => (createSession credentials text).elim jar jar.receive
  -- `DELETE /session` is guarded: a browser that presents no session is answered without a cookie.
  | .signOut =>
    if credentials.require (jar.request .delete "/session") = .refused then jar
    else jar.receive Token.clearedCookie
  | .foreign name value => jar.filter (·.1 ≠ name) ++ [(name, value)]

/-- Whether the browser has the session after an event. -/
def signedAfter (token : Token) (signed : Bool) : Event → Bool
  | .signIn text => signed || text = token.text
  | .signOut => false
  | .foreign _ _ => signed

/-- The browser was given the session and not told to forget it since. -/
def signedIn (token : Token) (events : List Event) : Bool := events.foldl (signedAfter token) false

/-- A token that a cookie can hold: visible ASCII without a semicolon, and no blank on either side. -/
structure Carried (token : Token) : Prop where
  visible : toStr token.text.toList = some token.text.toList
  whole : ';' ∉ token.text.toList
  solid : Solid Sql.isWhitespace token.text.toList

section Reads
variable {name value text : Field}

theorem splitOnce_of_not_mem (noEquals : '=' ∉ name) : splitOnce '=' (name ++ '=' :: value) = some (name, value) := by
  have kept : ∀ character ∈ name, decide (character ≠ '=') = true := by
    intro character member
    simp only [decide_eq_true_eq]
    rintro rfl
    exact noEquals member
  unfold splitOnce
  rw [if_pos (List.mem_append_right _ List.mem_cons_self), List.takeWhile_append_of_pos kept,
    List.dropWhile_append_of_pos kept]
  simp

theorem splitOn_first (separator : Char) (text : Field) :
    ∃ rest, text.splitOn separator = text.takeWhile (· ≠ separator) :: rest := by
  induction text with
  | nil => exact ⟨[], rfl⟩
  | cons character text ih =>
    obtain ⟨rest, same⟩ := ih
    rw [List.splitOn_cons_eq_if_modifyHead]
    by_cases separates : character = separator
    · subst separates
      exact ⟨text.splitOn character, by simp⟩
    · refine ⟨rest, ?_⟩
      rw [if_neg (by simpa using separates), same, List.takeWhile_cons_of_pos (by simpa using separates)]
      rfl

theorem symbol_of_toStr (visible : toStr text = some text) {character : Char} (member : character ∈ text) :
    character = '\t' ∨ 32 ≤ character.toNat ∧ character.toNat < 127 := by
  unfold toStr at visible
  split at visible
  next all => simpa using List.all_eq_true.mp all character member
  next => cases visible

theorem toStr_of_symbols
    (symbols : ∀ character ∈ text, character = '\t' ∨ 32 ≤ character.toNat ∧ character.toNat < 127) :
    toStr text = some text := by
  unfold toStr
  rw [if_pos]
  exact List.all_eq_true.mpr fun character member => by simpa using symbols character member

/-- Whitespace that a header field can hold is a blank or a tab. -/
theorem isWhitespace_iff {character : Char}
    (visible : character = '\t' ∨ 32 ≤ character.toNat ∧ character.toNat < 127) :
    Sql.isWhitespace character = isBlank character := by
  rcases visible with rfl | ⟨low, high⟩
  · rfl
  · by_cases blank : character = ' '
    · subst blank
      rfl
    · have apart : character.toNat ≠ 32 := fun same => blank (Char.toNat_inj.mp same)
      have tab : character ≠ '\t' := by
        rintro rfl
        exact absurd low (by decide)
      simp only [Sql.isWhitespace, isBlank, blank, tab, decide_false, Bool.or_false, Bool.or_eq_false_iff,
        Bool.and_eq_false_iff, decide_eq_false_iff_not]
      omega

theorem solid_congr {blank other : Char → Bool} (solid : Solid blank text)
    (same : ∀ character ∈ text, blank character = other character) : Solid other text where
  begins first member := same first (List.mem_of_head? member) ▸ solid.begins first member
  ends last member := same last (List.mem_of_getLast? member) ▸ solid.ends last member

/-- A cookie whose pair reads back as it is. -/
structure Plain (name value : Field) : Prop where
  named : name ≠ []
  noEquals : '=' ∉ name
  noSemicolon : ';' ∉ name ++ value
  solidName : Solid Sql.isWhitespace name
  solidValue : Solid Sql.isWhitespace value

def pairText (cookie : Field × Field) : Field := cookie.1 ++ '=' :: cookie.2

theorem Plain.solid (plain : Plain name value) : Solid Sql.isWhitespace (pairText (name, value)) where
  begins first member := by
    obtain ⟨head, rest, rfl⟩ := List.exists_cons_of_ne_nil plain.named
    exact plain.solidName.begins first member
  ends last member := by
    rw [pairText, List.getLast?_append] at member
    cases shown : value.getLast? with
    | none =>
      obtain rfl := List.getLast?_eq_none_iff.mp shown
      cases member
      rfl
    | some character =>
      rw [List.getLast?_cons, shown] at member
      cases member
      exact plain.solidValue.ends _ shown

theorem Plain.noSeparator (plain : Plain name value) : ';' ∉ pairText (name, value) := by
  have apart := plain.noSemicolon
  simp only [pairText, List.mem_append, List.mem_cons] at apart ⊢
  rintro (inside | same | inside)
  · exact apart (.inl inside)
  · exact absurd same (by decide)
  · exact apart (.inr inside)

/-- Joined by a semicolon and a blank, texts split at the semicolons with the blank in front. -/
theorem splitOn_line {first : Field} {rest : List Field} (whole : ∀ text ∈ first :: rest, ';' ∉ text) :
    ([';', ' '].intercalate (first :: rest)).splitOn ';' = first :: rest.map (' ' :: ·) := by
  have joined (first : Field) :
      [';', ' '].intercalate (first :: rest) = [';'].intercalate (first :: rest.map (' ' :: ·)) := by
    induction rest generalizing first with
    | nil => rfl
    | cons next others ih =>
      rw [List.intercalate_cons_cons, ih (fun text member => whole text (by
        rcases List.mem_cons.mp member with rfl | later
        · exact List.mem_cons_self
        · exact List.mem_cons_of_mem _ (List.mem_cons_of_mem _ later))), List.map_cons, List.intercalate_cons_cons]
      cases others with
      | nil => simp
      | cons other more => simp
  rw [joined, List.splitOn_intercalate]
  · intro text member
    rcases List.mem_cons.mp member with rfl | later
    · exact whole text List.mem_cons_self
    · obtain ⟨part, held, rfl⟩ := List.mem_map.mp later
      intro separates
      rcases List.mem_cons.mp separates with same | inside
      · exact absurd same (by decide)
      · exact whole part (List.mem_cons_of_mem _ held) inside
  · exact List.cons_ne_nil _ _

/-- The pairs of a readable line of plain cookies are the cookies. -/
theorem pairs_line {cookie : Field × Field} {rest : Jar} (plain : ∀ held ∈ cookie :: rest, Plain held.1 held.2)
    (visible : toStr ([';', ' '].intercalate ((cookie :: rest).map pairText)) =
      some ([';', ' '].intercalate ((cookie :: rest).map pairText))) :
    pairs [[';', ' '].intercalate ((cookie :: rest).map pairText)] = cookie :: rest := by
  have read (held : Field × Field) (plain : Plain held.1 held.2) (before : Field)
      (blanks : ∀ character ∈ before, Sql.isWhitespace character = true) :
      readPair (before ++ pairText held) = some held := by
    have stripped : strip Sql.isWhitespace (before ++ pairText (held.1, held.2) ++ []) = pairText held :=
      strip_padded plain.solid blanks fun _ member => nomatch member
    rw [List.append_nil] at stripped
    unfold readPair
    rw [show pairText held = pairText (held.1, held.2) from rfl, stripped]
    exact splitOnce_of_not_mem plain.noEquals
  have whole : ∀ text ∈ pairText cookie :: rest.map pairText, ';' ∉ text := by
    intro text member
    obtain ⟨held, listed, rfl⟩ := List.mem_map.mp (show text ∈ (cookie :: rest).map pairText from member)
    exact (plain held listed).noSeparator
  have first : readPair (pairText cookie) = some cookie :=
    read cookie (plain cookie List.mem_cons_self) [] (by simp)
  unfold pairs
  rw [List.filterMap_cons_some visible, List.filterMap_nil, List.flatMap_singleton, List.map_cons, splitOn_line whole,
    List.map_map, List.filterMap_cons_some first, List.filterMap_map]
  congr 1
  have blank : ∀ character ∈ [' '], Sql.isWhitespace character = true := List.all_eq_true.mp rfl
  have each : ∀ held ∈ rest, (readPair ∘ ((' ' :: ·) ∘ pairText)) held = some held := fun held member =>
    read held (plain held (List.mem_cons_of_mem _ member)) [' '] blank
  rw [List.filterMap_congr each, List.filterMap_some]

end Reads

section Sessions
variable {token : Token} {credentials : Credentials} {jar : Jar} {signed : Bool}

/-- The value a browser keeps of a session cookie. -/
def given (token : Token) : Field := strip isBlank (token.text.toList.takeWhile (· ≠ ';'))

theorem given_of_carried (carried : Carried token) : given token = token.text.toList := by
  have whole : token.text.toList.takeWhile (· ≠ ';') = token.text.toList := by
    rw [List.takeWhile_eq_self_iff]
    intro character member
    simp only [decide_eq_true_eq]
    rintro rfl
    exact carried.whole member
  unfold given
  rw [whole]
  exact strip_solid (solid_congr carried.solid fun character member =>
    isWhitespace_iff (symbol_of_toStr carried.visible member))

theorem no_semicolon_session : ∀ character ∈ sessionCookie, decide (character ≠ ';') = true :=
  List.all_eq_true.mp (by decide)

/-- What the service gives a browser is kept as the session's value, or, where the token itself says so,
dropped. -/
theorem receive_session (token : Token) (jar : Jar) :
    jar.receive token.sessionCookie = jar.filter (·.1 ≠ sessionCookie) ++ [(sessionCookie, given token)] ∨
      ¬Carried token ∧ jar.receive token.sessionCookie = jar.filter (·.1 ≠ sessionCookie) := by
  obtain ⟨rest, front⟩ := splitOn_first ';' (sessionCookie ++ '=' :: token.text.toList)
  have pair : (sessionCookie ++ '=' :: token.text.toList).takeWhile (· ≠ ';') =
      sessionCookie ++ '=' :: token.text.toList.takeWhile (· ≠ ';') := by
    rw [List.takeWhile_append_of_pos no_semicolon_session, List.takeWhile_cons_of_pos (by decide)]
  have split : token.sessionCookie.splitOn ';' =
      (sessionCookie ++ '=' :: token.text.toList.takeWhile (· ≠ ';')) ::
        (rest ++ (' ' :: cookieAttributes).splitOn ';') := by
    unfold Token.sessionCookie
    rw [List.splitOn_append_cons_self, front, pair]
    rfl
  have once : splitOnce '=' (sessionCookie ++ '=' :: token.text.toList.takeWhile (· ≠ ';')) =
      some (sessionCookie, token.text.toList.takeWhile (· ≠ ';')) :=
    splitOnce_of_not_mem (show '=' ∉ sessionCookie by decide)
  have name : strip isBlank sessionCookie = sessionCookie := by decide
  unfold Jar.receive
  rw [split]
  dsimp only
  rw [once]
  dsimp only
  rw [name, if_neg (show sessionCookie ≠ [] by decide)]
  split
  next ended =>
    refine .inr ⟨?_, rfl⟩
    intro carried
    have whole : ';' ∉ sessionCookie ++ '=' :: token.text.toList := by
      intro separates
      rcases List.mem_append.mp separates with inside | later
      · exact absurd (no_semicolon_session ';' inside) (by decide)
      · rcases List.mem_cons.mp later with same | inside
        · exact absurd same (by decide)
        · exact carried.whole inside
    rw [List.splitOn_eq_singleton whole] at front
    rw [← (List.cons.inj front).2] at ended
    exact absurd ended (by decide)
  next => exact .inl rfl

theorem receive_cleared (jar : Jar) : jar.receive Token.clearedCookie = jar.filter (·.1 ≠ sessionCookie) := by
  have split : Token.clearedCookie.splitOn ';' = (sessionCookie ++ ['=']) ::
      [" HttpOnly".toList, " SameSite=Strict".toList, " Path=/".toList, " Max-Age=0".toList] := by decide
  have once : splitOnce '=' (sessionCookie ++ ['=']) = some (sessionCookie, []) :=
    splitOnce_of_not_mem (show '=' ∉ sessionCookie by decide)
  have name : strip isBlank sessionCookie = sessionCookie := by decide
  unfold Jar.receive
  rw [split]
  dsimp only
  rw [once]
  dsimp only
  rw [name, if_neg (show sessionCookie ≠ [] by decide), if_pos (by decide)]

/-- What a browser keeps: cookies of others, and the session where the browser was given it and not told to
forget it. -/
structure Holds (token : Token) (jar : Jar) (signed : Bool) : Prop where
  cookies : ∀ cookie ∈ jar, Foreign cookie.1 cookie.2 ∨ cookie = (sessionCookie, given token)
  forgotten : Carried token → signed = false → (sessionCookie, given token) ∉ jar
  kept : Carried token → signed = true → (sessionCookie, given token) ∈ jar

theorem Holds.others (holds : Holds token jar signed) :
    ∀ cookie ∈ jar.filter (·.1 ≠ sessionCookie), Foreign cookie.1 cookie.2 := by
  intro cookie member
  obtain ⟨held, apart⟩ := List.mem_filter.mp member
  rcases holds.cookies cookie held with foreign | rfl
  · exact foreign
  · simp at apart

theorem Foreign.plain {name value : Field} (foreign : Foreign name value) : Plain name value :=
  ⟨foreign.named, foreign.noEquals, foreign.noSemicolon, foreign.solidName, foreign.solidValue⟩

theorem no_semicolon_given (token : Token) : ';' ∉ given token := by
  intro member
  have inside := mem_of_mem_strip member
  have kept := List.mem_takeWhile_imp inside
  simp at kept

/-- The session's pair reads back where a header field can hold it. -/
theorem plain_session (visible : toStr (given token) = some (given token)) : Plain sessionCookie (given token) where
  named := by decide
  noEquals := by decide
  noSemicolon := by
    intro member
    rcases List.mem_append.mp member with inside | inside
    · exact absurd (no_semicolon_session ';' inside) (by decide)
    · exact no_semicolon_given token inside
  solidName := solid_of_strip (by decide)
  solidValue := solid_congr (solid_strip _ _) fun character member =>
    (isWhitespace_iff (symbol_of_toStr visible member)).symm

/-- A line of cookies can be read where each of them can. -/
theorem visible_line {jar : Jar} (visible : ∀ cookie ∈ jar, toStr (pairText cookie) = some (pairText cookie)) :
    toStr ([';', ' '].intercalate (jar.map pairText)) = some ([';', ' '].intercalate (jar.map pairText)) := by
  apply toStr_of_symbols
  intro character member
  induction jar with
  | nil => cases member
  | cons cookie rest ih =>
    have here (inside : character ∈ pairText cookie) := symbol_of_toStr (visible cookie List.mem_cons_self) inside
    cases rest with
    | nil => exact here (by simpa using member)
    | cons next others =>
      rw [List.map_cons, List.map_cons, List.intercalate_cons_cons, List.append_assoc] at member
      rcases List.mem_append.mp member with inside | later
      · exact here inside
      · rcases List.mem_append.mp later with separates | after
        · simp only [List.mem_cons, List.not_mem_nil, or_false] at separates
          rcases separates with rfl | rfl
          · exact .inr (by decide)
          · exact .inr (by decide)
        · exact ih (fun other held => visible other (List.mem_cons_of_mem _ held)) after

theorem toStr_of_subset {text part : Field} (visible : toStr text = some text) (inside : part ⊆ text) :
    toStr part = some part := toStr_of_symbols fun _ member => symbol_of_toStr visible (inside member)

theorem pairText_subset {jar : Jar} {cookie : Field × Field} (member : cookie ∈ jar) :
    pairText cookie ⊆ [';', ' '].intercalate (jar.map pairText) := by
  induction jar with
  | nil => cases member
  | cons first rest ih =>
    intro character inside
    cases rest with
    | nil =>
      rw [List.mem_singleton.mp member] at inside
      simpa using inside
    | cons next others =>
      rw [List.map_cons, List.map_cons, List.intercalate_cons_cons, List.append_assoc]
      rcases List.mem_cons.mp member with rfl | later
      · exact List.mem_append_left _ inside
      · exact List.mem_append_right _ (List.mem_append_right _ (ih later inside))

theorem visible_pair {name value : Field} (visible : toStr (name ++ value) = some (name ++ value)) :
    toStr (pairText (name, value)) = some (pairText (name, value)) := by
  apply toStr_of_symbols
  intro character member
  rcases List.mem_append.mp member with inside | later
  · exact symbol_of_toStr visible (List.mem_append_left _ inside)
  · rcases List.mem_cons.mp later with rfl | inside
    · exact .inr (by decide)
    · exact symbol_of_toStr visible (List.mem_append_right _ inside)

/-- A browser without another credential presents the token through its cookies. -/
theorem presented_request (token : Token) (jar : Jar) (method : Method) (path : String) :
    token.presented (jar.request method path) = some .session ↔
      (sessionCookie, token.text.toList) ∈ pairs (jar.request method path).cookies := by
  have bearer : (((jar.request method path).authorization.bind toStr).bind fun value =>
      if bearerPrefix.isPrefixOf value then some (value.drop bearerPrefix.length) else none) = none := rfl
  unfold Token.presented
  rw [bearer]
  dsimp only
  rw [Option.any_none, if_neg Bool.false_ne_true]
  have session : (if (pairs (jar.request method path).cookies).any (fun pair =>
      pair.1 = sessionCookie && token.matches (String.ofList pair.2)) then some Transport.session else none) =
      some .session ↔ (pairs (jar.request method path).cookies).any (fun pair =>
        pair.1 = sessionCookie && token.matches (String.ofList pair.2)) = true := by
    split <;> simp_all
  rw [session, List.any_eq_true]
  simp only [Bool.and_eq_true, decide_eq_true_eq, matches_iff]
  constructor
  · rintro ⟨pair, member, named, same⟩
    rw [← named, ← same, String.toList_ofList]
    exact member
  · intro member
    exact ⟨_, member, rfl, String.ofList_toList⟩

/-- Where a cookie can hold the token, every cookie of the jar can be read. -/
theorem visible_held (cookies : ∀ cookie ∈ jar, Foreign cookie.1 cookie.2 ∨ cookie = (sessionCookie, given token))
    (carried : Carried token) : ∀ held ∈ jar, toStr (pairText held) = some (pairText held) := by
  intro held member
  rcases cookies held member with foreign | rfl
  · exact visible_pair foreign.visible
  · rw [given_of_carried carried]
    apply visible_pair
    apply toStr_of_symbols
    intro character inside
    rcases List.mem_append.mp inside with name | text
    · have plain : toStr sessionCookie = some sessionCookie := by decide
      exact symbol_of_toStr plain name
    · exact symbol_of_toStr carried.visible text

/-- A readable line of cookies is read as the cookies. -/
theorem pairs_request (cookies : ∀ cookie ∈ jar, Foreign cookie.1 cookie.2 ∨ cookie = (sessionCookie, given token))
    (visible : toStr ([';', ' '].intercalate (jar.map pairText)) = some ([';', ' '].intercalate (jar.map pairText)))
    (method : Method) (path : String) : pairs (jar.request method path).cookies = jar := by
  cases jar with
  | nil => rfl
  | cons cookie rest =>
    apply pairs_line _ visible
    intro held member
    rcases cookies held member with foreign | rfl
    · exact foreign.plain
    · exact plain_session (toStr_of_subset visible fun _ inside =>
        pairText_subset member (List.mem_append_right _ (List.mem_cons_of_mem _ inside)))

/-- A session that a cookie can hold is presented. -/
theorem presented_of_mem
    (cookies : ∀ cookie ∈ jar, Foreign cookie.1 cookie.2 ∨ cookie = (sessionCookie, given token))
    (carried : Carried token) (member : (sessionCookie, given token) ∈ jar) (method : Method) (path : String) :
    token.presented (jar.request method path) = some .session := by
  rw [presented_request, pairs_request cookies (visible_line (visible_held cookies carried))]
  exact given_of_carried carried ▸ member

/-- A header value that is no text has no cookie. -/
theorem pairs_unread {value : Field} (hidden : toStr value ≠ some value) : pairs [value] = [] := by
  have unread : toStr value = none := by
    unfold toStr at hidden ⊢
    split at hidden
    next => exact absurd rfl hidden
    next missed => exact if_neg missed
  unfold pairs
  rw [List.filterMap_cons_none unread]
  rfl

/-- A browser presents the token as long as it has the session, where a cookie can hold it. -/
theorem presented_iff (holds : Holds token jar signed) (method : Method) (path : String) :
    token.presented (jar.request method path) = some .session ↔ signed = true ∧ Carried token := by
  constructor
  · intro presented
    rw [presented_request] at presented
    by_cases visible : toStr ([';', ' '].intercalate (jar.map pairText)) =
        some ([';', ' '].intercalate (jar.map pairText))
    · rw [pairs_request holds.cookies visible] at presented
      have same : given token = token.text.toList := by
        rcases holds.cookies _ presented with foreign | session
        · exact absurd rfl foreign.apart
        · exact (congrArg Prod.snd session).symm
      have shown : toStr token.text.toList = some token.text.toList := toStr_of_subset visible fun _ inside =>
        pairText_subset presented (List.mem_append_right _ (List.mem_cons_of_mem _ inside))
      have carried : Carried token := by
        refine ⟨shown, same ▸ no_semicolon_given token, ?_⟩
        exact solid_congr (same ▸ solid_strip isBlank _) fun character inside =>
          (isWhitespace_iff (symbol_of_toStr shown inside)).symm
      refine ⟨?_, carried⟩
      by_contra ended
      exact holds.forgotten carried (Bool.eq_false_iff.mpr ended) (same ▸ presented)
    · have unread : pairs (jar.request method path).cookies = [] := by
        cases jar with
        | nil => rfl
        | cons cookie rest => exact pairs_unread visible
      rw [unread] at presented
      cases presented
  · rintro ⟨kept, carried⟩
    exact presented_of_mem holds.cookies carried (holds.kept carried kept) method path

/-- The access token is tried first and reaches every operation. -/
theorem admit_iff (credentials : Credentials) (request : Request) (method : Method) (path : String)
    (transport : Transport) : credentials.admit request method path = some ⟨.admin, transport⟩ ↔
      credentials.token.presented request = some transport := by
  let narrower := [(Role.read, credentials.readToken), (.consumer, credentials.consumerToken)]
  have later : (narrower.filter fun entry => entry.1.reaches method path).findSome? (fun entry =>
      (entry.2.bind (·.presented request)).map fun transport => (⟨entry.1, transport⟩ : Identity)) ≠
        some ⟨.admin, transport⟩ := by
    intro found
    obtain ⟨entry, member, same⟩ := List.exists_of_findSome?_eq_some found
    obtain ⟨shown, -, identity⟩ := Option.map_eq_some_iff.mp same
    have role : entry.1 = .admin := congrArg Identity.credential identity
    have listed := List.mem_of_mem_filter member
    simp only [narrower, List.mem_cons, List.not_mem_nil, or_false] at listed
    rcases listed with rfl | rfl
    · cases role
    · cases role
  unfold Credentials.admit
  dsimp only
  rw [List.filter_cons_of_pos rfl, List.findSome?_cons, Option.bind_some]
  cases shown : credentials.token.presented request with
  | none => exact iff_of_false later nofun
  | some other => simp

theorem require_iff (credentials : Credentials) (request : Request) (identity : Identity) :
    credentials.require request = .admitted identity ↔ (request.method, request.path) ∉ openOperations ∧
      credentials.admit request request.method request.path = some identity := by
  unfold Credentials.require
  split
  next free => exact iff_of_false nofun fun guarded => guarded.1 free
  next guarded =>
    rw [and_iff_right guarded]
    cases credentials.admit request request.method request.path with
    | none => simp
    | some other => simp

/-- One event leaves what the browser should keep. -/
theorem holds_browse (holds : Holds credentials.token jar signed) {event : Event}
    (others : ∀ name value, event = .foreign name value → Foreign name value) :
    Holds credentials.token (browse credentials jar event) (signedAfter credentials.token signed event) := by
  have absent : (sessionCookie, given credentials.token) ∉ jar.filter (·.1 ≠ sessionCookie) := by simp
  cases event with
  | signIn text =>
    change Holds _ ((createSession credentials text).elim jar jar.receive) (signed || text = credentials.token.text)
    unfold createSession
    by_cases same : text = credentials.token.text
    · rw [if_pos ((matches_iff _ _).mpr same), Option.elim_some, decide_eq_true same, Bool.or_true]
      rcases receive_session credentials.token jar with kept | ⟨lost, dropped⟩
      · rw [kept]
        refine ⟨?_, fun _ => nofun, fun _ _ => List.mem_append_right _ (List.mem_singleton_self _)⟩
        intro cookie member
        rcases List.mem_append.mp member with other | session
        · exact .inl (holds.others cookie other)
        · exact .inr (List.mem_singleton.mp session)
      · rw [dropped]
        exact ⟨fun cookie member => .inl (holds.others cookie member), fun _ => nofun, fun carried => absurd carried lost⟩
    · have refused : credentials.token.matches text = false := by
        rw [← Bool.not_eq_true, matches_iff]
        exact same
      rw [refused, if_neg Bool.false_ne_true, Option.elim_none, decide_eq_false same, Bool.or_false]
      exact holds
  | signOut =>
    change Holds _ (if credentials.require (jar.request .delete "/session") = .refused then jar
      else jar.receive Token.clearedCookie) false
    split
    next refused =>
      -- A session that a cookie can hold would have been admitted.
      refine ⟨holds.cookies, fun carried _ member => ?_, fun _ => nofun⟩
      have admitted := (require_iff credentials (jar.request .delete "/session") ⟨.admin, .session⟩).mpr
        ⟨show (Method.delete, "/session") ∉ openOperations by decide, (admit_iff ..).mpr (presented_of_mem holds.cookies carried member .delete "/session")⟩
      cases refused.symm.trans admitted
    next =>
      rw [receive_cleared]
      exact ⟨fun cookie member => .inl (holds.others cookie member), fun _ _ => absent, fun _ => nofun⟩
  | foreign name value =>
    have foreign := others name value rfl
    have apart : (sessionCookie, given credentials.token) ≠ (name, value) := fun same =>
      foreign.apart (congrArg Prod.fst same).symm
    have session : (sessionCookie, given credentials.token) ∈ jar.filter (·.1 ≠ name) ++ [(name, value)] ↔
        (sessionCookie, given credentials.token) ∈ jar := by
      simp [apart, foreign.apart.symm]
    change Holds _ (jar.filter (·.1 ≠ name) ++ [(name, value)]) signed
    refine ⟨?_, fun carried ended => session.not.mpr (holds.forgotten carried ended), fun carried kept =>
      session.mpr (holds.kept carried kept)⟩
    intro cookie member
    rcases List.mem_append.mp member with old | new
    · exact holds.cookies cookie (List.mem_of_mem_filter old)
    · rw [List.mem_singleton.mp new]
      exact .inl foreign

theorem holds_run {events : List Event} (holds : Holds credentials.token jar signed)
    (others : ∀ name value, .foreign name value ∈ events → Foreign name value) :
    Holds credentials.token (events.foldl (browse credentials) jar)
      (events.foldl (signedAfter credentials.token) signed) := by
  induction events generalizing jar signed with
  | nil => exact holds
  | cons event rest ih =>
    apply ih
    · apply holds_browse holds
      rintro name value rfl
      exact others name value List.mem_cons_self
    · exact fun name value member => others name value (List.mem_cons_of_mem _ member)

/-- A browser is admitted as the token's holder, to any guarded operation, as long as it was given the
session and not told to forget it since, and where a cookie can hold the token; whatever other cookies it
keeps. -/
theorem a_session_lasts_until_it_is_ended (credentials : Credentials) (events : List Event)
    (others : ∀ name value, .foreign name value ∈ events → Foreign name value) (method : Method) (path : String) :
    credentials.require ((events.foldl (browse credentials) []).request method path) =
        .admitted ⟨.admin, .session⟩ ↔
      (method, path) ∉ openOperations ∧ signedIn credentials.token events = true ∧ Carried credentials.token := by
  have start : Holds credentials.token [] false := ⟨nofun, fun _ _ => List.not_mem_nil, fun _ => nofun⟩
  have presented := presented_iff (holds_run start others) method path
  rw [require_iff, admit_iff]
  exact and_congr_right' presented

/-- One token alone. -/
def secret : Credentials := ⟨⟨"secret", by decide⟩, none, none⟩

/-- Another service sets a cookie, a guess is refused, and the token is given. -/
def secondGuess : List Event := [.foreign "theme".toList "dark".toList, .signIn "guess", .signIn "secret"]

theorem a_second_guess_is_admitted : secret.require ((secondGuess.foldl (browse secret) []).request .post "/prices") =
    .admitted ⟨.admin, .session⟩ := by
  have foreign : Foreign "theme".toList "dark".toList :=
    ⟨by decide, by decide, solid_of_strip (by decide), solid_of_strip (by decide), by decide, by decide, by decide⟩
  have others : ∀ name value, .foreign name value ∈ secondGuess → Foreign name value := by
    intro name value member
    simp only [secondGuess, List.mem_cons, List.not_mem_nil, or_false, Event.foreign.injEq, reduceCtorEq] at member
    obtain ⟨rfl, rfl⟩ := member
    exact foreign
  exact (a_session_lasts_until_it_is_ended secret secondGuess others .post "/prices").mpr
    ⟨by decide, rfl, by decide, by decide, solid_of_strip (by decide)⟩

end Sessions

end MeteredUsage.Http.Auth

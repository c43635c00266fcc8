import MeteredUsage.Gateway.Rounds

/-! What the service sends to providers while nobody asks it to: reads of accounts whose sign-in
expired and whose deadline was claimed, through a credential of theirs in the live list, and nothing
that is paid for. -/

namespace MeteredUsage.Gateway.Unattended
open MeteredUsage.Values MeteredUsage.Store MeteredUsage.Store.Schema MeteredUsage.Store.Credentials
open MeteredUsage.Store.Quota MeteredUsage.Store.Validity MeteredUsage.Store.Commands
open MeteredUsage.Store.Intake (ownerOf)
open MeteredUsage.Store.Registered (Stays Listing providerFor)
open MeteredUsage.Library.Interaction MeteredUsage.Library.Execution
open MeteredUsage.Gateway.Adapters MeteredUsage.Gateway.Requests MeteredUsage.Gateway.Reported
open MeteredUsage.Gateway.Rounds
open MeteredUsage.Gateway.Spending (Config Target indexOf keyOf listed targets answered_of_listed
  resolves_answered)

/-- What happens by itself: no refresh that a person asked for, no spend and no merge. -/
def ByItself : Event → Prop
  | .write (.merge _ _ _) _ => False
  | .refresh _ automatic => automatic = true
  | .spend _ => False
  | _ => True

/-- No consume call, no call of xAI or Meta, and no credential file. -/
def Unpaid : Question → Prop
  | .call call => call.url ∉ Codex.consumeUrl :: (urls .xai ++ urls .metaAi)
  | .download _ => False
  | .now => True

/-- A credential of the account that can be read unattended, as it is named by a list read after the
account's deadline was claimed. The newest entry of a log comes first. -/
structure Live (runtime : Sql.Runtime) (accountId : AccountId) (log : List Logged) (target : Target) : Prop where
  account : target.accountId = accountId
  allowed : target.provider.allowsAutomaticRecovery = true
  listed : ∃ later listing earlier, log = later ++ .listed target.source listing :: earlier ∧
    .due accountId ∈ earlier ∧ target.file ∈ listing.files ∧
      providerFor runtime target.file = some target.provider

/-- The key of the credential is charged to its account. -/
def Charged (tables : Tables) (target : Target) : Prop :=
  ownerOf tables.accounts target.source (keyOf target.file) = some target.accountId

/-- What the entries before say of an entry. -/
def Recovers (runtime : Sql.Runtime) (tables : Tables) (earlier : List Logged) : Logged → Prop
  | .asked target question => Live runtime target.accountId earlier target ∧ Charged tables target ∧
      Own target.provider (indexOf target.file) question ∧ Unpaid question
  | .spent _ _ _ => False
  | _ => True

def History (runtime : Sql.Runtime) (tables : Tables) : List Logged → Prop
  | [] => True
  | entry :: earlier => Recovers runtime tables earlier entry ∧ History runtime tables earlier

/-- The fetches of an automatic refresh are of live credentials of its one account. -/
structure Recovering (runtime : Sql.Runtime) (tables : Tables) (log : List Logged) (round : Round)
    (accountId : AccountId) : Prop where
  automatic : round.automatic = true
  only : round.only = some accountId
  due : .due accountId ∈ log
  waiting : ∀ target ∈ round.waiting, Live runtime accountId log target ∧ Charged tables target
  running : ∀ under ∈ round.running, Live runtime accountId log under.target ∧ Charged tables under.target ∧
    under.course.Sound (fun _ => Own under.target.provider (indexOf under.target.file)) fun _ _ => True

def Working (runtime : Sql.Runtime) (tables : Tables) (log : List Logged) : Work → Prop
  | .idle => True
  | .refreshing round => ∃ accountId, Recovering runtime tables log round accountId
  | _ => False

structure Held (runtime : Sql.Runtime) (service : Service) : Prop where
  valid : Valid False service.tables
  history : History runtime service.tables service.log
  due : ∀ accountId ∈ service.due, .due accountId ∈ service.log
  working : Working runtime service.tables service.log service.work

variable {runtime : Sql.Runtime} {reading : Reading} {config : Config} {service after : Service}
  {tables next : Tables} {log more : List Logged} {accountId : AccountId} {source : SourceId} {entry : Logged}

/-- The calls of a provider that can be read unattended are unpaid. -/
theorem unpaid_of_own {provider : Provider} {authIndex : String} {question : Question}
    (allowed : provider.allowsAutomaticRecovery = true) (own : Own provider authIndex question) :
    Unpaid question := by
  cases question with
  | call call =>
    obtain ⟨_, address⟩ := own
    intro paid
    have apart : ∀ url ∈ urls provider, url ∉ Codex.consumeUrl :: (urls .xai ++ urls .metaAi) := by
      cases provider with
      | xai | metaAi => cases allowed
      | _ => decide
    exact apart _ address paid
  | download name =>
    obtain rfl : provider = .metaAi := own
    cases allowed
  | now => trivial

theorem Live.mono {target : Target} (live : Live runtime accountId log target) (grown : log <:+ more) :
    Live runtime accountId more target := by
  obtain ⟨later, listing, earlier, rfl, named⟩ := live.listed
  obtain ⟨newer, rfl⟩ := grown
  exact ⟨live.account, live.allowed, newer ++ later, listing, earlier, (List.append_assoc _ _ _).symm, named⟩

theorem Charged.stays {target : Target} (charged : Charged tables target) (stays : Stays False id tables next) :
    Charged next target := stays.owners _ _ _ charged

/-- What is logged outlives a change of the tables that keeps keys charged. -/
theorem History.charged (history : History runtime tables log)
    (charged : ∀ target, Charged tables target → Charged next target) : History runtime next log := by
  induction log with
  | nil => trivial
  | cons entry earlier ih =>
    refine ⟨?_, ih history.2⟩
    have recovers := history.1
    cases entry with
    | asked target question => exact ⟨recovers.1, charged target recovers.2.1, recovers.2.2⟩
    | _ => exact recovers

theorem History.split {later earlier : List Logged} (history : History runtime tables (later ++ entry :: earlier)) :
    Recovers runtime tables earlier entry := by
  induction later with
  | nil => exact history.1
  | cons first rest ih => exact ih history.2

theorem Recovering.stays {round : Round} (recovering : Recovering runtime tables log round accountId)
    (stays : Stays False id tables next) : Recovering runtime next log round accountId where
  automatic := recovering.automatic
  only := recovering.only
  due := recovering.due
  waiting target member := (recovering.waiting target member).imp_right fun charged => charged.stays stays
  running under member := by
    obtain ⟨live, charged, sound⟩ := recovering.running under member
    exact ⟨live, charged.stays stays, sound⟩

theorem Recovering.mono {round : Round} (recovering : Recovering runtime tables log round accountId)
    (grown : log <:+ more) : Recovering runtime tables more round accountId where
  automatic := recovering.automatic
  only := recovering.only
  due := grown.subset recovering.due
  waiting target member := (recovering.waiting target member).imp_left fun live => live.mono grown
  running under member := (recovering.running under member).imp_left fun live => live.mono grown

theorem Working.stays {work : Work} (working : Working runtime tables log work)
    (stays : Stays False id tables next) : Working runtime next log work := by
  cases work with
  | refreshing round =>
    obtain ⟨accountId, recovering⟩ := working
    exact ⟨accountId, recovering.stays stays⟩
  | _ => exact working

theorem Working.mono {work : Work} (working : Working runtime tables log work) (grown : log <:+ more) :
    Working runtime tables more work := by
  cases work with
  | refreshing round =>
    obtain ⟨accountId, recovering⟩ := working
    exact ⟨accountId, recovering.mono grown⟩
  | _ => exact working

/-- A write that is not a merge leaves every key charged where it was. -/
theorem stays_unattended {command : Command} {world : World} (valid : Valid False tables)
    (itself : ByItself (.write command world)) (admitted : isBeside command = true)
    (taken : Commands.step runtime tables (command, world) = some next) : Stays False id tables next := by
  cases command with
  | ingest source records => exact Registered.stays_ingest valid taken
  | store source listing => exact Registered.stays_sync valid taken
  | expire now => exact stays_expire valid taken
  | merge old into requires => cases itself
  | _ => cases admitted

/-- What an automatic refresh asks for. -/
theorem live_targets {shared : AccountId → Bool} {listing : AuthFiles} {stored : List Stored} {target : Target}
    (due : .due accountId ∈ log)
    (answered : Listing False runtime source tables listing.files stored next)
    (member : target ∈ targets source (some accountId) true shared stored) :
    Live runtime accountId (.listed source listing :: log) target ∧ Charged next target := by
  obtain ⟨asked, allowed⟩ := List.mem_filter.mp (List.mem_filter.mp member).1
  obtain ⟨entry, kept, same⟩ := List.mem_filterMap.mp asked
  obtain ⟨provider, known, rfl⟩ := Option.map_eq_some_iff.mp same
  obtain ⟨inside, admitted⟩ := List.mem_filter.mp kept
  have own : entry.accountId = accountId := by simpa [eq_comm] using admitted
  have file : entry.file ∈ listing.files := by
    have member := List.mem_map_of_mem (f := Stored.file) inside
    rw [answered.files] at member
    exact (List.mem_filter.mp member).1
  refine ⟨⟨own, by simpa using allowed, [], listing, log, rfl, due, file, ?_⟩,
    (resolves_answered answered inside provider).2⟩
  rw [← (answered.answers entry inside).provider, known]

/-- Nothing but the tables changes. -/
theorem Held.stays (held : Held runtime service) (stays : Stays False id service.tables next) :
    Held runtime { service with tables := next } :=
  ⟨stays.valid, held.history.charged fun _ charged => charged.stays stays, held.due, held.working.stays stays⟩

/-- The refresh goes on, and something is logged. -/
theorem Held.goes (held : Held runtime service) (recovers : Recovers runtime service.tables service.log entry)
    {work : Work} (working : Working runtime service.tables (entry :: service.log) work) :
    Held runtime { service with log := entry :: service.log, work := work } where
  valid := held.valid
  history := ⟨recovers, held.history⟩
  due id claimed := List.mem_cons_of_mem _ (held.due id claimed)
  working := working

theorem Held.under (held : Held runtime service) {work : Work}
    (working : Working runtime service.tables service.log work) :
    Held runtime { service with work := work } := ⟨held.valid, held.history, held.due, working⟩

theorem Held.recovering (held : Held runtime service) {round : Round}
    (under : service.work = .refreshing round) :
    ∃ accountId, Recovering runtime service.tables service.log round accountId := by
  have working := held.working
  rwa [under] at working

theorem Held.working_of (held : Held runtime service) {work : Work} (under : service.work = work) :
    Working runtime service.tables service.log work := under ▸ held.working

theorem held_write {command : Command} {world : World} (held : Held runtime service)
    (itself : ByItself (.write command world))
    (taken : Rounds.step config runtime reading service (.write command world) = some after) :
    Held runtime after := by
  obtain ⟨admitted, taken⟩ := Option.ite_none_right_eq_some.mp taken
  obtain ⟨next, ran, rfl⟩ := Option.map_eq_some_iff.mp taken
  exact held.stays (stays_unattended held.valid itself admitted ran)

theorem held_recover {now : Timestamp} {world : World} (held : Held runtime service)
    (taken : Rounds.step config runtime reading service (.recover accountId now world) = some after) :
    Held runtime after := by
  have stays := @stays_recover runtime _ held.valid accountId now world
  obtain ⟨next, rfl, rfl | rfl⟩ := step_recover taken
  · refine ⟨stays.valid, ⟨trivial, (held.stays stays).history⟩, fun id claimed => ?_,
      (held.working.stays stays).mono (List.suffix_cons _ _)⟩
    rcases List.mem_cons.mp claimed with rfl | earlier
    · exact List.mem_cons_self
    · exact List.mem_cons_of_mem _ (held.due id earlier)
  · exact held.stays stays

/-- An automatic refresh is one of an account whose deadline was claimed. -/
theorem held_refresh {only : Option AccountId} {automatic : Bool} (held : Held runtime service)
    (itself : automatic = true)
    (taken : Rounds.step config runtime reading service (.refresh only automatic) = some after) :
    Held runtime after := by
  obtain ⟨claimed, source, rfl⟩ := step_refresh taken
  rw [itself, Bool.true_and, Bool.not_eq_true', Bool.not_eq_false, Option.any_eq_true] at claimed
  obtain ⟨accountId, rfl, member⟩ := claimed
  exact held.under ⟨accountId, itself, rfl, held.due accountId (of_decide_eq_true member),
    fun target none => absurd none List.not_mem_nil, fun under none => absurd none List.not_mem_nil⟩

theorem held_list {listing : AuthFiles} {shared : AccountId → Bool} {world : World} (held : Held runtime service)
    (taken : Rounds.step config runtime reading service (.list listing shared world) = some after) :
    Held runtime after := by
  obtain ⟨only, automatic, source, rest, stored, next, under, answer, rfl⟩ := step_list taken
  have answered := answered_of_listed held.valid answer
  obtain ⟨accountId, recovering⟩ := held.recovering under
  obtain rfl : automatic = true := recovering.automatic
  obtain rfl : only = some accountId := recovering.only
  have recovers : Recovers runtime next service.log (.listed source listing) := trivial
  apply (held.stays answered.stays).goes recovers
  exact ⟨accountId, rfl, rfl, List.mem_cons_of_mem _ recovering.due,
    fun target member => live_targets recovering.due answered member,
    fun under none => absurd none List.not_mem_nil⟩

theorem held_unreachable (held : Held runtime service)
    (taken : Rounds.step config runtime reading service .unreachable = some after) : Held runtime after := by
  obtain ⟨automatic, source, rest, under, rfl⟩ := step_unreachable taken
  obtain ⟨accountId, recovering⟩ := held.recovering under
  cases recovering.only

theorem held_begin (held : Held runtime service)
    (taken : Rounds.step config runtime reading service .begin = some after) : Held runtime after := by
  obtain ⟨only, automatic, rest, target, waiting, running, under, rfl⟩ := step_begin taken
  obtain ⟨accountId, recovering⟩ := held.recovering under
  apply held.under
  refine ⟨accountId, recovering.automatic, recovering.only, recovering.due, fun other member =>
    recovering.waiting other (List.mem_cons_of_mem _ member), fun fetching member => ?_⟩
  rcases List.mem_append.mp member with earlier | new
  · exact recovering.running fetching earlier
  · rw [List.mem_singleton.mp new]
    obtain ⟨live, charged⟩ := recovering.waiting target List.mem_cons_self
    exact ⟨live, charged, tells_mono (fetch_tells target.provider target.file (indexOf target.file))
      fun _ _ _ => trivial⟩

/-- What an automatic refresh sends. -/
theorem held_ask {index : Nat} (held : Held runtime service)
    (taken : Rounds.step config runtime reading service (.ask index) = some after) :
    Held runtime after := by
  obtain ⟨round, fetching, question, course, under, running, sent, rfl⟩ := step_ask taken
  obtain ⟨accountId, recovering⟩ := held.recovering under
  obtain ⟨live, charged, sound⟩ := recovering.running fetching running
  obtain ⟨own, later, _⟩ := Course.sound_send sound sent
  have recovers : Recovers runtime service.tables service.log (.asked fetching.target question) :=
    ⟨live.account ▸ live, charged, own, unpaid_of_own live.allowed own⟩
  apply held.goes recovers
  have grown := recovering.mono (List.suffix_cons (.asked fetching.target question) service.log)
  refine ⟨accountId, grown.automatic, grown.only, grown.due, grown.waiting, fun other member => ?_⟩
  rcases List.mem_or_eq_of_mem_set member with kept | rfl
  · exact grown.running other kept
  · exact ⟨live.mono (List.suffix_cons _ _), charged, later⟩

theorem held_hear {index : Nat} {answers : ∀ question, Answer question} (held : Held runtime service)
    (taken : Rounds.step config runtime reading service (.hear index answers) = some after) :
    Held runtime after := by
  obtain ⟨round, fetching, reply, course, under, running, heard, rfl⟩ := step_hear taken
  obtain ⟨accountId, recovering⟩ := held.recovering under
  have recovers : Recovers runtime service.tables service.log (.told fetching.target reply) := trivial
  apply held.goes recovers
  have grown := recovering.mono (List.suffix_cons (.told fetching.target reply) service.log)
  refine ⟨accountId, grown.automatic, grown.only, grown.due, grown.waiting, fun other member => ?_⟩
  rcases List.mem_or_eq_of_mem_set member with kept | rfl
  · exact grown.running other kept
  · obtain ⟨live, charged, sound⟩ := grown.running fetching running
    exact ⟨live, charged, (Course.sound_hear sound heard).1⟩

theorem held_record {index : Nat} {refreshedAt : Timestamp} {world : World} (held : Held runtime service)
    (taken : Rounds.step config runtime reading service (.record index refreshedAt world) = some after) :
    Held runtime after := by
  obtain ⟨round, fetching, result, middle, under, _, came, recorded, rfl⟩ := step_record taken
  obtain ⟨accountId, recovering⟩ := held.recovering under
  obtain ⟨valid, accounts, _, due, logged⟩ := recorded_eq held.valid recorded
  have kept : History runtime middle.tables service.log :=
    held.history.charged fun target charged => by rwa [Charged, accounts]
  have history : History runtime middle.tables middle.log ∧ service.log <:+ middle.log := by
    rcases logged with ⟨grants, _, logged, _⟩ | ⟨logged, _⟩
    · rw [logged]
      exact ⟨⟨trivial, kept⟩, List.suffix_cons _ _⟩
    · rw [logged]
      exact ⟨kept, List.suffix_rfl⟩
  have grown := recovering.mono history.2
  refine ⟨valid, history.1, fun id claimed => history.2.subset (held.due id (due ▸ claimed)), accountId,
    grown.automatic, grown.only, grown.due, fun target member => ?_, fun other member => ?_⟩
  · exact (grown.waiting target member).imp_right fun charged => by rwa [Charged, accounts]
  · obtain ⟨live, charged, sound⟩ := grown.running other (List.mem_of_mem_eraseIdx member)
    exact ⟨live, by rwa [Charged, accounts], sound⟩

/-- Where only refreshes are under way, nothing of a spend happens. -/
theorem held_step {event : Event} (held : Held runtime service) (itself : ByItself event)
    (taken : Rounds.step config runtime reading service event = some after) : Held runtime after := by
  cases event with
  | write command world => exact held_write held itself taken
  | recover accountId now world => exact held_recover held taken
  | refresh only automatic => exact held_refresh held itself taken
  | list listing shared world => exact held_list held taken
  | unreachable => exact held_unreachable held taken
  | begin => exact held_begin held taken
  | ask index => exact held_ask held taken
  | hear index answers => exact held_hear held taken
  | record index refreshedAt world => exact held_record held taken
  | spend accountId => cases itself
  | stop =>
    obtain rfl := Option.some.inj taken
    exact held.under trivial
  | choose | count | clear | consume | confirm | cool | askAfter | hearAfter | recordAfter =>
    simp only [Rounds.step] at taken
    split at taken
    next under => exact False.elim (held.working_of under)
    next => cases taken

/-- In every run of what happens by itself, over any stored state and any lists and answers: each call
reads an account whose deadline was claimed before, through a credential that a list read since the
claim names and that is charged to it, and whose provider there may be read unattended; it is one of
that provider's own, and neither spends a reset nor reaches xAI or Meta. -/
theorem unattended_calls_are_recoveries (runtime : Sql.Runtime) (reading : Reading) (config : Config)
    {base : Tables} (valid : Valid False base) {events : List Event} {finish : Service}
    (itself : ∀ event ∈ events, ByItself event)
    (ran : run (Rounds.step config runtime reading) (.start base) events = some finish)
    {later earlier : List Logged} {entry : Logged} (logged : finish.log = later ++ entry :: earlier) :
    Recovers runtime finish.tables earlier entry := by
  have start : Held runtime (.start base) := ⟨valid, trivial, nofun, trivial⟩
  have kept : ∀ service event after, Held runtime service → ByItself event →
      Rounds.step config runtime reading service event = some after → Held runtime after :=
    fun _ _ _ held itself taken => held_step held itself taken
  have held : Held runtime finish := invariant_run kept start (meets_of_all _ itself) ran
  exact History.split (logged ▸ held.history)

/-- A listed Codex credential whose sign-in expired. -/
def expiredSignIn : List (Command × World) :=
  [(.store 1 (Spending.codexList 1 ["a"]), .calm 0 (· + 1)),
    (.recordRefresh 1 (.error .signInExpired) 2, .calm 2 (· + 10))]

/-- Its deadline is set, comes, and is claimed; the refresh sends its first call. -/
def recoveredOnce : List Event :=
  [.recover 1 3 (.calm 3 (· + 20)), .recover 1 (3 + seconds 180) (.calm 4 (· + 20)), .refresh (some 1) true,
    .list (Spending.codexList 5 ["a"]) (fun _ => false) (.calm 5 (· + 30)), .begin, .ask 0]

def isAsked : Logged → Bool
  | .asked _ _ => true
  | .due _ => false
  | .listed _ _ => false
  | .told _ _ => false
  | .stored _ _ => false
  | .counted _ _ => false
  | .cleared _ => false
  | .spent _ _ _ => false

theorem a_recovery_reads_its_account : ∃ base finish target question earlier,
    run (Commands.step .inert) Listings.gatewayOnly expiredSignIn = some base ∧
      run (Rounds.step Spending.gateway .inert ResetGrants.readsNothing) (.start base) recoveredOnce = some finish ∧
      finish.log = .asked target question :: earlier ∧
      Recovers .inert finish.tables earlier (.asked target question) := by
  have ran : ((run (Commands.step .inert) Listings.gatewayOnly expiredSignIn).any fun base =>
      (run (Rounds.step Spending.gateway .inert ResetGrants.readsNothing) (.start base) recoveredOnce).any
        fun finish => finish.log.head?.any isAsked) = true := by decide +kernel
  obtain ⟨base, stored, ran⟩ := (Option.any_eq_true _ _).mp ran
  obtain ⟨finish, reached, asked⟩ := (Option.any_eq_true _ _).mp ran
  have valid : Valid False base := invariant_run_free
    (fun _ _ _ valid taken => Merged.valid_step valid False.elim taken) Listings.valid_gatewayOnly stored
  have itself : ∀ event ∈ recoveredOnce, ByItself event := by simp [recoveredOnce, ByItself]
  obtain ⟨entry, first, asked⟩ := (Option.any_eq_true _ _).mp asked
  obtain ⟨earlier, same⟩ := List.head?_eq_some_iff.mp first
  cases entry with
  | asked target question =>
    have logged : finish.log = [] ++ .asked target question :: earlier := same
    exact ⟨base, finish, target, question, earlier, stored, reached, same,
      unattended_calls_are_recoveries .inert ResetGrants.readsNothing Spending.gateway valid itself reached logged⟩
  | _ => cases asked

end MeteredUsage.Gateway.Unattended

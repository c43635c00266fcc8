import MeteredUsage.Gateway.Rounds

/-! Resets are not spent twice on one grant list. Between two consume calls for an account a provider
listed its grants again, the list was stored and counted, and what was stored was cleared. -/

namespace MeteredUsage.Gateway.Respent
open MeteredUsage.Values MeteredUsage.Store MeteredUsage.Store.Schema MeteredUsage.Store.Credentials
open MeteredUsage.Store.Quota MeteredUsage.Store.Snapshots MeteredUsage.Store.Validity
open MeteredUsage.Store.Commands MeteredUsage.Store.Registered
open MeteredUsage.Library.Interaction MeteredUsage.Library.Execution
open MeteredUsage.Gateway.Adapters MeteredUsage.Gateway.Requests MeteredUsage.Gateway.Reported
open MeteredUsage.Gateway.Rounds
open MeteredUsage.Gateway.Spending (Config Target indexOf unexpiredCount isOpen stays_open answered_of_listed)

/-- A consume call for the account. -/
def isSpent (accountId : AccountId) : Logged → Bool
  | .spent target _ _ => target.accountId = accountId
  | _ => false

/-- What was logged since the last consume call for the account. -/
def since (accountId : AccountId) (log : List Logged) : List Logged :=
  log.takeWhile fun entry => !isSpent accountId entry

/-- A consume call went out for the account. -/
def SpentBefore (accountId : AccountId) (log : List Logged) : Prop :=
  ∃ entry ∈ log, isSpent accountId entry = true

variable (runtime : Sql.Runtime) (reading : Reading)

/-- A credential of the account was told of grants that were left at the instant. -/
structure Renews (accountId : AccountId) (now : Timestamp) (grants : List Grant) (credential : Target)
    (reply : Reply Answer) : Prop where
  own : credential.accountId = accountId
  lists : Lists runtime reading (indexOf credential.file) reply grants
  left : ∃ grant ∈ grants, 0 < grant.remaining ∧ isUnexpired now grant = true

/-- Grants that were read, stored and counted. -/
def recount (accountId : AccountId) (now : Timestamp) (grants : List Grant) (credential : Target)
    (reply : Reply Answer) : List Logged :=
  [.counted accountId now, .stored accountId grants, .told credential reply]

/-- Such grants were read, stored and counted, in this order, and then what is above happened. -/
def Recounted (accountId : AccountId) (above log : List Logged) : Prop :=
  ∃ now grants credential reply, Renews runtime reading accountId now grants credential reply ∧
    (above ++ recount accountId now grants credential reply).Sublist log

/-- The grants stored of an account a reset was spent of are some that were read since. -/
def Fresh (tables : Tables) (log : List Logged) : Prop :=
  ∀ credit ∈ tables.credits, SpentBefore credit.accountId log → ∃ grants credential reply,
    credential.accountId = credit.accountId ∧ Lists runtime reading (indexOf credential.file) reply grants ∧
    (∀ grant ∈ grants, 0 < grant.remaining) ∧ credit.grant ∈ grants ∧
    [.stored credit.accountId grants, .told credential reply].Sublist (since credit.accountId log)

/-- What came before a consume call of the target. -/
structure Sent (target : Target) (question : Question) (left : List Credit) (earlier : List Logged) : Prop where
  consumes : Consumes (indexOf target.file) question
  cleared : left = []
  recounted : SpentBefore target.accountId earlier →
    Recounted runtime reading target.accountId [.cleared target.accountId] (since target.accountId earlier)

def History (log : List Logged) : Prop :=
  ∀ later target question left earlier, log = later ++ .spent target question left :: earlier →
    Sent runtime reading target question left earlier

/-- A fetch goes on as its adapter does, and what it was told is logged since the last consume call. -/
structure Heard (under : Fetching) (log : List Logged) : Prop where
  sound : under.course.Sound (fun _ => Own under.target.provider (indexOf under.target.file))
    (fun told => orFailed fun observation =>
      Reports runtime reading (indexOf under.target.file) told observation ∧ Left observation)
  told : ∀ reply ∈ under.course.told, .told under.target reply ∈ since under.target.accountId log

/-- What is known of the holder of the lock. -/
def Holding (tables : Tables) (log : List Logged) : Work → Prop
  | .idle | .listing _ _ | .chosen _ => True
  | .refreshing round => ∀ under ∈ round.running, Heard runtime reading under log
  | .counted target => SpentBefore target.accountId log →
    Recounted runtime reading target.accountId [] (since target.accountId log)
  | .consuming target course =>
    course.Sound (fun told question => told = [] ∧ Consumes (indexOf target.file) question)
        (fun _ => orFailed fun _ => True) ∧
      creditsOf tables target.accountId = [] ∧
      (course.isOut = false → course.told = [] → SpentBefore target.accountId log →
        Recounted runtime reading target.accountId [.cleared target.accountId] (since target.accountId log))
  | .following under => Heard runtime reading under log

structure Held (service : Service) : Prop where
  valid : Valid False service.tables
  fresh : Fresh runtime reading service.tables service.log
  history : History runtime reading service.log
  holding : Holding runtime reading service.tables service.log service.work

variable {runtime reading} {config : Config} {service after : Service} {tables next : Tables}
  {log : List Logged} {accountId : AccountId} {entry : Logged}

theorem since_cons (quiet : isSpent accountId entry = false) :
    since accountId (entry :: log) = entry :: since accountId log := by
  simp [since, quiet]

theorem spentBefore_cons (quiet : isSpent accountId entry = false) :
    SpentBefore accountId (entry :: log) ↔ SpentBefore accountId log := by
  simp [SpentBefore, quiet]

/-- A condition on what was logged since the last consume call outlives other entries. -/
theorem recounted_cons {above : List Logged} (quiet : isSpent accountId entry = false)
    (recounted : SpentBefore accountId log → Recounted runtime reading accountId above (since accountId log))
    (before : SpentBefore accountId (entry :: log)) :
    Recounted runtime reading accountId above (since accountId (entry :: log)) := by
  obtain ⟨now, grants, credential, reply, renews, logged⟩ := recounted ((spentBefore_cons quiet).mp before)
  rw [since_cons quiet]
  exact ⟨now, grants, credential, reply, renews, logged.cons _⟩

theorem Fresh.cons (fresh : Fresh runtime reading tables log)
    (quiet : ∀ credit ∈ tables.credits, isSpent credit.accountId entry = false) :
    Fresh runtime reading tables (entry :: log) := by
  intro credit member before
  rw [spentBefore_cons (quiet credit member)] at before
  obtain ⟨grants, credential, reply, own, lists, left, listed, logged⟩ := fresh credit member before
  rw [since_cons (quiet credit member)]
  exact ⟨grants, credential, reply, own, lists, left, listed, logged.cons _⟩

theorem Fresh.fewer (fresh : Fresh runtime reading tables log)
    (fewer : ∀ credit ∈ next.credits, credit ∈ tables.credits) : Fresh runtime reading next log :=
  fun credit member => fresh credit (fewer credit member)

theorem History.cons (history : History runtime reading log) (quiet : ∀ id, isSpent id entry = false) :
    History runtime reading (entry :: log) := by
  intro later target question left earlier same
  rcases later with _ | ⟨first, later⟩
  · obtain ⟨rfl, rfl⟩ := List.cons.inj same
    simpa [isSpent] using quiet target.accountId
  · exact history later target question left earlier (List.cons.inj same).2

theorem History.spent (history : History runtime reading log) {target : Target} {question : Question}
    {left : List Credit} (sent : Sent runtime reading target question left log) :
    History runtime reading (.spent target question left :: log) := by
  intro later other asked kept earlier same
  rcases later with _ | ⟨first, later⟩
  · obtain ⟨head, rfl⟩ := List.cons.inj same
    cases head
    exact sent
  · exact history later other asked kept earlier (List.cons.inj same).2

theorem Heard.cons {under : Fetching} (heard : Heard runtime reading under log)
    (quiet : isSpent under.target.accountId entry = false) : Heard runtime reading under (entry :: log) where
  sound := heard.sound
  told reply member := by
    rw [since_cons quiet]
    exact List.mem_cons_of_mem _ (heard.told reply member)

theorem heard_fetching (target : Target) : Heard runtime reading (fetching runtime reading target) log where
  sound := fetch_tells target.provider target.file (indexOf target.file)
  told _ member := absurd member List.not_mem_nil

theorem Heard.send {under : Fetching} {question : Question} {course : Course Answer _}
    (heard : Heard runtime reading under log) (sent : under.course.send = some (question, course)) :
    Heard runtime reading ⟨under.target, course⟩ log := by
  obtain ⟨_, sound, told, _⟩ := Course.sound_send heard.sound sent
  exact ⟨sound, fun reply member => heard.told reply (told ▸ member)⟩

theorem Heard.hear {under : Fetching} {answers : ∀ question, Answer question} {reply : Reply Answer}
    {course : Course Answer _} (heard : Heard runtime reading under log)
    (answered : under.course.hear answers = some (reply, course)) :
    Heard runtime reading ⟨under.target, course⟩ (.told under.target reply :: log) := by
  obtain ⟨sound, told⟩ := Course.sound_hear heard.sound answered
  refine ⟨sound, fun other member => ?_⟩
  rw [told] at member
  rw [since_cons rfl]
  rcases List.mem_cons.mp member with rfl | earlier
  · exact List.mem_cons_self
  · exact List.mem_cons_of_mem _ (heard.told other earlier)

theorem Holding.cons {work : Work} (holding : Holding runtime reading tables log work)
    (quiet : ∀ id, isSpent id entry = false) : Holding runtime reading tables (entry :: log) work := by
  cases work with
  | idle | listing | chosen => trivial
  | refreshing round => exact fun under member => (holding under member).cons (quiet _)
  | counted target => exact recounted_cons (quiet _) holding
  | consuming target course =>
    obtain ⟨sound, cleared, recounted⟩ := holding
    exact ⟨sound, cleared, fun waits told => recounted_cons (quiet _) (recounted waits told)⟩
  | following under => exact Heard.cons holding (quiet _)

theorem Holding.credits {work : Work} (holding : Holding runtime reading tables log work)
    (credits : next.credits = tables.credits) : Holding runtime reading next log work := by
  cases work with
  | consuming target course =>
    obtain ⟨sound, cleared, recounted⟩ := holding
    exact ⟨sound, by rwa [creditsOf, credits], recounted⟩
  | _ => exact holding

/-- A write beside the lock leaves all of it. -/
theorem Held.stays (held : Held runtime reading service) {move : AccountId → AccountId}
    (stays : Stays False move service.tables next) : Held runtime reading { service with tables := next } where
  valid := stays.valid
  fresh := held.fresh.fewer fun _ member => stays.credits ▸ member
  history := held.history
  holding := held.holding.credits stays.credits

/-- The holder of the lock goes on, and something other than a consume call is logged. -/
theorem Held.goes (held : Held runtime reading service) (quiet : ∀ id, isSpent id entry = false) {work : Work}
    (holding : Holding runtime reading service.tables (entry :: service.log) work) :
    Held runtime reading { service with log := entry :: service.log, work := work } where
  valid := held.valid
  fresh := held.fresh.cons fun credit _ => quiet credit.accountId
  history := held.history.cons quiet
  holding := holding

theorem Held.under (held : Held runtime reading service) {work : Work}
    (holding : Holding runtime reading service.tables service.log work) :
    Held runtime reading { service with work := work } := ⟨held.valid, held.fresh, held.history, holding⟩

/-- What a fetch reported is stored as read since the last consume call. -/
theorem Held.recorded (held : Held runtime reading service) {under : Fetching}
    {result : Except RefreshError Observation} {refreshedAt : Timestamp} {world : World}
    (heard : Heard runtime reading under service.log) (came : under.course.value = some result)
    (taken : Rounds.recorded runtime service under.target result refreshedAt world = some after) :
    Valid False after.tables ∧ Fresh runtime reading after.tables after.log ∧
      History runtime reading after.log ∧
      ∀ other, Heard runtime reading other service.log → Heard runtime reading other after.log := by
  obtain ⟨valid, _, _, _, ⟨grants, stored, logged, credits⟩ | ⟨logged, fewer⟩⟩ :=
    recorded_eq held.valid taken
  · have quiet (id : AccountId) : isSpent id (.stored under.target.accountId grants) = false := rfl
    rw [logged]
    refine ⟨valid, fun credit member before => ?_, held.history.cons quiet, fun other kept => kept.cons (quiet _)⟩
    rw [credits, List.mem_append] at member
    rcases member with earlier | read
    · exact (held.fresh.cons fun _ _ => quiet _) credit (List.mem_filter.mp earlier).1 before
    · obtain ⟨grant, listed, rfl⟩ := List.mem_map.mp read
      have ends := Course.sound_value heard.sound came
      cases result with
      | error failure => cases stored
      | ok observation =>
        obtain ⟨reports, left⟩ := ends
        have reported : observation.manualResets = .reported grants := by
          obtain ⟨windows, plan, resets⟩ := observation
          cases resets <;> cases stored
          rfl
        obtain ⟨reply, member, lists⟩ := reports grants reported
        refine ⟨grants, under.target, reply, rfl, lists, left grants reported, listed, ?_⟩
        rw [since_cons (quiet _)]
        exact (List.singleton_sublist.mpr (heard.told reply member)).cons_cons _
  · rw [logged]
    exact ⟨valid, held.fresh.fewer fewer, held.history, fun other kept => kept⟩

/-- A count that is not zero counted a grant that has not expired. -/
theorem counted_unexpired {now : Timestamp} (left : unexpiredCount tables accountId now ≠ 0) :
    ∃ credit ∈ tables.credits, credit.accountId = accountId ∧ isUnexpired now credit.grant = true := by
  by_contra none_left
  apply left
  have empty : (tables.credits.filter fun credit => credit.accountId = accountId &&
      credit.grant.expiresAt.all fun expiresAt => decide (now < expiresAt)) = [] := by
    apply List.filter_eq_nil_iff.mpr
    intro credit member counted
    rw [Bool.and_eq_true, decide_eq_true_eq] at counted
    exact none_left ⟨credit, member, counted⟩
  rw [unexpiredCount, empty]
  rfl

/-- A count finds what was read since the last consume call. -/
theorem held_count (held : Held runtime reading service) {target : Target} {now : Timestamp} :
    Held runtime reading { service with
      log := .counted target.accountId now :: service.log
      work := if unexpiredCount service.tables target.accountId now = 0 then .idle else .counted target } := by
  apply held.goes fun _ => rfl
  split
  next => trivial
  next left =>
    intro before
    rw [spentBefore_cons rfl] at before
    obtain ⟨credit, member, own, unexpired⟩ := counted_unexpired left
    rw [← own] at before
    obtain ⟨grants, credential, reply, same, lists, positive, listed, logged⟩ := held.fresh credit member before
    rw [since_cons rfl, ← own]
    exact ⟨now, grants, credential, reply, ⟨same, lists, credit.grant, listed, positive _ listed, unexpired⟩,
      logged.cons_cons _⟩

/-- What is stored of the account is cleared before anything is sent. -/
theorem held_clear (held : Held runtime reading service) {target : Target} {redeemRequest : String}
    {world : World} (under : service.work = .counted target)
    (taken : Commands.step runtime service.tables (.clear target.accountId, world) = some next) :
    Held runtime reading { service with
      tables := next
      log := .cleared target.accountId :: service.log
      work := .consuming target
        (.start (reset runtime target.provider redeemRequest (indexOf target.file)).run) } := by
  obtain ⟨_, cleared⟩ := performed_holds Registered.holds_clear rfl (step_iff.mp taken)
  have fewer : ∀ credit ∈ next.credits, credit ∈ service.tables.credits := fun credit member =>
    (cleared.credits credit member).1
  refine ⟨Merged.valid_step held.valid False.elim taken, (held.fresh.fewer fewer).cons fun _ _ => rfl,
    held.history.cons fun _ => rfl, reset_tells _ _ _, ?_, fun _ _ before => ?_⟩
  · apply List.filter_eq_nil_iff.mpr
    intro credit member own
    exact (cleared.credits credit member).2 (of_decide_eq_true own)
  · have holding := held.holding
    rw [under] at holding
    obtain ⟨now, grants, credential, reply, renews, logged⟩ := holding ((spentBefore_cons rfl).mp before)
    rw [since_cons rfl]
    exact ⟨now, grants, credential, reply, renews, logged.cons_cons _⟩

/-- Nothing is stored of an account whose reset is being spent. -/
theorem held_consume (held : Held runtime reading service) {target : Target}
    {course later : Course Answer (Except RefreshError Unit)} {question : Question}
    (under : service.work = .consuming target course) (sent : course.send = some (question, later)) :
    Held runtime reading { service with
      log := .spent target question (creditsOf service.tables target.accountId) :: service.log
      work := .consuming target later } := by
  have holding := held.holding
  rw [under] at holding
  obtain ⟨sound, cleared, recounted⟩ := holding
  obtain ⟨⟨first, consumes⟩, sound, _, waits, out⟩ := Course.sound_send sound sent
  have none_stored : ∀ credit ∈ service.tables.credits, credit.accountId ≠ target.accountId := by
    intro credit member own
    exact List.filter_eq_nil_iff.mp cleared credit member (decide_eq_true own)
  refine ⟨held.valid, held.fresh.cons fun credit member => ?_,
    held.history.spent ⟨consumes, cleared, recounted waits first⟩, sound, cleared, fun waiting => ?_⟩
  · exact decide_eq_false fun same => none_stored credit member same.symm
  · rw [out] at waiting
    cases waiting

theorem held_confirm (held : Held runtime reading service) {target : Target}
    {course later : Course Answer (Except RefreshError Unit)} {answers : ∀ question, Answer question}
    {reply : Reply Answer} (under : service.work = .consuming target course)
    (heard : course.hear answers = some (reply, later)) :
    Held runtime reading { service with
      log := .told target reply :: service.log, work := .consuming target later } := by
  have holding := held.holding
  rw [under] at holding
  obtain ⟨sound, cleared, _⟩ := holding
  obtain ⟨sound, told⟩ := Course.sound_hear sound heard
  apply held.goes fun _ => rfl
  refine ⟨sound, cleared, fun _ nothing => ?_⟩
  rw [told] at nothing
  cases nothing

/-- What holds of the fetches of a refresh whose work is known. -/
theorem Held.fetches (held : Held runtime reading service) {round : Round}
    (under : service.work = .refreshing round) :
    ∀ fetching ∈ round.running, Heard runtime reading fetching service.log := by
  have holding := held.holding
  rwa [under] at holding

theorem held_list {listing : AuthFiles} {shared : AccountId → Bool} {world : World}
    (held : Held runtime reading service)
    (taken : Rounds.step config runtime reading service (.list listing shared world) = some after) :
    Held runtime reading after := by
  obtain ⟨only, automatic, source, rest, stored, next, under, answer, rfl⟩ := step_list taken
  have answered := answered_of_listed held.valid answer
  exact (held.stays answered.stays).goes (fun _ => rfl) fun under member => absurd member List.not_mem_nil

/-- The fetches of a refresh go on one by one. -/
theorem held_begin (held : Held runtime reading service)
    (taken : Rounds.step config runtime reading service .begin = some after) :
    Held runtime reading after := by
  obtain ⟨only, automatic, rest, target, waiting, running, under, rfl⟩ := step_begin taken
  apply held.under
  intro fetching member
  rcases List.mem_append.mp member with earlier | new
  · exact held.fetches under fetching earlier
  · rw [List.mem_singleton.mp new]
    exact heard_fetching target

theorem held_ask {index : Nat} (held : Held runtime reading service)
    (taken : Rounds.step config runtime reading service (.ask index) = some after) :
    Held runtime reading after := by
  obtain ⟨round, fetching, question, course, under, running, sent, rfl⟩ := step_ask taken
  apply held.goes fun _ => rfl
  intro other member
  rcases List.mem_or_eq_of_mem_set member with kept | rfl
  · exact (held.fetches under other kept).cons rfl
  · exact ((held.fetches under fetching running).send sent).cons rfl

theorem held_hear {index : Nat} {answers : ∀ question, Answer question} (held : Held runtime reading service)
    (taken : Rounds.step config runtime reading service (.hear index answers) = some after) :
    Held runtime reading after := by
  obtain ⟨round, fetching, reply, course, under, running, heard, rfl⟩ := step_hear taken
  apply held.goes fun _ => rfl
  intro other member
  rcases List.mem_or_eq_of_mem_set member with kept | rfl
  · exact (held.fetches under other kept).cons rfl
  · exact (held.fetches under fetching running).hear heard

theorem held_record {index : Nat} {refreshedAt : Timestamp} {world : World} (held : Held runtime reading service)
    (taken : Rounds.step config runtime reading service (.record index refreshedAt world) = some after) :
    Held runtime reading after := by
  obtain ⟨round, fetching, result, middle, under, running, came, recorded, rfl⟩ := step_record taken
  obtain ⟨valid, fresh, history, kept⟩ := held.recorded (held.fetches under fetching running) came recorded
  exact ⟨valid, fresh, history, fun other member =>
    kept other (held.fetches under other (List.mem_of_mem_eraseIdx member))⟩

/-- A spend goes from its list to its consume call. -/
theorem held_spend {accountId : AccountId} (held : Held runtime reading service)
    (taken : Rounds.step config runtime reading service (.spend accountId) = some after) :
    Held runtime reading after := by
  simp only [Rounds.step] at taken
  split at taken
  next =>
    obtain ⟨account, _, taken⟩ := Option.bind_eq_some_iff.mp taken
    obtain ⟨source, _, same⟩ := Option.bind_eq_some_iff.mp taken
    obtain rfl := (Option.some.inj same).symm
    exact held.under trivial
  next => cases taken

theorem held_choose {listing : AuthFiles} {world : World} (held : Held runtime reading service)
    (taken : Rounds.step config runtime reading service (.choose listing world) = some after) :
    Held runtime reading after := by
  simp only [Rounds.step] at taken
  split at taken
  next accountId source under =>
    obtain ⟨⟨stored, next⟩, answer, rfl⟩ := Option.map_eq_some_iff.mp taken
    have answered := answered_of_listed held.valid answer
    apply (held.stays answered.stays).goes fun _ => rfl
    split <;> trivial
  next => cases taken

theorem held_counted {now : Timestamp} (held : Held runtime reading service)
    (taken : Rounds.step config runtime reading service (.count now) = some after) :
    Held runtime reading after := by
  simp only [Rounds.step] at taken
  split at taken
  next target under =>
    obtain rfl := Option.some.inj taken
    exact held_count held
  next => cases taken

theorem held_cleared {redeemRequest : String} {world : World} (held : Held runtime reading service)
    (taken : Rounds.step config runtime reading service (.clear redeemRequest world) = some after) :
    Held runtime reading after := by
  simp only [Rounds.step] at taken
  split at taken
  next target under =>
    obtain ⟨next, cleared, rfl⟩ := Option.map_eq_some_iff.mp taken
    exact held_clear held under cleared
  next => cases taken

theorem held_consumed (held : Held runtime reading service)
    (taken : Rounds.step config runtime reading service .consume = some after) :
    Held runtime reading after := by
  simp only [Rounds.step] at taken
  split at taken
  next target course under =>
    obtain ⟨⟨question, later⟩, sent, rfl⟩ := Option.map_eq_some_iff.mp taken
    exact held_consume held under sent
  next => cases taken

theorem held_confirmed {answers : ∀ question, Answer question} (held : Held runtime reading service)
    (taken : Rounds.step config runtime reading service (.confirm answers) = some after) :
    Held runtime reading after := by
  simp only [Rounds.step] at taken
  split at taken
  next target course under =>
    obtain ⟨⟨reply, later⟩, heard, rfl⟩ := Option.map_eq_some_iff.mp taken
    exact held_confirm held under heard
  next => cases taken

theorem Held.follows (held : Held runtime reading service) {fetching : Fetching}
    (under : service.work = .following fetching) : Heard runtime reading fetching service.log := by
  have holding := held.holding
  rwa [under] at holding

/-- What follows a consume call is a fetch, which is recorded. -/
theorem held_cool {outcome : Except ManagementError Unit} (held : Held runtime reading service)
    (taken : Rounds.step config runtime reading service (.cool outcome) = some after) :
    Held runtime reading after := by
  simp only [Rounds.step] at taken
  split at taken
  next target course under =>
    split at taken
    next =>
      obtain rfl := Option.some.inj taken
      apply held.under
      cases outcome with
      | ok confirmed => exact heard_fetching target
      | error failure => exact ⟨trivial, fun _ member => absurd member List.not_mem_nil⟩
    next => cases taken
  next => cases taken

theorem held_askAfter (held : Held runtime reading service)
    (taken : Rounds.step config runtime reading service .askAfter = some after) :
    Held runtime reading after := by
  simp only [Rounds.step] at taken
  split at taken
  next fetching under =>
    obtain ⟨⟨question, course⟩, sent, rfl⟩ := Option.map_eq_some_iff.mp taken
    exact held.goes (fun _ => rfl) (((held.follows under).send sent).cons rfl)
  next => cases taken

theorem held_hearAfter {answers : ∀ question, Answer question} (held : Held runtime reading service)
    (taken : Rounds.step config runtime reading service (.hearAfter answers) = some after) :
    Held runtime reading after := by
  simp only [Rounds.step] at taken
  split at taken
  next fetching under =>
    obtain ⟨⟨reply, course⟩, answered, rfl⟩ := Option.map_eq_some_iff.mp taken
    exact held.goes (fun _ => rfl) ((held.follows under).hear answered)
  next => cases taken

theorem held_recordAfter {refreshedAt : Timestamp} {world : World} (held : Held runtime reading service)
    (taken : Rounds.step config runtime reading service (.recordAfter refreshedAt world) = some after) :
    Held runtime reading after := by
  simp only [Rounds.step] at taken
  split at taken
  next fetching under =>
    obtain ⟨result, came, taken⟩ := Option.bind_eq_some_iff.mp taken
    obtain ⟨middle, recorded, same⟩ := Option.bind_eq_some_iff.mp taken
    obtain rfl := (Option.some.inj same).symm
    obtain ⟨valid, fresh, history, _⟩ := held.recorded (held.follows under) came recorded
    exact ⟨valid, fresh, history, trivial⟩
  next => cases taken

theorem held_step {event : Event} (held : Held runtime reading service)
    (taken : Rounds.step config runtime reading service event = some after) :
    Held runtime reading after := by
  cases event with
  | write command world =>
    obtain ⟨admitted, taken⟩ := Option.ite_none_right_eq_some.mp taken
    obtain ⟨next, ran, rfl⟩ := Option.map_eq_some_iff.mp taken
    obtain ⟨move, stays⟩ := stays_beside held.valid admitted ran
    exact held.stays stays
  | recover accountId now world =>
    have stays := @stays_recover runtime _ held.valid accountId now world
    obtain ⟨next, rfl, rfl | rfl⟩ := step_recover taken
    · have quiet (id : AccountId) : isSpent id (.due accountId) = false := rfl
      have later := (held.stays stays).goes quiet ((held.stays stays).holding.cons quiet)
      exact ⟨later.valid, later.fresh, later.history, later.holding⟩
    · exact held.stays stays
  | refresh only automatic =>
    obtain ⟨_, source, rfl⟩ := step_refresh taken
    exact held.under fun fetching member => absurd member List.not_mem_nil
  | list listing shared world => exact held_list held taken
  | unreachable =>
    obtain ⟨automatic, source, rest, under, rfl⟩ := step_unreachable taken
    exact held.under fun fetching member => absurd member List.not_mem_nil
  | stop =>
    obtain rfl := Option.some.inj taken
    exact held.under trivial
  | begin => exact held_begin held taken
  | ask index => exact held_ask held taken
  | hear index answers => exact held_hear held taken
  | record index refreshedAt world => exact held_record held taken
  | spend accountId => exact held_spend held taken
  | choose listing world => exact held_choose held taken
  | count now => exact held_counted held taken
  | clear redeemRequest world => exact held_cleared held taken
  | consume => exact held_consumed held taken
  | confirm answers => exact held_confirmed held taken
  | cool outcome => exact held_cool held taken
  | askAfter => exact held_askAfter held taken
  | hearAfter answers => exact held_hearAfter held taken
  | recordAfter refreshedAt world => exact held_recordAfter held taken

theorem held_start {base : Tables} (valid : Valid False base) : Held runtime reading (.start base) where
  valid := valid
  fresh _ _ before := by
    obtain ⟨entry, member, _⟩ := before
    cases member
  history later target question left earlier same := by simp [Service.start] at same
  holding := trivial

/-- What was logged since the last consume call lies above any of them. -/
theorem since_sublist {between earlier : List Logged} (spent : isSpent accountId entry = true) :
    (since accountId (between ++ entry :: earlier)).Sublist between := by
  induction between with
  | nil => simp [since, spent]
  | cons first rest ih =>
    cases found : isSpent accountId first with
    | true => simp [since, found]
    | false =>
      rw [List.cons_append, since_cons found]
      exact ih.cons_cons first

/-- In every run, whatever is answered and wherever a task dies: a consume call is the credential's own,
nothing is stored of its account's grants when it goes out, and between it and an earlier one for the
account a provider's grant list was read and stored, found to hold an unexpired reset, and cleared. -/
theorem no_list_is_spent_twice (runtime : Sql.Runtime) (reading : Reading) (config : Config) {base : Tables}
    (valid : Valid False base) {events : List Event} {finish : Service}
    (ran : run (Rounds.step config runtime reading) (.start base) events = some finish)
    {later earlier : List Logged} {target : Target} {question : Question} {left : List Credit}
    (sent : finish.log = later ++ .spent target question left :: earlier) :
    Consumes (indexOf target.file) question ∧ left = [] ∧
      ∀ between previous asked remained before, previous.accountId = target.accountId →
        earlier = between ++ .spent previous asked remained :: before →
        ∃ now grants credential reply,
          Renews runtime reading target.accountId now grants credential reply ∧
          [.cleared target.accountId, .counted target.accountId now, .stored target.accountId grants,
            .told credential reply].Sublist between := by
  have held : Held runtime reading finish :=
    invariant_run_free (fun _ _ _ => held_step) (held_start valid) ran
  have sent := held.history later target question left earlier sent
  refine ⟨sent.consumes, sent.cleared, fun between previous asked remained before own same => ?_⟩
  have spent : isSpent target.accountId (.spent previous asked remained) = true := decide_eq_true own
  have known : SpentBefore target.accountId earlier :=
    ⟨_, same ▸ List.mem_append_right _ List.mem_cons_self, spent⟩
  obtain ⟨now, grants, credential, reply, renews, logged⟩ := sent.recounted known
  rw [same] at logged
  exact ⟨now, grants, credential, reply, renews, logged.trans (since_sublist spent)⟩

/-- Reads every date as one instant. -/
def undated : Reading := { ResetGrants.readsNothing with instant := fun _ => some 100 }

/-- One available reset. -/
def oneReset : Json := .object [("credits", .array [.object [("reset_type", .string Codex.rateLimitReset),
  ("status", .string "available"), ("expires_at", .string "later")]])]

/-- Reads an address as what the provider says there. -/
def confirming : Sql.Runtime := { Sql.Runtime.inert with
  parseJson := fun text => some (if text = Codex.consumeUrl then .object [("code", .string "reset")]
    else if text = Codex.resetCreditsUrl then oneReset else .object []) }

def refreshedAll : List Event :=
  [.refresh none false, .list (Spending.codexList 1 ["a"]) (fun _ => false) (.calm 0 (· + 1)), .begin,
    .ask 0, .hear 0 ResetGrants.echoed, .ask 0, .hear 0 ResetGrants.echoed, .ask 0, .hear 0 ResetGrants.echoed,
    .record 0 2 (.calm 0 (· + 10)), .stop]

/-- A spend whose task dies once the account is read again. -/
def spentAndRead (ids : Nat) : List Event :=
  [.spend 1, .choose (Spending.codexList 3 ["a"]) (.calm 0 (· + ids)), .count 4, .clear "redeem" (.calm 0 (· + ids)),
    .consume, .confirm ResetGrants.echoed, .cool (.ok ()), .askAfter, .hearAfter ResetGrants.echoed, .askAfter,
    .hearAfter ResetGrants.echoed, .askAfter, .hearAfter ResetGrants.echoed, .recordAfter 5 (.calm 0 (· + ids)), .stop]

/-- Two consume calls of one account, the later one first. -/
def twoSpent (log : List Logged) : Bool :=
  match log.drop 8 with
  | .spent target _ _ :: earlier =>
    match earlier.drop 11 with
    | .spent previous _ _ :: _ => previous.accountId = target.accountId
    | _ => false
  | _ => false

theorem a_second_reset_is_spent : ∃ finish later target question left between previous asked remained before,
    run (Rounds.step Spending.gateway confirming undated) (.start Listings.gatewayOnly)
        (refreshedAll ++ spentAndRead 20 ++ spentAndRead 40) = some finish ∧
      finish.log = later ++ .spent target question left ::
        (between ++ .spent previous asked remained :: before) ∧ left = [] ∧
      ∃ now grants credential reply,
        Renews confirming undated target.accountId now grants credential reply ∧
        [.cleared target.accountId, .counted target.accountId now, .stored target.accountId grants,
          .told credential reply].Sublist between := by
  have ran : ((run (Rounds.step Spending.gateway confirming undated) (.start Listings.gatewayOnly)
      (refreshedAll ++ spentAndRead 20 ++ spentAndRead 40)).any fun finish => twoSpent finish.log) = true := by
    decide +kernel
  obtain ⟨finish, reached, spent⟩ := (Option.any_eq_true _ _).mp ran
  unfold twoSpent at spent
  split at spent
  next target question left earlier above =>
    split at spent
    next previous asked remained before below =>
      have first : finish.log = finish.log.take 8 ++ .spent target question left :: earlier := by
        rw [← above, List.take_append_drop]
      have second : earlier = earlier.take 11 ++ .spent previous asked remained :: before := by
        rw [← below, List.take_append_drop]
      obtain ⟨_, cleared, renewed⟩ := no_list_is_spent_twice confirming undated Spending.gateway
        Listings.valid_gatewayOnly reached first
      exact ⟨finish, finish.log.take 8, target, question, left, earlier.take 11, previous, asked, remained, before,
        reached, second ▸ first, cleared, renewed _ _ _ _ _ (of_decide_eq_true spent) second⟩
    next => cases spent
  next => cases spent

end MeteredUsage.Gateway.Respent

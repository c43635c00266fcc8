import MeteredUsage.Codec
import MeteredUsage.QuotaActions.Store

/-! An observation another person's action already obtained, and the two comparisons that choose
it: when the action finished, and whether the account was refreshed after it was requested. Both
compare the texts `Timestamp::to_string` writes. -/

namespace MeteredUsage.QuotaActions.Reuse
open MeteredUsage.Values MeteredUsage.Codec MeteredUsage.QuotaActions.Store

variable (platform : Platform)

/-- `finished_at >= ?`, bound to a minute before the request. -/
def isRecent (requestedAt : Timestamp) (action : QuotaAction) : Bool :=
  action.finishedAt.any fun finished => platform.display (requestedAt - reuseFor) ≤ finished

/-- `json_extract(a.value, '$.hard_refreshed_at') >= requested_at`. -/
def isRefreshed (action : QuotaAction) (entry : ListedAccount) : Bool :=
  entry.hardRefreshedAt.any fun refreshed => action.requestedAt ≤ refreshed

/-- The accounts an action's answer lists. -/
def listedBy (action : QuotaAction) : List ListedAccount :=
  ((action.afterState.or action.responseBody).map platform.listed).getD []

/-- Whether `Reuse::recent` may answer with the entry of the action. -/
def offers (store : Actions) (kind : ActionKind) (accountId : String) (requestedAt : Timestamp)
    (action : QuotaAction) (entry : ListedAccount) : Bool :=
  action.shared && action.responseStatus.isSome && isRecent platform requestedAt action &&
    (action.kind = kind || kind = .hardRefresh && action.kind = .quotaReset) &&
    entry.accountId = some accountId && (kind ≠ .cooldownReset || entry.disabled = some false) &&
    (kind ≠ .hardRefresh || isRefreshed action entry && !store.actions.any fun newer =>
      newer.kind = .quotaReset && newer.accountId = some accountId &&
        action.actionId < newer.actionId)

/-- `Reuse::recent`: the latest action with an entry to answer with. -/
def recent (store : Actions) (kind : ActionKind) (accountId : String) (requestedAt : Timestamp) :
    Option QuotaAction :=
  store.newest fun action =>
    (listedBy platform action).any (offers platform store kind accountId requestedAt action)

variable {platform} {store : Actions} {kind : ActionKind} {action : QuotaAction}

/-- A claim's `saved` query compares when the action finished as `recent` does. -/
theorem shareable_iff {accountId sourceId : Option String} {requestedAt : Timestamp} :
    store.shareable platform kind accountId sourceId (platform.display (requestedAt - reuseFor)) action =
      true ↔ (∃ since, store.shareable platform kind accountId sourceId since action = true) ∧
        isRecent platform requestedAt action = true := by
  unfold Actions.shareable isRecent
  constructor
  · intro selected
    have parts := Bool.and_eq_true_iff.mp selected
    exact ⟨⟨_, selected⟩, parts.2⟩
  · rintro ⟨⟨since, selected⟩, finished⟩
    have parts := Bool.and_eq_true_iff.mp selected
    exact Bool.and_eq_true_iff.mpr ⟨parts.1, finished⟩

/-- An answer covers an account through an entry refreshed after the action was requested. -/
theorem covers_hardRefresh_iff {accountId : String} :
    action.covers platform .hardRefresh accountId = true ↔
      ∃ entry ∈ listedBy platform action, entry.accountId = some accountId ∧
        isRefreshed action entry = true := by
  unfold QuotaAction.covers listedBy isRefreshed
  simp

/-- The texts of a row and of one entry of its answer are those of these instants. -/
structure Dated (action : QuotaAction) (entry : ListedAccount)
    (requested finished refreshed : Timestamp) : Prop where
  requestedAt : action.requestedAt = display requested
  finishedAt : action.finishedAt = some (display finished)
  hardRefreshedAt : entry.hardRefreshedAt = some (display refreshed)

/-- Both comparisons decide as the instants do. -/
def DecidesByInstants (platform : Platform) (requestedAt : Timestamp) (action : QuotaAction)
    (entry : ListedAccount) (requested finished refreshed : Timestamp) : Prop :=
  (isRecent platform requestedAt action = true ↔ requestedAt - reuseFor ≤ finished) ∧
    (isRefreshed action entry = true ↔ requested ≤ refreshed)

section Instants
variable {requestedAt requested finished : Timestamp}

theorem isRecent_iff (printed : platform.display = display) (stored : action.finishedAt = some (display finished))
    (since : Representable (requestedAt - reuseFor)) (ended : Representable finished) :
    (isRecent platform requestedAt action = true ↔ requestedAt - reuseFor ≤ finished) ↔
      ¬Crossed (requestedAt - reuseFor) finished := by
  unfold isRecent
  rw [stored, printed, Option.any_some, decide_eq_true_iff, display_le_iff since ended]

theorem isRefreshed_iff {entry : ListedAccount} {refreshed : Timestamp}
    (stored : action.requestedAt = display requested) (listed : entry.hardRefreshedAt = some (display refreshed))
    (asked : Representable requested) (read : Representable refreshed) :
    (isRefreshed action entry = true ↔ requested ≤ refreshed) ↔ ¬Crossed requested refreshed := by
  unfold isRefreshed
  rw [stored, listed, Option.any_some, decide_eq_true_iff, display_le_iff asked read]

/-- A row is chosen by its texts as by its instants exactly where neither pair is crossed. -/
theorem decides_by_instants_iff {entry : ListedAccount}
    {requestedAt requested finished refreshed : Timestamp} (printed : platform.display = display)
    (dated : Dated action entry requested finished refreshed)
    (since : Representable (requestedAt - reuseFor)) (ended : Representable finished)
    (asked : Representable requested) (read : Representable refreshed) :
    DecidesByInstants platform requestedAt action entry requested finished refreshed ↔
      ¬Crossed (requestedAt - reuseFor) finished ∧ ¬Crossed requested refreshed :=
  and_congr (isRecent_iff printed dated.finishedAt since ended)
    (isRefreshed_iff dated.requestedAt dated.hardRefreshedAt asked read)

/-- The texts of a row and of all its answer lists are those of instants, and no two that are compared
are crossed. -/
structure Timed (platform : Platform) (requestedAt : Timestamp) (action : QuotaAction)
    (requested finished : Timestamp) (refreshed : ListedAccount → Timestamp) : Prop where
  since : Representable (requestedAt - reuseFor)
  finishedAt : action.finishedAt = some (display finished)
  ended : Representable finished
  apart : ¬Crossed (requestedAt - reuseFor) finished
  requestedAt : action.requestedAt = display requested
  asked : Representable requested
  listed : ∀ entry ∈ listedBy platform action, entry.hardRefreshedAt = some (display (refreshed entry)) ∧
    Representable (refreshed entry) ∧ ¬Crossed requested (refreshed entry)

variable {refreshed : ListedAccount → Timestamp}

theorem Timed.isRecent_iff (timed : Timed platform requestedAt action requested finished refreshed)
    (printed : platform.display = display) :
    isRecent platform requestedAt action = true ↔ requestedAt - reuseFor ≤ finished :=
  (Reuse.isRecent_iff printed timed.finishedAt timed.since timed.ended).mpr timed.apart

theorem Timed.isRefreshed_iff (timed : Timed platform requestedAt action requested finished refreshed)
    {entry : ListedAccount} (member : entry ∈ listedBy platform action) :
    isRefreshed action entry = true ↔ requested ≤ refreshed entry := by
  obtain ⟨listed, read, apart⟩ := timed.listed entry member
  exact (Reuse.isRefreshed_iff timed.requestedAt listed timed.asked read).mpr apart

/-- Of such a row the instants decide whether a claim may share it, which accounts its answer covers and
what `recent` answers with. -/
theorem reused_by_instants (printed : platform.display = display)
    (timed : Timed platform requestedAt action requested finished refreshed) :
    (∀ kind accountId sourceId,
      store.shareable platform kind accountId sourceId (platform.display (requestedAt - reuseFor)) action = true ↔
        (∃ since, store.shareable platform kind accountId sourceId since action = true) ∧
          requestedAt - reuseFor ≤ finished) ∧
    (∀ accountId, action.covers platform .hardRefresh accountId = true ↔
      ∃ entry ∈ listedBy platform action, entry.accountId = some accountId ∧ requested ≤ refreshed entry) ∧
    ∀ kind accountId, recent platform store kind accountId requestedAt = some action →
      ∃ entry ∈ listedBy platform action, entry.accountId = some accountId ∧
        requestedAt - reuseFor ≤ finished ∧ (kind = .hardRefresh → requested ≤ refreshed entry) := by
  refine ⟨fun kind accountId sourceId => ?_, fun accountId => ?_, fun kind accountId found => ?_⟩
  · rw [shareable_iff, timed.isRecent_iff printed]
  · rw [covers_hardRefresh_iff]
    exact exists_congr fun entry => and_congr_right fun member =>
      and_congr_right fun _ => timed.isRefreshed_iff member
  · have selected := (List.mem_filter.mp (List.mem_of_getLast? found)).2
    obtain ⟨entry, member, offered⟩ := List.any_eq_true.mp selected
    simp only [offers, Bool.and_eq_true, Bool.or_eq_true, decide_eq_true_eq] at offered
    obtain ⟨⟨⟨⟨⟨-, recent⟩, -⟩, named⟩, -⟩, current⟩ := offered
    refine ⟨entry, member, named, (timed.isRecent_iff printed).mp recent, fun hard => ?_⟩
    rcases current with other | ⟨fresh, -⟩
    · exact absurd hard other
    · exact (timed.isRefreshed_iff member).mp fresh

end Instants

/-- A platform that lists nothing. -/
def printing : Platform where
  display := display
  listed _ := []
  sharedActions _ := []
  failed _ := none
  sourceFailures _ := none

/-- A refresh requested at 30 s that finished at an instant. -/
def refreshAt (finished : Timestamp) : QuotaAction where
  actionId := 1
  kind := .hardRefresh
  accountId := none
  sourceId := none
  requestedAt := display (seconds 30)
  finishedAt := some (display finished)
  outcome := some "succeeded"
  beforeState := ""
  afterState := none
  requestedBy := ""
  shared := true
  responseStatus := some 200
  responseBody := none
  credentialId := ""
  credentialTransport := ""
  bootId := none

def listedAt (refreshed : Timestamp) : ListedAccount := ⟨some "", some false, some (display refreshed)⟩

theorem dated_refreshAt (finished refreshed : Timestamp) :
    Dated (refreshAt finished) (listedAt refreshed) (seconds 30) finished refreshed := ⟨rfl, rfl, rfl⟩

/-- A refresh that finished a second after the minute began is shared. -/
theorem a_later_second_is_shared : DecidesByInstants printing (seconds 90) (refreshAt (seconds 31))
    (listedAt (seconds 31)) (seconds 30) (seconds 31) (seconds 31) := by
  refine (decides_by_instants_iff rfl (dated_refreshAt _ _) ?_ ?_ ?_ ?_).mpr ?_
  · unfold Representable
    decide
  · unfold Representable
    decide
  · unfold Representable
    decide
  · unfold Representable
    decide
  · unfold Crossed
    decide

/-- One that finished half a second after the minute began is refreshed again, since a point sorts
before the `Z` of a whole second. -/
theorem half_a_second_is_not_shared :
    isRecent printing (seconds 90) (refreshAt (seconds 30 + 500000000)) = false ∧
      isRefreshed (refreshAt (seconds 31)) (listedAt (seconds 30 + 500000000)) = false ∧
      seconds 90 - reuseFor ≤ seconds 30 + 500000000 ∧ seconds 30 ≤ seconds 30 + 500000000 := by
  decide

end MeteredUsage.QuotaActions.Reuse

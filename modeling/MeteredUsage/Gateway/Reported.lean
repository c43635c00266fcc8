import MeteredUsage.Gateway.Requests
import MeteredUsage.Library.Conversation

/-! Where the grants of an observation come from: an adapter reports a list of them only as it reads
it out of an answer to its own grant list call. -/

namespace MeteredUsage.Gateway.Reported
open MeteredUsage.Values MeteredUsage.Store MeteredUsage.Store.Schema MeteredUsage.Store.Credentials
open MeteredUsage.Store.Windows MeteredUsage.Store.Quota MeteredUsage.Library.Interaction
open MeteredUsage.Gateway.Adapters MeteredUsage.Gateway.Requests

/-- The reply is a provider's grant list of a credential, read as these grants. -/
inductive Lists (runtime : Sql.Runtime) (reading : Reading) (authIndex : String) :
    Reply Answer → List Grant → Prop where
  | codex {response : ApiResponse} {body : Json} {grants : List Grant}
      (answers : answer runtime response = .ok body) (read : Codex.grants reading body = some grants) :
      Lists runtime reading authIndex
        ⟨.call ⟨authIndex, "GET", Codex.resetCreditsUrl, none⟩, .ok response⟩ grants
  | claude {response : ApiResponse} {body : Json} {grants : List Grant}
      (answers : answer runtime response = .ok body) (read : Claude.resetGrants reading body = some grants) :
      Lists runtime reading authIndex
        ⟨.call ⟨authIndex, "GET", Claude.resetGrantsUrl, none⟩, .ok response⟩ grants

/-- Grants that are reported were listed in one of the replies. -/
def Reports (runtime : Sql.Runtime) (reading : Reading) (authIndex : String) (told : List (Reply Answer))
    (observation : Observation) : Prop :=
  ∀ grants, observation.manualResets = .reported grants →
    ∃ reply ∈ told, Lists runtime reading authIndex reply grants

variable {runtime : Sql.Runtime} {reading : Reading} {authIndex : String} {told : List (Reply Answer)}
  {Value : Type}

/-- Any question may be asked, whatever was told before. -/
abbrev free : List (Reply Answer) → Question → Prop := fun _ _ => True

theorem answered_ok {reply : Except ManagementError ApiResponse} {body : Json}
    (read : answered runtime reply = .ok body) :
    ∃ response, reply = .ok response ∧ answer runtime response = .ok body := by
  cases reply with
  | ok response => exact ⟨response, rfl, read⟩
  | error failure => cases read

theorem tells_ask (call : ApiCall) : (ask call).run.Tells free
    (fun after => orFailed fun reply => after = ⟨.call call, reply⟩ :: told) told :=
  ⟨trivial, fun _ => rfl⟩

theorem tells_ofExcept {allowed : List (Reply Answer) → Question → Prop} (outcome : Except RefreshError Value) :
    (ofExcept outcome).run.Tells allowed (fun after => orFailed fun _ => after = told) told := by
  cases outcome with
  | ok value => exact (rfl : told = told)
  | error error => exact trivial

theorem codex_reports (file : AuthFile) : (Codex.fetch runtime reading file authIndex).run.Tells free
    (fun told => orFailed (Reports runtime reading authIndex told)) told := by
  refine tells_bind_except (tells_ask _) fun _ usage _ => ?_
  refine tells_bind_except (tells_ofExcept _) fun _ usage _ => ?_
  refine tells_bind_except (tells_of_meets (meets_now trivial)) fun told instant _ => ?_
  have resets : (Codex.manualResets runtime reading authIndex).run.Tells free (fun told => orFailed
      fun resets => ∀ grants, resets = .reported grants →
        ∃ reply ∈ told, Lists runtime reading authIndex reply grants) told := by
    refine tells_bind_except (tells_ask _) fun told reply same => ?_
    split
    next listed read =>
      refine fun grants reported => ?_
      obtain ⟨response, rfl, answers⟩ := answered_ok read
      cases found : Codex.grants reading listed with
      | none => simp [found] at reported
      | some listing =>
        simp only [found, Option.elim_some, ManualResets.reported.injEq] at reported
        rw [same]
        exact ⟨_, List.mem_cons_self, .codex answers (reported ▸ found)⟩
    next => exact fun grants reported => by cases reported
  exact tells_bind_except resets fun told resets reports => reports

theorem claude_reports : (Claude.fetch runtime reading authIndex).run.Tells free
    (fun told => orFailed (Reports runtime reading authIndex told)) told := by
  refine tells_bind_except (tells_ask _) fun _ usage _ => ?_
  refine tells_bind_except (tells_ask _) fun _ profile _ => ?_
  refine tells_bind_except (tells_ofExcept _) fun _ usage _ => ?_
  refine tells_bind_except (tells_ask _) fun told reply same => ?_
  refine fun grants reported => ?_
  cases read : (answered runtime reply).toOption.bind (Claude.resetGrants reading) with
  | none => simp [read] at reported
  | some found =>
    simp only [read, Option.elim_some, ManualResets.reported.injEq] at reported
    obtain ⟨body, listed, decoded⟩ := Option.bind_eq_some_iff.mp read
    have answers : answered runtime reply = .ok body := by
      cases known : answered runtime reply with
      | error failure => simp [known, Except.toOption] at listed
      | ok value => simpa [known, Except.toOption] using listed
    obtain ⟨response, rfl, answers⟩ := answered_ok answers
    rw [same]
    exact ⟨_, List.mem_cons_self, .claude answers (reported ▸ decoded)⟩

/-- The other providers report no grants. -/
def Unreported (observation : Observation) : Prop := observation.manualResets = .unchanged

theorem Unreported.reports {observation : Observation} (unreported : Unreported observation) :
    Reports runtime reading authIndex told observation := by
  intro grants reported
  rw [unreported] at reported
  cases reported

theorem antigravity_unreported (file : AuthFile) :
    (Antigravity.fetch runtime reading file authIndex).run.Meets (free []) (orFailed Unreported) := by
  have asked (body : String) (answered : Bool) (failure : Option RefreshError) (hosts : List String) :
      (Antigravity.quota runtime reading authIndex body answered failure hosts).run.Meets (free [])
        (orFailed fun _ => True) := by
    induction hosts generalizing answered failure with
    | nil => exact meets_pure_except trivial
    | cons url rest ih =>
      refine meets_bind_except (meets_ask trivial) fun reply _ => ?_
      split
      · dsimp only
        split
        · exact ih _ _
        · exact meets_pure_except trivial
      · exact ih _ _
  unfold Antigravity.fetch
  split
  · exact meets_fail _
  · refine meets_bind_except (meets_ask trivial) fun subscription _ => ?_
    refine meets_bind_except (asked _ _ _ _) fun windows _ => ?_
    exact meets_bind_except (meets_ofExcept _) fun windows _ => meets_pure_except rfl

theorem kimi_unreported : (Kimi.fetch runtime reading authIndex).run.Meets (free []) (orFailed Unreported) := by
  refine meets_bind_except (meets_ask trivial) fun reply _ => ?_
  refine meets_bind_except (meets_ofExcept _) fun usage _ => ?_
  exact meets_bind_except (meets_now trivial) fun instant _ => meets_pure_except rfl

theorem devin_unreported : (Devin.fetch runtime reading authIndex).run.Meets (free []) (orFailed Unreported) := by
  refine meets_bind_except (meets_ask trivial) fun reply _ => ?_
  refine meets_bind_except (meets_ofExcept _) fun status _ => ?_
  dsimp only
  split
  · exact meets_fail _
  · exact meets_pure_except rfl

theorem xai_unreported (file : AuthFile) :
    (Xai.fetch runtime reading file authIndex).run.Meets (free []) (orFailed Unreported) := by
  have paid : (Xai.paid authIndex).run.Meets (free []) (orFailed (orFailed Unreported)) := by
    refine meets_bind_except (meets_ask trivial) fun profile _ => ?_
    refine meets_bind_except (meets_ask trivial) fun chat _ => ?_
    split
    · exact meets_pure_except trivial
    · split
      · exact meets_pure_except rfl
      · exact meets_pure_except trivial
  unfold Xai.fetch
  split
  · exact meets_bind_except paid fun observed reported => meets_liftExcept reported
  · refine meets_bind_except (meets_ask trivial) fun weekly _ => ?_
    refine meets_bind_except (meets_ask trivial) fun monthly _ => ?_
    split
    · exact meets_pure_except rfl
    · refine meets_bind_except paid fun observed reported => meets_liftExcept ?_
      cases observed with
      | ok observation => exact reported
      | error error => exact trivial

theorem meta_unreported (file : AuthFile) :
    (Meta.fetch runtime reading file authIndex).run.Meets (free []) (orFailed Unreported) := by
  unfold Meta.fetch
  split
  · exact meets_fail _
  · refine meets_bind_except (meets_lift_except (meets_question trivial fun _ => trivial)) fun credential _ => ?_
    refine meets_bind_except (meets_ofExcept _) fun credential _ => ?_
    refine meets_bind_except (meets_ofExcept _) fun token _ => ?_
    refine meets_bind_except (meets_ask trivial) fun reply _ => ?_
    refine meets_bind_except (meets_ofExcept _) fun key _ => ?_
    split
    · exact meets_pure_except rfl
    · exact meets_fail _

theorem reports_of_unreported {fetch : Fetch Observation} (meets : fetch.run.Meets (free []) (orFailed Unreported)) :
    fetch.run.Tells free (fun told => orFailed (Reports runtime reading authIndex told)) told := by
  have weaker : fetch.run.Tells free (fun _ => orFailed Unreported) told := tells_of_meets meets
  refine tells_mono weaker fun told outcome unreported => ?_
  cases outcome with
  | ok observation => exact Unreported.reports unreported
  | error failure => exact trivial

/-- A hard refresh reports grants only as one of its replies lists them, and only grants with a reset
left; it sends only its own provider's calls. -/
theorem fetch_tells (provider : Provider) (file : AuthFile) (authIndex : String) :
    (fetch runtime reading provider file authIndex).run.Tells (fun _ => Own provider authIndex)
      (fun told => orFailed fun observation =>
        Reports runtime reading authIndex told observation ∧ Left observation) [] := by
  have reports : (fetch runtime reading provider file authIndex).run.Tells free
      (fun told => orFailed (Reports runtime reading authIndex told)) [] := by
    cases provider with
    | claude => exact claude_reports
    | codex => exact codex_reports file
    | antigravity => exact reports_of_unreported (antigravity_unreported file)
    | kimi => exact reports_of_unreported kimi_unreported
    | devin => exact reports_of_unreported (devin_unreported)
    | xai => exact reports_of_unreported (xai_unreported file)
    | metaAi => exact reports_of_unreported (meta_unreported file)
  refine tells_mono (tells_and reports (fetch_meets provider file authIndex)) fun told outcome both => ?_
  cases outcome with
  | ok observation => exact both
  | error failure => exact trivial

/-- Spending a reset sends one call, which consumes one of the credential's own. -/
theorem reset_tells (provider : Provider) (redeemRequest authIndex : String) :
    (reset runtime provider redeemRequest authIndex).run.Tells
      (fun told question => told = [] ∧ Consumes authIndex question)
      (fun _ => orFailed fun _ => True) [] := by
  cases provider with
  | codex =>
    refine ⟨⟨rfl, rfl, rfl⟩, fun reply => ?_⟩
    refine tells_bind_except (tells_ofExcept (answered runtime reply)) fun told confirmation _ => ?_
    split <;> exact trivial
  | _ => exact trivial

end MeteredUsage.Gateway.Reported

import MeteredUsage.Gateway.Adapters

/-! What an adapter can send along any course of answers: calls of its own provider's addresses
with the credential it was given, and nothing else. -/

namespace MeteredUsage.Gateway.Requests
open MeteredUsage.Values MeteredUsage.Store MeteredUsage.Store.Schema MeteredUsage.Store.Credentials
open MeteredUsage.Store.Windows MeteredUsage.Store.Quota MeteredUsage.Library.Interaction
open MeteredUsage.Gateway.Adapters

/-- The addresses a hard refresh of the provider reads. -/
def urls : Provider → List String
  | .claude => [Claude.usageUrl, Claude.profileUrl, Claude.resetGrantsUrl]
  | .codex => [Codex.usageUrl, Codex.resetCreditsUrl]
  | .antigravity => Antigravity.codeAssistUrl :: Antigravity.quotaUrls
  | .kimi => [Kimi.usageUrl]
  | .devin => [Devin.statusUrl]
  | .xai => [Xai.billingWeeklyUrl, Xai.billingMonthlyUrl, Xai.meUrl, Xai.chatUrl]
  | .metaAi => [Meta.keyUrl]

/-- What a hard refresh of one credential may send. -/
def Own (provider : Provider) (authIndex : String) : Question → Prop
  | .call call => call.authIndex = authIndex ∧ call.url ∈ urls provider
  | .download _ => provider = .metaAi
  | .now => True

/-- What spending one of the credential's resets may send. -/
def Consumes (authIndex : String) : Question → Prop
  | .call call => call.authIndex = authIndex ∧ call.url = Codex.consumeUrl
  | _ => False

/-- Every grant of a reported list has a reset left. -/
def Left (observation : Observation) : Prop :=
  ∀ grants, observation.manualResets = .reported grants → ∀ grant ∈ grants, 0 < grant.remaining

variable {runtime : Sql.Runtime} {reading : Reading} {allowed : Question → Prop} {Value : Type}

theorem meets_ask {call : ApiCall} (admitted : allowed (.call call)) :
    (ask call).run.Meets allowed (orFailed fun _ => True) :=
  meets_lift_except (meets_question admitted fun _ => trivial)

theorem meets_now (admitted : allowed .now) : now.run.Meets allowed (orFailed fun _ => True) :=
  meets_lift_except (meets_question admitted fun _ => trivial)

theorem meets_ofExcept (outcome : Except RefreshError Value) :
    (ofExcept outcome).run.Meets allowed (orFailed fun _ => True) := by
  cases outcome <;> exact trivial

theorem meets_fail {ends : Value → Prop} (error : RefreshError) :
    (fail error : Fetch Value).run.Meets allowed (orFailed ends) := trivial

theorem left_unchanged (windows : List NewWindow) (plan : Option String) :
    Left ⟨windows, plan, .unchanged⟩ := by
  rintro grants ⟨⟩

theorem codex_grants_left {listed : Json} {grants : List Grant}
    (read : Codex.grants reading listed = some grants) : ∀ grant ∈ grants, 0 < grant.remaining := by
  unfold Codex.grants at read
  split at read
  · cases read
    intro grant member
    obtain ⟨credit, -, granted⟩ := List.mem_filterMap.mp member
    simp only [Codex.grant, Option.bind_eq_bind, Option.bind_eq_some_iff] at granted
    obtain ⟨kind, -, status, -, granted⟩ := granted
    split at granted
    · obtain ⟨expiresAt, -, same⟩ := Option.bind_eq_some_iff.mp granted
      cases same
      exact Int.one_pos
    · cases granted
  · cases read

theorem claude_grants_left {body : Json} {grants : List Grant}
    (read : Claude.resetGrants reading body = some grants) : ∀ grant ∈ grants, 0 < grant.remaining := by
  simp only [Claude.resetGrants, Option.bind_eq_bind, Option.bind_eq_some_iff] at read
  obtain ⟨block, -, eligible, -, read⟩ := read
  split at read
  · cases read
    simp
  · cases read
    simp
  · obtain ⟨listed, -, all, -, same⟩ := by
      simpa only [Option.bind_eq_bind, Option.bind_eq_some_iff] using read
    cases same
    intro grant member
    exact of_decide_eq_true (List.mem_filter.mp member).2

theorem codex_meets (file : AuthFile) (authIndex : String) :
    (Codex.fetch runtime reading file authIndex).run.Meets (Own .codex authIndex) (orFailed Left) := by
  refine meets_bind_except (meets_ask ⟨rfl, by simp [urls]⟩) fun reply _ => ?_
  refine meets_bind_except (meets_ofExcept _) fun usage _ => ?_
  refine meets_bind_except (meets_now trivial) fun at_ _ => ?_
  have resets : (Codex.manualResets runtime reading authIndex).run.Meets (Own .codex authIndex)
      (orFailed fun resets => ∀ grants, resets = .reported grants →
        ∀ grant ∈ grants, 0 < grant.remaining) := by
    refine meets_bind_except (meets_ask ⟨rfl, by simp [urls]⟩) fun reply _ => ?_
    split
    · rename_i listed _
      refine meets_pure_except fun grants reported => ?_
      cases read : Codex.grants reading listed with
      | none => simp [read] at reported
      | some found =>
        simp only [read, Option.elim_some, ManualResets.reported.injEq] at reported
        exact reported ▸ codex_grants_left read
    · exact meets_pure_except fun grants reported => by cases reported
  exact meets_bind_except resets fun resets left => meets_pure_except left

theorem claude_meets (authIndex : String) :
    (Claude.fetch runtime reading authIndex).run.Meets (Own .claude authIndex) (orFailed Left) := by
  refine meets_bind_except (meets_ask ⟨rfl, by simp [urls]⟩) fun usage _ => ?_
  refine meets_bind_except (meets_ask ⟨rfl, by simp [urls]⟩) fun profile _ => ?_
  refine meets_bind_except (meets_ofExcept _) fun usage _ => ?_
  refine meets_bind_except (meets_ask ⟨rfl, by simp [urls]⟩) fun reply _ => ?_
  refine meets_pure_except fun grants reported => ?_
  cases read : (answered runtime reply).toOption.bind (Claude.resetGrants reading) with
  | none => simp [read] at reported
  | some found =>
    simp only [read, Option.elim_some, ManualResets.reported.injEq] at reported
    obtain ⟨body, -, read⟩ := Option.bind_eq_some_iff.mp read
    exact reported ▸ claude_grants_left read

theorem antigravity_quota_meets (authIndex body : String) (hosts : List String)
    (known : ∀ host ∈ hosts, host ∈ Antigravity.quotaUrls) (answered : Bool)
    (failure : Option RefreshError) :
    (Antigravity.quota runtime reading authIndex body answered failure hosts).run.Meets
      (Own .antigravity authIndex) (orFailed fun _ => True) := by
  induction hosts generalizing answered failure with
  | nil => exact meets_pure_except trivial
  | cons url rest ih =>
    have later := fun answered failure =>
      ih (fun host member => known host (List.mem_cons_of_mem _ member)) answered failure
    have own : url ∈ urls .antigravity := List.mem_cons_of_mem _ (known url List.mem_cons_self)
    refine meets_bind_except (meets_ask ⟨rfl, own⟩) fun reply _ => ?_
    split
    · dsimp only
      split
      · exact later _ _
      · exact meets_pure_except trivial
    · exact later _ _

theorem antigravity_meets (file : AuthFile) (authIndex : String) :
    (Antigravity.fetch runtime reading file authIndex).run.Meets (Own .antigravity authIndex)
      (orFailed Left) := by
  unfold Antigravity.fetch
  split
  · exact meets_fail _
  · refine meets_bind_except (meets_ask ⟨rfl, by simp [urls]⟩) fun subscription _ => ?_
    refine meets_bind_except (antigravity_quota_meets _ _ _ (fun _ member => member) _ _)
      fun windows _ => ?_
    refine meets_bind_except (meets_ofExcept _) fun windows _ => ?_
    exact meets_pure_except (left_unchanged _ _)

theorem kimi_meets (authIndex : String) :
    (Kimi.fetch runtime reading authIndex).run.Meets (Own .kimi authIndex) (orFailed Left) := by
  refine meets_bind_except (meets_ask ⟨rfl, by simp [urls]⟩) fun reply _ => ?_
  refine meets_bind_except (meets_ofExcept _) fun usage _ => ?_
  refine meets_bind_except (meets_now trivial) fun at_ _ => ?_
  exact meets_pure_except (left_unchanged _ _)

theorem devin_meets (authIndex : String) :
    (Devin.fetch runtime reading authIndex).run.Meets (Own .devin authIndex) (orFailed Left) := by
  refine meets_bind_except (meets_ask ⟨rfl, by simp [urls]⟩) fun reply _ => ?_
  refine meets_bind_except (meets_ofExcept _) fun status _ => ?_
  dsimp only
  split
  · exact meets_fail _
  · exact meets_pure_except (left_unchanged _ _)

theorem xai_paid_meets (authIndex : String) :
    (Xai.paid authIndex).run.Meets (Own .xai authIndex)
      (orFailed fun outcome => orFailed Left outcome) := by
  refine meets_bind_except (meets_ask ⟨rfl, by simp [urls]⟩) fun profile _ => ?_
  refine meets_bind_except (meets_ask ⟨rfl, by simp [urls]⟩) fun chat _ => ?_
  split
  · exact meets_pure_except trivial
  · split
    · exact meets_pure_except (left_unchanged _ _)
    · exact meets_pure_except trivial

theorem xai_meets (file : AuthFile) (authIndex : String) :
    (Xai.fetch runtime reading file authIndex).run.Meets (Own .xai authIndex) (orFailed Left) := by
  unfold Xai.fetch
  split
  · exact meets_bind_except (xai_paid_meets authIndex) fun observed left => meets_liftExcept left
  · refine meets_bind_except (meets_ask ⟨rfl, by simp [urls]⟩) fun weekly _ => ?_
    refine meets_bind_except (meets_ask ⟨rfl, by simp [urls]⟩) fun monthly _ => ?_
    split
    · exact meets_pure_except (left_unchanged _ _)
    · refine meets_bind_except (xai_paid_meets authIndex) fun observed left => meets_liftExcept ?_
      cases observed with
      | ok observation => exact left
      | error error => exact trivial

theorem meta_meets (file : AuthFile) (authIndex : String) :
    (Meta.fetch runtime reading file authIndex).run.Meets (Own .metaAi authIndex) (orFailed Left) := by
  unfold Meta.fetch
  split
  · exact meets_fail _
  · refine meets_bind_except (meets_lift_except (meets_question rfl fun _ => trivial))
      fun credential _ => ?_
    refine meets_bind_except (meets_ofExcept _) fun credential _ => ?_
    refine meets_bind_except (meets_ofExcept _) fun token _ => ?_
    refine meets_bind_except (meets_ask ⟨rfl, by simp [urls]⟩) fun reply _ => ?_
    refine meets_bind_except (meets_ofExcept _) fun key _ => ?_
    split
    · exact meets_pure_except (left_unchanged _ _)
    · exact meets_fail _

/-- A hard refresh of a credential sends only its own provider's calls, under its own index. -/
theorem fetch_meets (provider : Provider) (file : AuthFile) (authIndex : String) :
    (fetch runtime reading provider file authIndex).run.Meets (Own provider authIndex)
      (orFailed Left) := by
  cases provider with
  | claude => exact claude_meets authIndex
  | codex => exact codex_meets file authIndex
  | antigravity => exact antigravity_meets file authIndex
  | kimi => exact kimi_meets authIndex
  | devin => exact devin_meets authIndex
  | xai => exact xai_meets file authIndex
  | metaAi => exact meta_meets file authIndex

end MeteredUsage.Gateway.Requests

import Mathlib.Data.List.Forall2

/-! Computations that may fail, taken apart one bind at a time. -/

namespace MeteredUsage.Library.Outcome

universe u

variable {Failure : Type*} {Value Result : Type u}

/-- A sequence succeeds when its first part does and what follows does from its value. -/
theorem bind_ok {first : Except Failure Value} {rest : Value → Except Failure Result}
    {result : Result} :
    (first >>= rest) = .ok result ↔ ∃ value, first = .ok value ∧ rest value = .ok result := by
  cases first <;> simp [bind, Except.bind]

@[simp] theorem pure_ok {value result : Value} :
    (pure value : Except Failure Value) = .ok result ↔ value = result := by
  simp [pure, Except.pure]

theorem foldlM_keeps {Item : Type*} {step : Value → Item → Except Failure Value}
    {kept : Value → Value → Prop} (refl : ∀ value, kept value value)
    (trans : ∀ first second third, kept first second → kept second third → kept first third)
    (stepped : ∀ value item next, step value item = .ok next → kept value next)
    {items : List Item} {start finish : Value} (folded : items.foldlM step start = .ok finish) :
    kept start finish := by
  induction items generalizing start with
  | nil =>
    simp only [List.foldlM_nil, pure_ok] at folded
    exact folded ▸ refl start
  | cons item rest ih =>
    rw [List.foldlM_cons, bind_ok] at folded
    obtain ⟨next, taken, later⟩ := folded
    exact trans _ _ _ (stepped _ _ _ taken) (ih later)

section Each

variable {Item Answer : Type} {answer : Item → Except Failure Answer} {items : List Item}

theorem mapM_ok {value : Item → Answer} (each : ∀ item ∈ items, answer item = .ok (value item)) :
    items.mapM answer = .ok (items.map value) := by
  induction items with
  | nil => rfl
  | cons item rest ih =>
    have later := ih fun other member => each other (List.mem_cons_of_mem _ member)
    rw [List.mapM_cons, each item List.mem_cons_self, later]
    rfl

theorem mapM_exists {kind : Item → Answer → Prop}
    (each : ∀ item ∈ items, ∃ value, answer item = .ok value ∧ kind item value) :
    ∃ values, items.mapM answer = .ok values ∧ List.Forall₂ kind items values := by
  induction items with
  | nil => exact ⟨[], rfl, .nil⟩
  | cons item rest ih =>
    obtain ⟨value, first, held⟩ := each item List.mem_cons_self
    obtain ⟨values, later, all⟩ := ih fun other member => each other (List.mem_cons_of_mem _ member)
    refine ⟨value :: values, ?_, .cons held all⟩
    rw [List.mapM_cons, first, later]
    rfl

theorem forall₂_of_mapM {values : List Answer} (ran : items.mapM answer = .ok values) :
    List.Forall₂ (fun item value => answer item = .ok value) items values := by
  induction items generalizing values with
  | nil =>
    cases ran
    exact .nil
  | cons item rest ih =>
    rw [List.mapM_cons, bind_ok] at ran
    obtain ⟨value, first, ran⟩ := ran
    obtain ⟨others, later, ran⟩ := bind_ok.mp ran
    cases ran
    exact .cons first (ih later)

end Each

end MeteredUsage.Library.Outcome

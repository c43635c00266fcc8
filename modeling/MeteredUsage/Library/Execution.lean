import Mathlib.Data.List.Basic

/-! Runs of a step function that may refuse an action. A guard restricts the actions
a run takes in the states it takes them in; an invariant kept by every guarded step
holds in every state such a run reaches. -/

namespace MeteredUsage.Library.Execution

variable {State Action : Type*} (step : State → Action → Option State)

/-- Takes the actions in order, and refuses the run when a step refuses one. -/
def run : State → List Action → Option State
  | start, [] => some start
  | start, action :: rest => (step start action).bind fun next => run next rest

/-- Every action is taken in a state where the guard admits it. -/
def Meets (guard : State → Action → Prop) : State → List Action → Prop
  | _, [] => True
  | start, action :: rest =>
      ∀ next, step start action = some next → guard start action ∧ Meets guard next rest

/-- The property holds at the start and in every state the actions lead through. -/
def Always (good : State → Prop) : State → List Action → Prop
  | start, [] => good start
  | start, action :: rest =>
      good start ∧ ∀ next, step start action = some next → Always good next rest

@[simp] theorem run_nil (start : State) : run step start [] = some start := rfl

theorem run_cons (start finish : State) (action : Action) (rest : List Action) :
    run step start (action :: rest) = some finish ↔
      ∃ next, step start action = some next ∧ run step next rest = some finish := by
  simp only [run, Option.bind_eq_some_iff]

theorem run_append (start finish : State) (first rest : List Action) :
    run step start (first ++ rest) = some finish ↔
      ∃ middle, run step start first = some middle ∧ run step middle rest = some finish := by
  induction first generalizing start with
  | nil => simp
  | cons action first ih =>
    simp only [List.cons_append, run_cons, ih]
    constructor
    · rintro ⟨next, taken, middle, before, after⟩
      exact ⟨middle, ⟨next, taken, before⟩, after⟩
    · rintro ⟨middle, ⟨next, taken, before⟩, after⟩
      exact ⟨next, taken, middle, before, after⟩

variable {step}

/-- The invariant rule: what one guarded step keeps, a guarded run keeps. -/
theorem invariant_run {guard : State → Action → Prop} {inv : State → Prop}
    (preserved : ∀ start action next, inv start → guard start action →
      step start action = some next → inv next)
    {start finish : State} {actions : List Action} (initial : inv start)
    (met : Meets step guard start actions) (reached : run step start actions = some finish) :
    inv finish := by
  induction actions generalizing start with
  | nil =>
    cases reached
    exact initial
  | cons action rest ih =>
    obtain ⟨next, taken, later⟩ := (run_cons step _ _ _ _).mp reached
    obtain ⟨admitted, met⟩ := met next taken
    exact ih (preserved _ _ _ initial admitted taken) met later

theorem meets_cons {guard : State → Action → Prop} {start next : State} {action : Action}
    {rest : List Action} (taken : step start action = some next) (admitted : guard start action)
    (met : Meets step guard next rest) : Meets step guard start (action :: rest) := by
  intro other taken'
  obtain rfl := Option.some.inj (taken.symm.trans taken')
  exact ⟨admitted, met⟩

/-- A guarded run is one to any state it leads through, and one from there. -/
theorem meets_append {guard : State → Action → Prop} {start middle : State}
    {first rest : List Action} (met : Meets step guard start (first ++ rest))
    (reached : run step start first = some middle) :
    Meets step guard start first ∧ Meets step guard middle rest := by
  induction first generalizing start with
  | nil =>
    cases reached
    exact ⟨trivial, met⟩
  | cons action first ih =>
    obtain ⟨next, taken, later⟩ := (run_cons step _ _ _ _).mp reached
    refine ⟨fun other taken' => ?_, (ih (met next taken).2 later).2⟩
    obtain rfl := Option.some.inj (taken.symm.trans taken')
    exact ⟨(met next taken).1, (ih (met next taken).2 later).1⟩

/-- A guarded run goes on with one from the state it leads to. -/
theorem meets_join {guard : State → Action → Prop} {start middle : State} {first rest : List Action}
    (reached : run step start first = some middle) (met : Meets step guard start first)
    (later : Meets step guard middle rest) : Meets step guard start (first ++ rest) := by
  induction first generalizing start with
  | nil =>
    cases reached
    exact later
  | cons action first ih =>
    obtain ⟨next, taken, reached⟩ := (run_cons step _ _ _ _).mp reached
    exact meets_cons taken (met next taken).1 (ih reached (met next taken).2)

theorem meets_mono {guard weaker : State → Action → Prop}
    (admits : ∀ state action, guard state action → weaker state action) {start : State} {actions : List Action}
    (met : Meets step guard start actions) : Meets step weaker start actions := by
  induction actions generalizing start with
  | nil => trivial
  | cons action rest ih =>
    intro next taken
    obtain ⟨admitted, later⟩ := met next taken
    exact ⟨admits start action admitted, ih later⟩

/-- A guard that looks at the actions alone. -/
theorem meets_of_all {kind : Action → Prop} (start : State) {actions : List Action}
    (all : ∀ action ∈ actions, kind action) : Meets step (fun _ action => kind action) start actions := by
  induction actions generalizing start with
  | nil => trivial
  | cons action rest ih =>
    exact fun next _ => ⟨all action List.mem_cons_self, ih next fun other member =>
      all other (List.mem_cons_of_mem _ member)⟩

theorem meets_true (start : State) (actions : List Action) :
    Meets step (fun _ _ => True) start actions := by
  induction actions generalizing start with
  | nil => trivial
  | cons action rest ih => exact fun next _ => ⟨trivial, ih next⟩

theorem invariant_run_free {inv : State → Prop}
    (preserved : ∀ start action next, inv start → step start action = some next → inv next)
    {start finish : State} {actions : List Action} (initial : inv start)
    (reached : run step start actions = some finish) : inv finish :=
  invariant_run (fun _ _ _ holds _ taken => preserved _ _ _ holds taken) initial
    (meets_true start actions) reached

theorem always_head {good : State → Prop} {start : State} {actions : List Action}
    (always : Always step good start actions) : good start := by
  cases actions with
  | nil => exact always
  | cons action rest => exact always.1

/-- The property holds in the last state of a run through which it always holds. -/
theorem always_last {good : State → Prop} {start finish : State} {actions : List Action}
    (always : Always step good start actions) (reached : run step start actions = some finish) :
    good finish := by
  induction actions generalizing start with
  | nil =>
    cases reached
    exact always
  | cons action rest ih =>
    obtain ⟨next, taken, later⟩ := (run_cons step _ _ _ _).mp reached
    exact ih (always.2 next taken) later

/-- A property an invariant gives holds along every run whose steps the guard admits. -/
theorem always_of_meets {guard : State → Action → Prop} {inv good : State → Prop}
    (holds : ∀ state, inv state → good state)
    (preserved : ∀ start action next, inv start → guard start action →
      step start action = some next → inv next)
    {start : State} (initial : inv start) {actions : List Action}
    (met : Meets step guard start actions) : Always step good start actions := by
  induction actions generalizing start with
  | nil => exact holds _ initial
  | cons action rest ih =>
    refine ⟨holds _ initial, fun next taken => ?_⟩
    obtain ⟨admitted, met⟩ := met next taken
    exact ih (preserved _ _ _ initial admitted taken) met

/-- Where a step keeps an invariant and makes the property true exactly when the guard
admits it, the property always holds along exactly the guarded runs. -/
theorem always_iff_meets {guard : State → Action → Prop} {inv good : State → Prop}
    (holds : ∀ state, inv state → good state)
    (preserved : ∀ start action next, inv start → guard start action →
      step start action = some next → inv next)
    (broken : ∀ start action next, inv start → step start action = some next →
      good next → guard start action)
    {start : State} (initial : inv start) (actions : List Action) :
    Always step good start actions ↔ Meets step guard start actions := by
  refine ⟨fun always => ?_, always_of_meets holds preserved initial⟩
  induction actions generalizing start with
  | nil => trivial
  | cons action rest ih =>
    intro next taken
    have later := always.2 next taken
    have admitted := broken _ _ _ initial taken (always_head later)
    exact ⟨admitted, ih (preserved _ _ _ initial admitted taken) later⟩

end MeteredUsage.Library.Execution

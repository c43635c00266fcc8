import MeteredUsage.Library.Interaction

/-! Programs followed question by question. What a program comes to may depend on everything it was
told on the way, and a program part of the way goes on as the whole one was shown to. -/

namespace MeteredUsage.Library.Interaction

variable {Question : Type} {Answer : Question → Type} {Value Result Failure : Type}

/-- A question with its answer. -/
abbrev Reply (Answer : Question → Type) := (question : Question) × Answer question

/-- Every question along every course is allowed, and every course ends as required: of all the
program was told before, the last reply first. -/
def Dialogue.Tells (allowed : List (Reply Answer) → Question → Prop)
    (ends : List (Reply Answer) → Value → Prop) (told : List (Reply Answer)) : Dialogue Answer Value → Prop
  | done value => ends told value
  | ask question next =>
    allowed told question ∧ ∀ answer, (next answer).Tells allowed ends (⟨question, answer⟩ :: told)

section Tells
variable {allowed : List (Reply Answer) → Question → Prop} {told : List (Reply Answer)}

theorem tells_of_meets {asks : Question → Prop} {ends : Value → Prop} {program : Dialogue Answer Value}
    (meets : program.Meets asks ends) : program.Tells (fun _ => asks) (fun _ => ends) told := by
  induction program generalizing told with
  | done value => exact meets
  | ask question next ih => exact ⟨meets.1, fun answer => ih answer (meets.2 answer)⟩

theorem tells_mono {ends weaker : List (Reply Answer) → Value → Prop} {program : Dialogue Answer Value}
    (tells : program.Tells allowed ends told) (weaken : ∀ told value, ends told value → weaker told value) :
    program.Tells allowed weaker told := by
  induction program generalizing told with
  | done value => exact weaken told value tells
  | ask question next ih => exact ⟨tells.1, fun answer => ih answer (tells.2 answer)⟩

/-- What is shown of what a program was told, and of what it asks apart from that. -/
theorem tells_and {asks : Question → Prop} {ends : List (Reply Answer) → Value → Prop} {also : Value → Prop}
    {program : Dialogue Answer Value} (tells : program.Tells allowed ends told) (meets : program.Meets asks also) :
    program.Tells (fun _ => asks) (fun told value => ends told value ∧ also value) told := by
  induction program generalizing told with
  | done value => exact ⟨tells, meets⟩
  | ask question next ih => exact ⟨meets.1, fun answer => ih answer (tells.2 answer) (meets.2 answer)⟩

theorem tells_bind {middle : List (Reply Answer) → Value → Prop} {ends : List (Reply Answer) → Result → Prop}
    {first : Dialogue Answer Value} {rest : Value → Dialogue Answer Result}
    (head : first.Tells allowed middle told)
    (tail : ∀ told value, middle told value → (rest value).Tells allowed ends told) :
    (first >>= rest).Tells allowed ends told := by
  induction first generalizing told with
  | done value => exact tail told value head
  | ask question next ih => exact ⟨head.1, fun answer => ih answer (head.2 answer)⟩

theorem tells_bind_except {middle : List (Reply Answer) → Value → Prop}
    {ends : List (Reply Answer) → Result → Prop} {first : ExceptT Failure (Dialogue Answer) Value}
    {rest : Value → ExceptT Failure (Dialogue Answer) Result}
    (head : first.run.Tells allowed (fun told => orFailed (middle told)) told)
    (tail : ∀ told value, middle told value →
      (rest value).run.Tells allowed (fun told => orFailed (ends told)) told) :
    (first >>= rest).run.Tells allowed (fun told => orFailed (ends told)) told := by
  refine tells_bind head fun told outcome reached => ?_
  cases outcome with
  | ok value => exact tail told value reached
  | error failure => exact trivial

end Tells

/-- A program part of the way: whether its next question is out, and what it was told, the last
reply first. -/
structure Course (Answer : Question → Type) (Value : Type) where
  program : Dialogue Answer Value
  isOut : Bool
  told : List (Reply Answer)

namespace Course

def start (program : Dialogue Answer Value) : Course Answer Value := ⟨program, false, []⟩

/-- Sends the next question. -/
def send (course : Course Answer Value) : Option (Question × Course Answer Value) :=
  match course.program, course.isOut with
  | .ask question _, false => some (question, { course with isOut := true })
  | _, _ => none

/-- Goes on with the answer to the question that is out. -/
def hear (answers : ∀ question, Answer question) (course : Course Answer Value) :
    Option (Reply Answer × Course Answer Value) :=
  match course.program, course.isOut with
  | .ask question next, true =>
    let reply : Reply Answer := ⟨question, answers question⟩
    some (reply, ⟨next (answers question), false, reply :: course.told⟩)
  | _, _ => none

/-- What the program came to. -/
def value (course : Course Answer Value) : Option Value :=
  match course.program with
  | .done value => some value
  | .ask _ _ => none

/-- The rest of the program goes on as required of the whole. -/
def Sound (allowed : List (Reply Answer) → Question → Prop) (ends : List (Reply Answer) → Value → Prop)
    (course : Course Answer Value) : Prop := course.program.Tells allowed ends course.told

variable {allowed : List (Reply Answer) → Question → Prop} {ends : List (Reply Answer) → Value → Prop}
  {course after : Course Answer Value}

theorem sound_send {question : Question} (sound : course.Sound allowed ends)
    (sent : course.send = some (question, after)) :
    allowed course.told question ∧ after.Sound allowed ends ∧ after.told = course.told ∧
      course.isOut = false ∧ after.isOut = true := by
  obtain ⟨program, isOut, told⟩ := course
  unfold send at sent
  split at sent
  next asked next same out =>
    cases sent
    obtain rfl : program = .ask question next := same
    exact ⟨sound.1, sound, rfl, out, rfl⟩
  next => cases sent

theorem sound_hear {answers : ∀ question, Answer question} {reply : Reply Answer}
    (sound : course.Sound allowed ends) (heard : course.hear answers = some (reply, after)) :
    after.Sound allowed ends ∧ after.told = reply :: course.told := by
  obtain ⟨program, isOut, told⟩ := course
  unfold hear at heard
  split at heard
  next question next same out =>
    cases heard
    obtain rfl : program = .ask question next := same
    exact ⟨sound.2 (answers question), rfl⟩
  next => cases heard

theorem sound_value {result : Value} (sound : course.Sound allowed ends)
    (came : course.value = some result) : ends course.told result := by
  obtain ⟨program, isOut, told⟩ := course
  unfold value at came
  split at came
  next final same =>
    cases came
    obtain rfl : program = .done result := same
    exact sound
  next => cases came

end Course

end MeteredUsage.Library.Interaction

import Mathlib.Logic.Basic

/-! Programs that ask questions of a world and go on with its answers. What a program asks and
what it comes to is stated over every way the world may answer, and follows the program's own
sequencing; an exception ends a program early. -/

namespace MeteredUsage.Library.Interaction

/-- A program that comes to a value after some questions. -/
inductive Dialogue {Question : Type} (Answer : Question → Type) (Value : Type) : Type where
  | done (value : Value)
  | ask (question : Question) (next : Answer question → Dialogue Answer Value)

variable {Question : Type} {Answer : Question → Type} {Value Result Failure : Type}

namespace Dialogue

def bind (first : Dialogue Answer Value) (rest : Value → Dialogue Answer Result) :
    Dialogue Answer Result :=
  match first with
  | done value => rest value
  | ask question next => ask question fun answer => (next answer).bind rest

instance : Monad (Dialogue Answer) where
  pure := done
  bind := bind

/-- One question. -/
def question (question : Question) : Dialogue Answer (Answer question) := ask question done

/-- What a program comes to where each question is answered as told. -/
def given (answers : ∀ question, Answer question) : Dialogue Answer Value → Value
  | done value => value
  | ask question next => (next (answers question)).given answers

/-- Every question along every course is allowed, and every course ends as required. -/
def Meets (allowed : Question → Prop) (ends : Value → Prop) : Dialogue Answer Value → Prop
  | done value => ends value
  | ask question next => allowed question ∧ ∀ answer, (next answer).Meets allowed ends

end Dialogue

variable {allowed allowed' : Question → Prop} {ends ends' : Value → Prop}

theorem meets_pure {value : Value} (holds : ends value) :
    (pure value : Dialogue Answer Value).Meets allowed ends := holds

theorem meets_weaken {dialogue : Dialogue Answer Value} (meets : dialogue.Meets allowed ends)
    (weaker : ∀ value, ends value → ends' value) : dialogue.Meets allowed ends' := by
  induction dialogue with
  | done value => exact weaker value meets
  | ask question next ih => exact ⟨meets.1, fun answer => ih answer (meets.2 answer)⟩

theorem meets_question {asked : Question} {ends : Answer asked → Prop} (admitted : allowed asked)
    (holds : ∀ answer, ends answer) :
    (Dialogue.question asked : Dialogue Answer (Answer asked)).Meets allowed ends :=
  ⟨admitted, holds⟩

theorem meets_bind {middle : Value → Prop} {ends : Result → Prop} {first : Dialogue Answer Value}
    {rest : Value → Dialogue Answer Result} (head : first.Meets allowed middle)
    (tail : ∀ value, middle value → (rest value).Meets allowed ends) :
    (first >>= rest).Meets allowed ends := by
  induction first with
  | done value => exact tail value head
  | ask question next ih => exact ⟨head.1, fun answer => ih answer (head.2 answer)⟩

/-- What a condition on the values says of a course that may have failed. -/
def orFailed (ends : Value → Prop) : Except Failure Value → Prop
  | .ok value => ends value
  | .error _ => True

theorem meets_bind_except {middle : Value → Prop} {ends : Result → Prop}
    {first : ExceptT Failure (Dialogue Answer) Value}
    {rest : Value → ExceptT Failure (Dialogue Answer) Result}
    (head : first.run.Meets allowed (orFailed middle))
    (tail : ∀ value, middle value → (rest value).run.Meets allowed (orFailed ends)) :
    (first >>= rest).run.Meets allowed (orFailed ends) := by
  refine meets_bind head fun outcome reached => ?_
  cases outcome with
  | ok value => exact tail value reached
  | error failure => exact meets_pure trivial

theorem meets_pure_except {value : Value} (holds : ends value) :
    (pure value : ExceptT Failure (Dialogue Answer) Value).run.Meets allowed (orFailed ends) :=
  holds

theorem meets_liftExcept {outcome : Except Failure Value} (holds : orFailed ends outcome) :
    (ExceptT.mk (pure outcome) : ExceptT Failure (Dialogue Answer) Value).run.Meets allowed
      (orFailed ends) :=
  holds

theorem meets_lift_except {dialogue : Dialogue Answer Value} (meets : dialogue.Meets allowed ends) :
    (ExceptT.lift dialogue : ExceptT Failure (Dialogue Answer) Value).run.Meets allowed
      (orFailed ends) :=
  meets_bind meets fun _ holds => holds

end MeteredUsage.Library.Interaction

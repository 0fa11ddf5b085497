import Mathlib.Data.List.Basic

/-
Programs that put questions to someone else and wait for each answer: running one against
a server with a state, and what holds at its end whatever is answered.
-/

namespace MailPanel

/-- A program at its end, or at a question with what it does for each answer. -/
inductive Dialogue (Question : Type) (Answer : Question → Type) (Failure Value : Type) where
  | ended (result : Except Failure Value)
  | asks (question : Question) (next : Answer question → Dialogue Question Answer Failure Value)

namespace Dialogue

variable {Question : Type} {Answer : Question → Type} {Failure Other Value Next State : Type}

def bind : Dialogue Question Answer Failure Value →
    (Value → Dialogue Question Answer Failure Next) → Dialogue Question Answer Failure Next
  | .ended (.ok value), next => next value
  | .ended (.error failure), _ => .ended (.error failure)
  | .asks question after, next => .asks question fun answer => (after answer).bind next

def throw (failure : Failure) : Dialogue Question Answer Failure Value :=
  .ended (.error failure)

instance : Monad (Dialogue Question Answer Failure) where
  pure value := .ended (.ok value)
  bind := bind

def mapError (change : Failure → Other) :
    Dialogue Question Answer Failure Value → Dialogue Question Answer Other Value
  | .ended (.ok value) => .ended (.ok value)
  | .ended (.error failure) => .ended (.error (change failure))
  | .asks question next => .asks question fun answer => (next answer).mapError change

/-- Asks the last question whatever the result, and keeps the result whatever is answered. -/
def closing (last : Question) :
    Dialogue Question Answer Failure Value → Dialogue Question Answer Failure Value
  | .ended result => .asks last fun _ => .ended result
  | .asks question next => .asks question fun answer => (next answer).closing last

/-- The program against a server that answers each question and goes on to another state. -/
def run (serve : State → (question : Question) → Answer question × State) :
    Dialogue Question Answer Failure Value → State → Except Failure Value × State
  | .ended result, state => (result, state)
  | .asks question next, state =>
      (next (serve state question).1).run serve (serve state question).2

section Running

variable (serve : State → (question : Question) → Answer question × State)

@[simp]
theorem run_ended (result : Except Failure Value) (state : State) :
    (ended result : Dialogue Question Answer Failure Value).run serve state = (result, state) :=
  rfl

@[simp]
theorem run_pure (value : Value) (state : State) :
    (pure value : Dialogue Question Answer Failure Value).run serve state =
      (.ok value, state) :=
  rfl

@[simp]
theorem run_throw (failure : Failure) (state : State) :
    (throw failure : Dialogue Question Answer Failure Value).run serve state =
      (.error failure, state) :=
  rfl

@[simp]
theorem run_asks (question : Question)
    (next : Answer question → Dialogue Question Answer Failure Value) (state : State) :
    (asks question next).run serve state =
      (next (serve state question).1).run serve (serve state question).2 :=
  rfl

theorem run_bind (program : Dialogue Question Answer Failure Value)
    (next : Value → Dialogue Question Answer Failure Next) (state : State) :
    (program >>= next).run serve state =
      match program.run serve state with
      | (.ok value, after) => (next value).run serve after
      | (.error failure, after) => (.error failure, after) := by
  induction program generalizing state with
  | ended result =>
      cases result with
      | ok value => rfl
      | error failure => rfl
  | asks question after ih => exact ih (serve state question).1 (serve state question).2

theorem run_mapError (change : Failure → Other)
    (program : Dialogue Question Answer Failure Value) (state : State) :
    (program.mapError change).run serve state =
      ((program.run serve state).1.mapError change, (program.run serve state).2) := by
  induction program generalizing state with
  | ended result =>
      cases result with
      | ok value => rfl
      | error failure => rfl
  | asks question next ih => exact ih (serve state question).1 (serve state question).2

theorem run_closing (last : Question) (program : Dialogue Question Answer Failure Value)
    (state : State) :
    (program.closing last).run serve state =
      ((program.run serve state).1, (serve (program.run serve state).2 last).2) := by
  induction program generalizing state with
  | ended result => rfl
  | asks question next ih => exact ih (serve state question).1 (serve state question).2

end Running

end Dialogue

end MailPanel

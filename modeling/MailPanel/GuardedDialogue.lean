import MailPanel.Dialogue

/-
What a dialogue may ask, judged at each question by everything that was answered before it.
-/

namespace MailPanel

namespace Dialogue

variable {Question : Type} {Answer : Question → Type} {Failure Value Next : Type}

/-- A question with its answer. -/
structure Exchange (Question : Type) (Answer : Question → Type) where
  question : Question
  answer : Answer question

/-- What is left of a program after some exchanges, whatever the answers are. It lists the
exchanges in the order in which they were made, so a property of a run is one of every prefix of
it. -/
inductive Follows (program : Dialogue Question Answer Failure Value) :
    List (Exchange Question Answer) → Dialogue Question Answer Failure Value → Prop
  | start : Follows program [] program
  | answered {before : List (Exchange Question Answer)} {question : Question}
      {next : Answer question → Dialogue Question Answer Failure Value}
      (hbefore : Follows program before (.asks question next)) (answer : Answer question) :
      Follows program (before ++ [⟨question, answer⟩]) (next answer)

/-- Every question is allowed after the exchanges before it, and the result is as it should be
after all of them. -/
def Guarded (Allowed : List (Exchange Question Answer) → Question → Prop)
    (Post : List (Exchange Question Answer) → Except Failure Value → Prop) :
    Dialogue Question Answer Failure Value → List (Exchange Question Answer) → Prop
  | .ended result, before => Post before result
  | .asks question next, before =>
      Allowed before question ∧
        ∀ answer, (next answer).Guarded Allowed Post (before ++ [⟨question, answer⟩])

section Guarding

variable {Allowed : List (Exchange Question Answer) → Question → Prop}
  {Post : List (Exchange Question Answer) → Except Failure Value → Prop}
  {program rest : Dialogue Question Answer Failure Value}
  {before : List (Exchange Question Answer)}

theorem Follows.guarded (hfollows : Follows program before rest)
    (hguarded : program.Guarded Allowed Post []) : rest.Guarded Allowed Post before := by
  induction hfollows with
  | start => exact hguarded
  | answered _ answer ih => exact ih.2 answer

theorem guarded_bind {next : Value → Dialogue Question Answer Failure Next}
    {Middle : List (Exchange Question Answer) → Except Failure Value → Prop}
    {Last : List (Exchange Question Answer) → Except Failure Next → Prop}
    (hprogram : program.Guarded Allowed Middle before)
    (hok : ∀ after value, Middle after (.ok value) → (next value).Guarded Allowed Last after)
    (herror : ∀ after failure, Middle after (.error failure) → Last after (.error failure)) :
    (program >>= next).Guarded Allowed Last before := by
  induction program generalizing before with
  | ended result =>
      cases result with
      | ok value => exact hok before value hprogram
      | error failure => exact herror before failure hprogram
  | asks question after ih => exact ⟨hprogram.1, fun answer => ih answer (hprogram.2 answer)⟩

theorem guarded_mapError {Other : Type} {change : Failure → Other}
    {Last : List (Exchange Question Answer) → Except Other Value → Prop}
    (hprogram : program.Guarded Allowed (fun after result => Last after (result.mapError change))
      before) : (program.mapError change).Guarded Allowed Last before := by
  induction program generalizing before with
  | ended result =>
      cases result with
      | ok value => exact hprogram
      | error failure => exact hprogram
  | asks question next ih => exact ⟨hprogram.1, fun answer => ih answer (hprogram.2 answer)⟩

theorem guarded_mono {Other : List (Exchange Question Answer) → Except Failure Value → Prop}
    (hguarded : program.Guarded Allowed Post before)
    (hpost : ∀ after result, Post after result → Other after result) :
    program.Guarded Allowed Other before := by
  induction program generalizing before with
  | ended result => exact hpost before result hguarded
  | asks question next ih => exact ⟨hguarded.1, fun answer => ih answer (hguarded.2 answer)⟩

end Guarding

end Dialogue

end MailPanel

import Mathlib.Data.List.Basic

/-
Runs of a deterministic step function under a sequence of labels, and the
invariants of runs whose steps all meet a condition on the state before them.
-/

namespace MailPanel

namespace StepRun

variable {State Label : Type} (step : State → Label → State)

def run (start : State) (labels : List Label) : State :=
  labels.foldl step start

@[simp]
theorem run_nil (start : State) : run step start [] = start :=
  rfl

@[simp]
theorem run_cons (start : State) (label : Label) (labels : List Label) :
    run step start (label :: labels) = run step (step start label) labels :=
  rfl

theorem run_append (start : State) (first second : List Label) :
    run step start (first ++ second) = run step (run step start first) second :=
  List.foldl_append

/-- Every step of the run meets the condition in the state it starts from. -/
def Meets (condition : State → Label → Prop) (start : State) : List Label → Prop
  | [] => True
  | label :: labels => condition start label ∧ Meets condition (step start label) labels

instance decidableMeets {condition : State → Label → Prop}
    [∀ state label, Decidable (condition state label)] (start : State) :
    (labels : List Label) → Decidable (Meets step condition start labels)
  | [] => isTrue trivial
  | label :: labels =>
      have : Decidable (Meets step condition (step start label) labels) :=
        decidableMeets (step start label) labels
      inferInstanceAs (Decidable (condition start label ∧
        Meets step condition (step start label) labels))

theorem meets_append {condition : State → Label → Prop} {start : State}
    {first second : List Label} :
    Meets step condition start (first ++ second) ↔
      Meets step condition start first ∧
        Meets step condition (run step start first) second := by
  induction first generalizing start with
  | nil => simp [Meets]
  | cons label labels ih => simp [Meets, ih, and_assoc]

theorem meets_of_forall {condition : State → Label → Prop} {start : State}
    {labels : List Label} (h : ∀ label ∈ labels, ∀ state, condition state label) :
    Meets step condition start labels := by
  induction labels generalizing start with
  | nil => exact trivial
  | cons label labels ih =>
      refine ⟨h label List.mem_cons_self start, ih ?_⟩
      exact fun other hother => h other (List.mem_cons_of_mem label hother)

/-- Every step meets the condition in the state that the steps before it lead to. -/
theorem meets_iff {condition : State → Label → Prop} {start : State} {labels : List Label} :
    Meets step condition start labels ↔ ∀ before label after,
      labels = before ++ label :: after → condition (run step start before) label := by
  constructor
  · intro hmeets before label after heq
    rw [heq, meets_append] at hmeets
    exact hmeets.2.1
  · intro hcondition
    induction labels generalizing start with
    | nil => exact trivial
    | cons first rest ih =>
        refine ⟨hcondition [] first rest rfl, ih ?_⟩
        intro before label after heq
        exact hcondition (first :: before) label after (by rw [heq]; rfl)

/-- The run lemma: what each conditioned step preserves, the run preserves. -/
theorem invariant_of_meets (Invariant : State → Prop) {condition : State → Label → Prop}
    (hstep : ∀ state label, Invariant state → condition state label →
      Invariant (step state label))
    {start : State} {labels : List Label} (hstart : Invariant start)
    (hmeets : Meets step condition start labels) : Invariant (run step start labels) := by
  induction labels generalizing start with
  | nil => exact hstart
  | cons label labels ih => exact ih (hstep start label hstart hmeets.1) hmeets.2

/-- What an invariant and the condition give at each step, every step of the run has. -/
theorem meets_of_meets (Invariant : State → Prop) {condition property : State → Label → Prop}
    (hstep : ∀ state label, Invariant state → condition state label →
      property state label ∧ Invariant (step state label))
    {start : State} {labels : List Label} (hstart : Invariant start)
    (hmeets : Meets step condition start labels) : Meets step property start labels := by
  induction labels generalizing start with
  | nil => exact trivial
  | cons label labels ih =>
      obtain ⟨hnow, hnext⟩ := hstep start label hstart hmeets.1
      exact ⟨hnow, ih hnext hmeets.2⟩

theorem invariant_of_run (Invariant : State → Prop)
    (hstep : ∀ state label, Invariant state → Invariant (step state label))
    {start : State} (labels : List Label) (hstart : Invariant start) :
    Invariant (run step start labels) := by
  induction labels generalizing start with
  | nil => exact hstart
  | cons label labels ih => exact ih (hstep start label hstart)

/-- How many steps of the run are of this kind. -/
def occurrences (happens : State → Label → Bool) : State → List Label → Nat
  | _, [] => 0
  | start, label :: labels =>
      (if happens start label then 1 else 0) + occurrences happens (step start label) labels

theorem occurrences_eq_zero {happens : State → Label → Bool} (Done : State → Prop)
    (hdone : ∀ state label, Done state → happens state label = false ∧ Done (step state label))
    {start : State} (labels : List Label) (hstart : Done start) :
    occurrences step happens start labels = 0 := by
  induction labels generalizing start with
  | nil => rfl
  | cons label labels ih =>
      obtain ⟨hnot, hnext⟩ := hdone start label hstart
      rw [occurrences, hnot, ih hnext]
      rfl

/-- What is done for good when it happens happens at most once. -/
theorem occurrences_le_one {happens : State → Label → Bool} (Invariant Done : State → Prop)
    (hinvariant : ∀ state label, Invariant state → Invariant (step state label))
    (hhappens : ∀ state label, Invariant state → happens state label = true →
      Done (step state label))
    (hdone : ∀ state label, Done state → happens state label = false ∧ Done (step state label))
    {start : State} (labels : List Label) (hstart : Invariant start) :
    occurrences step happens start labels ≤ 1 := by
  induction labels generalizing start with
  | nil => exact Nat.zero_le 1
  | cons label labels ih =>
      rw [occurrences]
      by_cases hnow : happens start label = true
      · have hlater := occurrences_eq_zero step Done hdone labels
          (hhappens start label hstart hnow)
        exact Nat.le_of_eq (by rw [if_pos hnow, hlater])
      · rw [if_neg hnow, Nat.zero_add]
        exact ih (hinvariant start label hstart)

end StepRun

end MailPanel

import Mathlib.Data.List.Basic

/-
Histories of events, newest first: what every event says about the history before it,
and whether something has happened since an event.
-/

namespace MailPanel

namespace EventHistory

variable {Event : Type}

section Each

variable {Before : Event → List Event → Prop}

/-- Every event stands in a relation to the history before it. -/
def Each (Before : Event → List Event → Prop) (history : List Event) : Prop :=
  ∀ newer event older, history = newer ++ event :: older → Before event older

theorem each_nil : Each Before [] := by
  intro newer event older hsplit
  simp at hsplit

theorem each_cons {event : Event} {history : List Event} :
    Each Before (event :: history) ↔ Before event history ∧ Each Before history := by
  constructor
  · intro h
    refine ⟨h [] event history rfl, ?_⟩
    intro newer other older hsplit
    exact h (event :: newer) other older (by rw [hsplit, List.cons_append])
  · rintro ⟨hevent, hhistory⟩ newer other older hsplit
    cases newer with
    | nil =>
        obtain ⟨rfl, rfl⟩ := List.cons_eq_cons.mp hsplit
        exact hevent
    | cons first newer =>
        exact hhistory newer other older (List.cons_eq_cons.mp hsplit).2

/-- Events that stand in the relation to every history change nothing. -/
theorem each_append {events history : List Event}
    (hevents : ∀ event ∈ events, ∀ older, Before event older)
    (hhistory : Each Before history) : Each Before (events ++ history) := by
  induction events with
  | nil => exact hhistory
  | cons event events ih =>
      rw [List.cons_append, each_cons]
      refine ⟨hevents event List.mem_cons_self _, ih ?_⟩
      exact fun other hother => hevents other (List.mem_cons_of_mem event hother)

end Each

section Since

variable {ends : Event → Prop} {mark : Event} {history : List Event}

/-- The marked event happened, and nothing has ended it since. -/
def Since (ends : Event → Prop) (mark : Event) (history : List Event) : Prop :=
  ∃ newer older, history = newer ++ mark :: older ∧ ∀ event ∈ newer, ¬ ends event

theorem since_cons_self : Since ends mark (mark :: history) :=
  ⟨[], history, rfl, by simp⟩

/-- Right after an event that ends it, nothing marked is still on. -/
theorem not_since_cons {event : Event} (hends : ends event) (hother : event ≠ mark) :
    ¬ Since ends mark (event :: history) := by
  rintro ⟨newer, older, hsplit, hnewer⟩
  cases newer with
  | nil => exact hother (List.cons_eq_cons.mp hsplit).1
  | cons first newer =>
      have hfirst : event = first := (List.cons_eq_cons.mp hsplit).1
      exact hnewer first List.mem_cons_self (hfirst ▸ hends)

theorem Since.append {events : List Event} (h : Since ends mark history)
    (hevents : ∀ event ∈ events, ¬ ends event) : Since ends mark (events ++ history) := by
  obtain ⟨newer, older, rfl, hnewer⟩ := h
  refine ⟨events ++ newer, older, (List.append_assoc _ _ _).symm, ?_⟩
  intro event hevent
  rcases List.mem_append.mp hevent with hevent | hevent
  · exact hevents event hevent
  · exact hnewer event hevent

theorem Since.mem (h : Since ends mark history) : mark ∈ history := by
  obtain ⟨newer, older, rfl, -⟩ := h
  exact List.mem_append_right newer List.mem_cons_self

end Since

end EventHistory

end MailPanel

import Mathlib.Data.List.Basic

/-
Calls that may fail, one after the other or with a last one in a `finally`: which failures
occur, and which of them is thrown in the end.
-/

namespace MailPanel

namespace TryFinally

/-- The failures of some calls in the order they occurred, and the one that is thrown. -/
structure Attempt (Failure : Type) where
  failures : List Failure
  thrown : Option Failure
  clean : thrown = none ↔ failures = []

namespace Attempt

variable {Failure : Type}

/-- One call, which does what it does or throws. The larger attempts are made of these. -/
def call (outcome : Option Failure) : Attempt Failure where
  failures := outcome.toList
  thrown := outcome
  clean := by
    cases outcome with
    | none => exact iff_of_true rfl rfl
    | some failure => exact iff_of_false nofun nofun

/-- The second call is made if the first does not throw. What failed of either is kept, and the
whole throws what its first failing part threw. -/
def andThen (first second : Attempt Failure) : Attempt Failure where
  failures := if first.thrown.isNone then first.failures ++ second.failures else first.failures
  thrown := if first.thrown.isNone then second.thrown else first.thrown
  clean := by
    cases hthrown : first.thrown with
    | none =>
        rw [first.clean.mp hthrown]
        exact second.clean
    | some failure =>
        have hsome : first.failures ≠ [] := by
          intro hnil
          rw [first.clean.mpr hnil] at hthrown
          cases hthrown
        exact iff_of_false nofun hsome

/-- `try { body } finally { last }`: what the last call throws takes the place of what the
body has thrown. -/
def lastly (body last : Attempt Failure) : Attempt Failure where
  failures := body.failures ++ last.failures
  thrown := last.thrown.or body.thrown
  clean := by
    rw [Option.or_eq_none_iff, List.append_eq_nil_iff, last.clean, body.clean, and_comm]

/-- What is thrown is what failed first. -/
def ThrowsFirst (attempt : Attempt Failure) : Prop := attempt.thrown = attempt.failures.head?

variable {first second body last : Attempt Failure}

theorem andThen_failures (first second : Attempt Failure) : (first.andThen second).failures =
    if first.thrown.isNone then first.failures ++ second.failures else first.failures :=
  rfl

theorem andThen_thrown (first second : Attempt Failure) : (first.andThen second).thrown =
    if first.thrown.isNone then second.thrown else first.thrown :=
  rfl

theorem lastly_failures (body last : Attempt Failure) :
    (body.lastly last).failures = body.failures ++ last.failures :=
  rfl

theorem lastly_thrown (body last : Attempt Failure) :
    (body.lastly last).thrown = last.thrown.or body.thrown :=
  rfl

theorem call_throwsFirst (outcome : Option Failure) : (call outcome).ThrowsFirst := by
  cases outcome with
  | none => rfl
  | some failure => rfl

@[simp]
theorem call_thrown (outcome : Option Failure) : (call outcome).thrown = outcome := rfl

theorem andThen_thrown_eq_none_iff :
    (first.andThen second).thrown = none ↔ first.thrown = none ∧ second.thrown = none := by
  rw [andThen_thrown]
  cases hthrown : first.thrown with
  | none => simp
  | some failure => simp

theorem lastly_thrown_eq_none_iff :
    (body.lastly last).thrown = none ↔ body.thrown = none ∧ last.thrown = none := by
  rw [lastly_thrown, Option.or_eq_none_iff, and_comm]

theorem mem_andThen {failure : Failure} (hmem : failure ∈ (first.andThen second).failures) :
    failure ∈ first.failures ∨ failure ∈ second.failures := by
  rw [andThen_failures] at hmem
  cases hthrown : first.thrown with
  | none => simpa [hthrown] using hmem
  | some thrown =>
      simp only [hthrown, Option.isNone_some, Bool.false_eq_true, ↓reduceIte] at hmem
      exact Or.inl hmem

theorem thrown_eq_none_throwsFirst (hthrown : first.thrown = none) : first.ThrowsFirst := by
  rw [ThrowsFirst, hthrown, first.clean.mp hthrown]
  rfl

theorem andThen_throwsFirst_iff :
    (first.andThen second).ThrowsFirst ↔
      first.ThrowsFirst ∧ (first.thrown = none → second.ThrowsFirst) := by
  rw [ThrowsFirst, andThen_thrown, andThen_failures]
  cases hthrown : first.thrown with
  | none =>
      rw [first.clean.mp hthrown, and_iff_right (thrown_eq_none_throwsFirst hthrown)]
      exact ⟨fun hsecond _ => hsecond, fun hsecond => hsecond rfl⟩
  | some failure =>
      rw [ThrowsFirst, hthrown]
      exact ⟨fun hfirst => ⟨hfirst, nofun⟩, fun hfirst => hfirst.1⟩

/-- A last call that throws hides a failure before it. Elsewhere the whole throws its first
failure. -/
theorem lastly_throwsFirst_iff (hlast : last.ThrowsFirst)
    (hapart : ∀ failure ∈ last.failures, failure ∉ body.failures) :
    (body.lastly last).ThrowsFirst ↔
      (last.thrown = none → body.ThrowsFirst) ∧ (body.thrown = none ∨ last.thrown = none) := by
  rw [ThrowsFirst, lastly_thrown, lastly_failures]
  cases hlastly : last.thrown with
  | none =>
      rw [last.clean.mp hlastly, List.append_nil]
      exact ⟨fun hbody => ⟨fun _ => hbody, Or.inr rfl⟩, fun hbody => hbody.1 rfl⟩
  | some failure =>
      rw [ThrowsFirst, hlastly] at hlast
      cases hthrown : body.thrown with
      | none =>
          rw [body.clean.mp hthrown, List.nil_append]
          exact iff_of_true hlast ⟨nofun, Or.inl rfl⟩
      | some earlier =>
          refine iff_of_false ?_ (by simp)
          have hsome : body.failures ≠ [] := by
            intro hnil
            rw [body.clean.mpr hnil] at hthrown
            cases hthrown
          obtain ⟨front, rest, hrest⟩ := List.exists_cons_of_ne_nil hsome
          rw [hrest, List.cons_append, List.head?_cons]
          intro hsame
          apply hapart failure (List.mem_of_mem_head? hlast.symm)
          rw [hrest, Option.some.inj hsame]
          exact List.mem_cons_self

end Attempt

end TryFinally

end MailPanel

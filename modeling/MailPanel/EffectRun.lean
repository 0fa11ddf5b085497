import Mathlib.Logic.Basic

/-
Runs of effectful code that may throw.  A thrown error keeps the state reached
so far, so what an interrupted run leaves behind can be stated.
-/

namespace MailPanel

/-- Code over a state `σ` that may throw an `ε`; the state survives the throw. -/
abbrev Effect (ε σ α : Type) := ExceptT ε (StateM σ) α

namespace Effect

variable {ε σ α β : Type}

/-- From `before` the code returns `value` and leaves `after`. -/
def Returns (code : Effect ε σ α) (before : σ) (value : α) (after : σ) : Prop :=
  code.run.run before = (.ok value, after)

/-- From `before` the code throws `error` and leaves `after`. -/
def Throws (code : Effect ε σ α) (before : σ) (error : ε) (after : σ) : Prop :=
  code.run.run before = (.error error, after)

theorem returns_pure (value : α) (state : σ) :
    Returns (pure value : Effect ε σ α) state value state :=
  rfl

theorem Returns.bind {first : Effect ε σ α} {next : α → Effect ε σ β}
    {before middle after : σ} {a : α} {b : β} (hfirst : Returns first before a middle)
    (hnext : Returns (next a) middle b after) :
    Returns (first >>= next) before b after := by
  simp only [Returns, ExceptT.run_bind, StateT.run_bind] at *
  rw [hfirst]
  exact hnext

theorem Returns.bind_throws {first : Effect ε σ α} {next : α → Effect ε σ β}
    {before middle after : σ} {a : α} {error : ε} (hfirst : Returns first before a middle)
    (hnext : Throws (next a) middle error after) :
    Throws (first >>= next) before error after := by
  simp only [Returns, Throws, ExceptT.run_bind, StateT.run_bind] at *
  rw [hfirst]
  exact hnext

theorem Throws.bind {first : Effect ε σ α} (next : α → Effect ε σ β)
    {before after : σ} {error : ε} (hfirst : Throws first before error after) :
    Throws (first >>= next) before error after := by
  simp only [Throws, ExceptT.run_bind, StateT.run_bind] at *
  rw [hfirst]
  rfl

/-- What a handler makes of the body's result and of the state it left. -/
theorem run_tryCatch (body : Effect ε σ α) (handler : ε → Effect ε σ α) (before : σ) :
    (MonadExcept.tryCatch body handler).run.run before =
      match body.run.run before with
      | (.ok a, after) => (.ok a, after)
      | (.error error, after) => (handler error).run.run after := by
  have hbind : (MonadExcept.tryCatch body handler).run.run before =
      (match body.run.run before with
      | (result, after) => (match result with
        | .ok a => (pure (.ok a) : StateM σ (Except ε α))
        | .error error => handler error) after) := rfl
  rw [hbind]
  rcases body.run.run before with ⟨_ | _, after⟩ <;> rfl

theorem Returns.tryCatch {body : Effect ε σ α} (handler : ε → Effect ε σ α)
    {before after : σ} {a : α} (hbody : Returns body before a after) :
    Returns (MonadExcept.tryCatch body handler) before a after := by
  rw [Returns, run_tryCatch, hbody]

theorem Throws.tryCatch {body : Effect ε σ α} {handler : ε → Effect ε σ α}
    {before middle after : σ} {error : ε} {a : α} (hbody : Throws body before error middle)
    (hhandler : Returns (handler error) middle a after) :
    Returns (MonadExcept.tryCatch body handler) before a after := by
  rw [Returns, run_tryCatch, hbody]
  exact hhandler

/-- Every run ends in one of the two ways. -/
theorem returns_or_throws (code : Effect ε σ α) (before : σ) :
    (∃ a, Returns code before a (code.run.run before).2) ∨
      ∃ error, Throws code before error (code.run.run before).2 := by
  rcases hrun : code.run.run before with ⟨error | a, after⟩
  · exact Or.inr ⟨error, hrun⟩
  · exact Or.inl ⟨a, hrun⟩

/-- Caught code leaves the state it had reached, and a value of its own or the
fallback. -/
theorem returns_caught (code : Effect ε σ α) (fallback : α) (before : σ) :
    ∃ a, Returns (MonadExcept.tryCatch code fun _ => pure fallback) before a
      (code.run.run before).2 := by
  rcases returns_or_throws code before with ⟨a, hreturns⟩ | ⟨error, hthrows⟩
  · exact ⟨a, hreturns.tryCatch _⟩
  · exact ⟨fallback, hthrows.tryCatch (returns_pure _ _)⟩

/-- The state a run leaves, whether it returns or throws. -/
def final (code : Effect ε σ α) (before : σ) : σ :=
  (code.run.run before).2

theorem Returns.final_eq {code : Effect ε σ α} {before after : σ} {a : α}
    (h : Returns code before a after) : final code before = after := by
  rw [final, h]

theorem Throws.final_eq {code : Effect ε σ α} {before after : σ} {error : ε}
    (h : Throws code before error after) : final code before = after := by
  rw [final, h]

/- What a run went through -/

theorem run_bind (first : Effect ε σ α) (next : α → Effect ε σ β) (before : σ) :
    (first >>= next).run.run before =
      match first.run.run before with
      | (.ok a, middle) => (next a).run.run middle
      | (.error error, middle) => (.error error, middle) := by
  rw [ExceptT.run_bind, StateT.run_bind]
  rcases first.run.run before with ⟨_ | _, middle⟩ <;> rfl

theorem Returns.final {code : Effect ε σ α} {before after : σ} {a : α}
    (hreturns : Returns code before a after) : Returns code before a (final code before) := by
  rw [hreturns.final_eq]
  exact hreturns

theorem returns_bind_iff {first : Effect ε σ α} {next : α → Effect ε σ β} {before after : σ}
    {b : β} : Returns (first >>= next) before b after ↔
      ∃ a middle, Returns first before a middle ∧ Returns (next a) middle b after := by
  constructor
  · intro hreturns
    rw [Returns, run_bind] at hreturns
    rcases hfirst : first.run.run before with ⟨error | a, middle⟩
    · rw [hfirst] at hreturns
      cases hreturns
    · rw [hfirst] at hreturns
      exact ⟨a, middle, hfirst, hreturns⟩
  · rintro ⟨a, middle, hfirst, hnext⟩
    exact hfirst.bind hnext

theorem throws_bind_iff {first : Effect ε σ α} {next : α → Effect ε σ β} {before after : σ}
    {error : ε} : Throws (first >>= next) before error after ↔
      Throws first before error after ∨
        ∃ a middle, Returns first before a middle ∧ Throws (next a) middle error after := by
  constructor
  · intro hthrows
    rw [Throws, run_bind] at hthrows
    rcases hfirst : first.run.run before with ⟨thrown | a, middle⟩
    · rw [hfirst] at hthrows
      obtain ⟨herror, hstate⟩ := Prod.mk.inj hthrows
      rw [Except.error.inj herror, hstate] at hfirst
      exact Or.inl hfirst
    · rw [hfirst] at hthrows
      exact Or.inr ⟨a, middle, hfirst, hthrows⟩
  · rintro (hfirst | ⟨a, middle, hfirst, hnext⟩)
    · exact hfirst.bind next
    · exact hfirst.bind_throws hnext

theorem returns_pure_iff {value a : α} {before after : σ} :
    Returns (pure value : Effect ε σ α) before a after ↔ value = a ∧ before = after := by
  constructor
  · intro hreturns
    obtain ⟨hvalue, hstate⟩ := Prod.mk.inj hreturns
    exact ⟨Except.ok.inj hvalue, hstate⟩
  · rintro ⟨rfl, rfl⟩
    exact returns_pure value before

theorem not_throws_pure {value : α} {before after : σ} {error : ε} :
    ¬ Throws (pure value : Effect ε σ α) before error after := by
  intro hthrows
  cases (Prod.mk.inj hthrows).1

theorem throws_throw_iff {error thrown : ε} {before after : σ} :
    Throws (throw error : Effect ε σ α) before thrown after ↔
      error = thrown ∧ before = after := by
  constructor
  · intro hthrows
    obtain ⟨herror, hstate⟩ := Prod.mk.inj hthrows
    exact ⟨Except.error.inj herror, hstate⟩
  · rintro ⟨rfl, rfl⟩
    rfl

theorem not_returns_throw {error : ε} {before after : σ} {a : α} :
    ¬ Returns (throw error : Effect ε σ α) before a after := by
  intro hreturns
  cases (Prod.mk.inj hreturns).1

/-- Code in a `try` whose handler throws the error on after some cleaning up. -/
theorem returns_rethrowing_iff {body : Effect ε σ α} {undo : Effect ε σ Unit} {before after : σ}
    {a : α} :
    Returns (MonadExcept.tryCatch body fun error => do undo; throw error) before a after ↔
      Returns body before a after := by
  constructor
  · intro hreturns
    rcases hbody : body.run.run before with ⟨error | value, middle⟩
    · rw [Returns, run_tryCatch, hbody] at hreturns
      obtain ⟨_, _, _, hthrow⟩ := returns_bind_iff.mp hreturns
      exact absurd hthrow not_returns_throw
    · rw [Returns, run_tryCatch, hbody] at hreturns
      exact hbody.trans hreturns
  · exact Returns.tryCatch _

theorem throws_rethrowing_iff {body : Effect ε σ α} {undo : Effect ε σ Unit}
    (hundo : ∀ state, Returns undo state () (final undo state)) {before after : σ} {error : ε} :
    Throws (MonadExcept.tryCatch body fun error => do undo; throw error) before error after ↔
      ∃ middle, Throws body before error middle ∧ after = final undo middle := by
  have hcaught : ∀ thrown middle, Throws body before thrown middle →
      (Throws (MonadExcept.tryCatch body fun error => do undo; throw error) before error after ↔
        thrown = error ∧ final undo middle = after) := by
    intro thrown middle hbody
    have hhandler : Throws (do undo; throw thrown : Effect ε σ α) middle thrown
        (final undo middle) :=
      (hundo middle).bind_throws (throws_throw_iff.mpr ⟨rfl, rfl⟩)
    rw [Throws, run_tryCatch, hbody]
    dsimp only
    rw [hhandler, Prod.mk.injEq, Except.error.injEq]
  constructor
  · intro hthrows
    rcases hbody : body.run.run before with ⟨thrown | value, middle⟩
    · obtain ⟨rfl, rfl⟩ := (hcaught thrown middle hbody).mp hthrows
      exact ⟨middle, hbody, rfl⟩
    · rw [Throws, run_tryCatch, hbody] at hthrows
      cases (Prod.mk.inj hthrows).1
  · rintro ⟨middle, hbody, rfl⟩
    exact (hcaught error middle hbody).mpr ⟨rfl, rfl⟩

/-- `start; try { code; finish } catch (error) { undo; throw error }`. -/
def bracket (start finish undo : Effect ε σ Unit) (code : Effect ε σ α) : Effect ε σ α := do
  start
  tryCatch (do let result ← code; finish; return result) fun error => do undo; throw error

variable {start finish undo : Effect ε σ Unit} {code : Effect ε σ α}

theorem returns_bracket_iff {before after : σ} {a : α} :
    Returns (bracket start finish undo code) before a after ↔
      ∃ opened inner, Returns start before () opened ∧ Returns code opened a inner ∧
        Returns finish inner () after := by
  constructor
  · intro hreturns
    obtain ⟨_, opened, hstart, htry⟩ := returns_bind_iff.mp hreturns
    obtain ⟨result, inner, hcode, hrest⟩ := returns_bind_iff.mp (returns_rethrowing_iff.mp htry)
    obtain ⟨_, closed, hfinish, hpure⟩ := returns_bind_iff.mp hrest
    obtain ⟨rfl, rfl⟩ := returns_pure_iff.mp hpure
    exact ⟨opened, inner, hstart, hcode, hfinish⟩
  · rintro ⟨opened, inner, hstart, hcode, hfinish⟩
    have hbody : Returns (do let result ← code; finish; return result) opened a after :=
      hcode.bind (hfinish.bind (returns_pure a after))
    exact hstart.bind (returns_rethrowing_iff.mpr hbody)

theorem throws_bracket_iff (hundo : ∀ state, Returns undo state () (final undo state))
    {before after : σ} {error : ε} :
    Throws (bracket start finish undo code) before error after ↔
      Throws start before error after ∨
        ∃ opened middle, Returns start before () opened ∧
          (Throws code opened error middle ∨
            ∃ a inner, Returns code opened a inner ∧ Throws finish inner error middle) ∧
          after = final undo middle := by
  have hbody : ∀ opened middle, Throws (do let result ← code; finish; return result)
      opened error middle ↔ Throws code opened error middle ∨
        ∃ a inner, Returns code opened a inner ∧ Throws finish inner error middle := by
    intro opened middle
    rw [throws_bind_iff]
    refine or_congr_right ?_
    refine exists_congr fun a => exists_congr fun inner => and_congr_right fun _ => ?_
    rw [throws_bind_iff]
    exact or_iff_left fun ⟨_, _, _, hpure⟩ => not_throws_pure hpure
  constructor
  · intro hthrows
    refine (throws_bind_iff.mp hthrows).imp_right ?_
    rintro ⟨_, opened, hstart, htry⟩
    obtain ⟨middle, hmiddle, hafter⟩ := (throws_rethrowing_iff hundo).mp htry
    exact ⟨opened, middle, hstart, (hbody opened middle).mp hmiddle, hafter⟩
  · rintro (hstart | ⟨opened, middle, hstart, hmiddle, hafter⟩)
    · exact hstart.bind _
    · exact hstart.bind_throws
        ((throws_rethrowing_iff hundo).mpr ⟨middle, (hbody opened middle).mpr hmiddle, hafter⟩)

end Effect

end MailPanel

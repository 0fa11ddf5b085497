import Mathlib.Data.List.Nodup
import MailPanel.StepRun

/-
The semaphore that bounds the IMAP sessions of a mailbox, one microtask at a time.
-/

namespace MailPanel

namespace MailSemaphore

open StepRun

/-- Where a call of `run` is. Between being woken and running lies a microtask, and so does one
between the end of the task and the release of its slot; other calls may come in between. -/
inductive Phase where
  /-- Behind the promise that it pushed on the waiters. -/
  | waiting
  /-- The promise is resolved; the microtask that goes on is pending. -/
  | woken
  | running
  /-- The task has resolved or rejected; the microtask of the `finally` is pending. -/
  | settled
  | finished
deriving DecidableEq, Repr

structure Semaphore where
  limit : Nat
  active : Nat
  waiters : List Nat
  calls : List Phase
deriving DecidableEq, Repr

inductive Label where
  | run
  | settle (call : Nat)
  | microtask (call : Nat)
deriving DecidableEq, Repr

namespace Semaphore

def initial (limit : Nat) : Semaphore := ⟨limit, 0, [], []⟩

variable (s : Semaphore)

def begin : Semaphore :=
  if s.active ≥ s.limit then
    { s with waiters := s.waiters ++ [s.calls.length], calls := s.calls ++ [.waiting] }
  else { s with active := s.active + 1, calls := s.calls ++ [.running] }

/-- The `finally` of a call, which wakes the first waiter. The slot is free from here on,
although the waiter takes it only in a later microtask. -/
def release (call : Nat) : Semaphore :=
  let calls := s.calls.set call .finished
  match s.waiters with
  | [] => { s with active := s.active - 1, calls := calls }
  | first :: rest =>
      { s with active := s.active - 1, waiters := rest, calls := calls.set first .woken }

def step : Label → Semaphore
  | .run => s.begin
  | .settle call =>
      if s.calls[call]? = some .running then { s with calls := s.calls.set call .settled } else s
  | .microtask call =>
      match s.calls[call]? with
      | some .woken => { s with active := s.active + 1, calls := s.calls.set call .running }
      | some .settled => s.release call
      | _ => s

def count (phase : Phase) : Nat := s.calls.count phase

/-- No more tasks than the limit are in progress, and while there is room none waits behind
the last microtask. -/
structure Fair : Prop where
  bounded : s.count .running ≤ s.limit
  served : s.count .woken = 0 → s.count .settled = 0 → s.count .running < s.limit →
    s.count .waiting = 0

/-- A new call overtakes no woken one: there is room for both, or for neither. -/
def OvertakesNone : Label → Prop
  | .run => s.active + s.count .woken < s.limit ∨ s.limit ≤ s.active
  | _ => True

instance : (label : Label) → Decidable (s.OvertakesNone label)
  | .run => inferInstanceAs (Decidable (_ ∨ _))
  | .settle _ => isTrue trivial
  | .microtask _ => isTrue trivial

/-- The counter and the queue agree with the calls, and a waiter has nobody to wait for but
calls that hold a slot or have been woken. -/
structure Sound : Prop where
  active : s.active = s.count .running + s.count .settled
  waiting : ∀ call ∈ s.waiters, s.calls[call]? = some .waiting
  nodup : s.waiters.Nodup
  queued : s.count .waiting = s.waiters.length
  full : s.waiters ≠ [] → s.limit ≤ s.active + s.count .woken

theorem initial_sound (limit : Nat) : (initial limit).Sound where
  active := rfl
  waiting := fun _ hcall => absurd hcall List.not_mem_nil
  nodup := List.nodup_nil
  queued := rfl
  full := fun h => absurd rfl h

variable {s}

theorem count_set {calls : List Phase} {call : Nat} {old : Phase} (hold : calls[call]? = some old)
    (new phase : Phase) :
    (calls.set call new).count phase + (if old = phase then 1 else 0) =
      calls.count phase + (if new = phase then 1 else 0) := by
  obtain ⟨hlt, hget⟩ := List.getElem?_eq_some_iff.mp hold
  have hpos : (if old = phase then 1 else 0) ≤ calls.count phase := by
    split
    · rename_i hsame
      exact List.count_pos_iff.mpr (hsame ▸ hget ▸ List.getElem_mem hlt)
    · exact Nat.zero_le _
  rw [List.count_set hlt, hget]
  simp only [beq_iff_eq]
  omega

theorem Sound.begin (hsound : s.Sound) : s.begin.Sound := by
  rw [Semaphore.begin]
  split
  · rename_i hfull
    refine ⟨?_, ?_, ?_, ?_, ?_⟩
    · simpa [count] using hsound.active
    · intro call hcall
      rcases List.mem_append.mp hcall with hold | hnew
      · rw [List.getElem?_append_left (List.getElem?_eq_some_iff.mp (hsound.waiting call hold)).1]
        exact hsound.waiting call hold
      · rw [List.mem_singleton.mp hnew]
        simp
    · rw [List.nodup_append]
      refine ⟨hsound.nodup, List.nodup_singleton _, ?_⟩
      intro call hcall other hother hsame
      rw [List.mem_singleton.mp hother] at hsame
      have hlt := (List.getElem?_eq_some_iff.mp (hsound.waiting call hcall)).1
      exact Nat.ne_of_lt hlt hsame
    · simpa [count] using hsound.queued
    · intro _
      simp only [count, List.count_append]
      omega
  · rename_i hroom
    refine ⟨?_, ?_, hsound.nodup, ?_, ?_⟩
    · have hactive := hsound.active
      simp only [count, List.count_append, List.count_singleton] at hactive ⊢
      simp
      omega
    · intro call hcall
      rw [List.getElem?_append_left (List.getElem?_eq_some_iff.mp (hsound.waiting call hcall)).1]
      exact hsound.waiting call hcall
    · simpa [count] using hsound.queued
    · intro hwaiters
      have hfull := hsound.full hwaiters
      simp only [count, List.count_append] at hfull ⊢
      omega

/-- A waiter is not among the calls that stop waiting for it. -/
theorem Sound.waiting_set (hsound : s.Sound) {call : Nat} {old : Phase}
    (hold : s.calls[call]? = some old) (hne : old ≠ .waiting) (new : Phase) :
    ∀ waiter ∈ s.waiters, (s.calls.set call new)[waiter]? = some .waiting := by
  intro waiter hwaiter
  have hwaits := hsound.waiting waiter hwaiter
  have hapart : call ≠ waiter := by
    rintro rfl
    rw [hold] at hwaits
    exact hne (Option.some.inj hwaits)
  rw [List.getElem?_set_ne hapart]
  exact hwaits

/-- A call that moves on, with the counter that goes with it, and wakes nobody. -/
theorem Sound.moved (hsound : s.Sound) {call active : Nat} {old new : Phase}
    (hold : s.calls[call]? = some old) (hne : old ≠ .waiting) (hnew : new ≠ .waiting)
    (hactive : active = (s.calls.set call new).count .running +
      (s.calls.set call new).count .settled)
    (hfull : s.waiters ≠ [] → s.limit ≤ active + (s.calls.set call new).count .woken) :
    Sound { s with active := active, calls := s.calls.set call new } where
  active := hactive
  waiting := hsound.waiting_set hold hne new
  nodup := hsound.nodup
  queued := by
    have hcount := count_set hold new .waiting
    rw [if_neg hne, if_neg hnew, Nat.add_zero, Nat.add_zero] at hcount
    exact hcount.trans hsound.queued
  full := hfull

theorem Sound.settle (hsound : s.Sound) {call : Nat} (hcall : s.calls[call]? = some .running) :
    Sound { s with calls := s.calls.set call .settled } := by
  have hrunning := count_set hcall .settled .running
  have hsettled := count_set hcall .settled .settled
  have hwoken := count_set hcall .settled .woken
  simp only [reduceCtorEq, if_true, if_false] at hrunning hsettled hwoken
  have hactive := hsound.active
  rw [count, count] at hactive
  refine hsound.moved hcall Phase.noConfusion Phase.noConfusion ?_ ?_
  · omega
  · intro hwaiters
    have hfull := hsound.full hwaiters
    rw [count] at hfull
    omega

theorem Sound.resume (hsound : s.Sound) {call : Nat} (hcall : s.calls[call]? = some .woken) :
    Sound { s with active := s.active + 1, calls := s.calls.set call .running } := by
  have hrunning := count_set hcall .running .running
  have hsettled := count_set hcall .running .settled
  have hwoken := count_set hcall .running .woken
  simp only [reduceCtorEq, if_true, if_false] at hrunning hsettled hwoken
  have hactive := hsound.active
  rw [count, count] at hactive
  refine hsound.moved hcall Phase.noConfusion Phase.noConfusion ?_ ?_
  · omega
  · intro hwaiters
    have hfull := hsound.full hwaiters
    rw [count] at hfull
    omega

theorem Sound.release (hsound : s.Sound) {call : Nat}
    (hcall : s.calls[call]? = some .settled) : (s.release call).Sound := by
  have hrunning := count_set hcall .finished .running
  have hsettled := count_set hcall .finished .settled
  have hwoken := count_set hcall .finished .woken
  have hwaiting := count_set hcall .finished .waiting
  simp only [reduceCtorEq, if_true, if_false] at hrunning hsettled hwoken hwaiting
  have hactive := hsound.active
  rw [count, count] at hactive
  rw [Semaphore.release]
  split
  · rename_i hwaiters
    refine hsound.moved hcall Phase.noConfusion Phase.noConfusion ?_ ?_
    · omega
    · exact fun h => absurd hwaiters h
  · rename_i first rest hwaiters
    have hkept := hsound.waiting_set hcall Phase.noConfusion .finished
    have hfirst : (s.calls.set call .finished)[first]? = some .waiting :=
      hkept first (by rw [hwaiters]; exact List.mem_cons_self)
    have hrunning' := count_set hfirst .woken .running
    have hsettled' := count_set hfirst .woken .settled
    have hwoken' := count_set hfirst .woken .woken
    have hwaiting' := count_set hfirst .woken .waiting
    simp only [reduceCtorEq, if_true, if_false] at hrunning' hsettled' hwoken' hwaiting'
    have hnodup := hsound.nodup
    rw [hwaiters, List.nodup_cons] at hnodup
    have hqueued := hsound.queued
    rw [hwaiters, List.length_cons, count] at hqueued
    have hfull := hsound.full (by rw [hwaiters]; exact List.cons_ne_nil first rest)
    rw [count] at hfull
    refine ⟨?_, ?_, hnodup.2, ?_, ?_⟩
    · dsimp only [count]
      omega
    · intro waiter hwaiter
      have hapart : first ≠ waiter := by
        rintro rfl
        exact hnodup.1 hwaiter
      rw [List.getElem?_set_ne hapart]
      exact hkept waiter (by rw [hwaiters]; exact List.mem_cons_of_mem _ hwaiter)
    · dsimp only [count]
      omega
    · intro _
      dsimp only [count]
      omega

theorem Sound.step (hsound : s.Sound) (label : Label) : (s.step label).Sound := by
  cases label with
  | run => exact hsound.begin
  | settle call =>
      rw [Semaphore.step]
      split
      · rename_i hcall
        exact hsound.settle hcall
      · exact hsound
  | microtask call =>
      rw [Semaphore.step]
      split
      · rename_i hcall
        exact hsound.resume hcall
      · rename_i hcall
        exact hsound.release hcall
      · exact hsound

/-- Every slot that is held, or that a woken call is about to take. -/
def claimed (s : Semaphore) : Nat := s.active + s.count .woken

theorem claimed_step (hsound : s.Sound) {label : Label} (hovertakes : s.OvertakesNone label)
    (hclaimed : s.claimed ≤ s.limit) : (s.step label).claimed ≤ (s.step label).limit := by
  rw [claimed, count] at hclaimed
  cases label with
  | run =>
      rw [OvertakesNone, count] at hovertakes
      rw [Semaphore.step, Semaphore.begin]
      split
      · simp only [claimed, count, List.count_append]
        simp
        omega
      · simp only [claimed, count, List.count_append]
        simp
        omega
  | settle call =>
      rw [Semaphore.step]
      split
      · rename_i hcall
        have hwoken := count_set hcall .settled .woken
        simp only [reduceCtorEq, if_false] at hwoken
        dsimp only [claimed, count]
        omega
      · exact hclaimed
  | microtask call =>
      rw [Semaphore.step]
      split
      · rename_i hcall
        have hwoken := count_set hcall .running .woken
        simp only [reduceCtorEq, if_true, if_false] at hwoken
        dsimp only [claimed, count]
        omega
      · rename_i hcall
        have hwoken := count_set hcall .finished .woken
        simp only [reduceCtorEq, if_false] at hwoken
        have hactive := hsound.active
        have hsettled : 0 < s.count .settled :=
          List.count_pos_iff.mpr (List.mem_of_getElem? hcall)
        rw [Semaphore.release]
        split
        · dsimp only [claimed, count]
          omega
        · rename_i first rest hwaiters
          have hfirst := hsound.waiting_set hcall Phase.noConfusion .finished first
            (by rw [hwaiters]; exact List.mem_cons_self)
          have hwoken' := count_set hfirst .woken .woken
          simp only [reduceCtorEq, if_true, if_false] at hwoken'
          dsimp only [claimed, count]
          omega
      · exact hclaimed

/-- While there is room and no microtask is pending, nobody waits, in every run. -/
theorem Sound.served (hsound : s.Sound) (hwoken : s.count .woken = 0)
    (hsettled : s.count .settled = 0) (hroom : s.count .running < s.limit) :
    s.count .waiting = 0 := by
  have hactive := hsound.active
  have hnone : s.waiters = [] := by
    by_contra hwaiters
    have hfull := hsound.full hwaiters
    omega
  rw [hsound.queued, hnone]
  rfl

theorem run_sound (limit : Nat) (labels : List Label) :
    (run Semaphore.step (initial limit) labels).Sound :=
  invariant_of_run Semaphore.step Sound (fun _ label h => h.step label) labels
    (initial_sound limit)

/-- The semaphore is fair after every run in which no new call overtakes a woken one. A woken
call only goes on in a later turn, and until then the slot that it is about to take looks free
to everybody who comes in between. -/
theorem fair_of_overtakesNone (limit : Nat) (labels : List Label)
    (hovertakes : Meets Semaphore.step OvertakesNone (initial limit) labels) :
    (run Semaphore.step (initial limit) labels).Fair := by
  have hsound := run_sound limit labels
  have hclaimed := invariant_of_meets Semaphore.step (fun s => s.Sound ∧ s.claimed ≤ s.limit)
    (fun _ label h hlabel => ⟨h.1.step label, claimed_step h.1 hlabel h.2⟩)
    ⟨initial_sound limit, Nat.zero_le limit⟩ hovertakes
  refine ⟨?_, hsound.served⟩
  have hactive := hsound.active
  have hle := hclaimed.2
  rw [claimed] at hle
  omega

/- One session at a time. -/
namespace OneSession

/-- The second call waits until the first is over, and a third comes once it goes on. -/
def queued : List Label :=
  [.run, .run, .settle 0, .microtask 0, .microtask 1, .run]

/-- The second call waits until the first is over, and a third comes once the second goes on:
nobody overtakes anybody. -/
theorem queued_fair :
    Meets Semaphore.step OvertakesNone (initial 1) queued ∧
      (run Semaphore.step (initial 1) queued).Fair :=
  have hovertakes : Meets Semaphore.step OvertakesNone (initial 1) queued := by decide
  ⟨hovertakes, fair_of_overtakesNone 1 queued hovertakes⟩

/-- The third call comes between the end of the first and the second's own microtask. -/
def overtaken : List Label :=
  [.run, .run, .settle 0, .microtask 0, .run, .microtask 1]

/-- The third call comes between the end of the first and the second's own microtask: it finds
the slot free and takes it, and so does the second call. -/
theorem overtaken_exceeds_limit : ¬(run Semaphore.step (initial 1) overtaken).Fair := by
  intro hfair
  exact absurd hfair.bounded (by decide)

end OneSession

end Semaphore

end MailSemaphore

end MailPanel

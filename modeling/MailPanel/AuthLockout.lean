import MailPanel.AuthSteps
import MailPanel.IsoInstant
import MailPanel.StepRun

/-
Lockout: how many wrong passwords are tried on the hashes of accounts while a window lasts.
A login reads the counters before its verification, and writes them after it.
-/

namespace MailPanel

namespace Auth

/-- A login whose verification against an account's hash is done. -/
inductive LoginEvent where
  | guessed (identifier ipAddress : String) (time : Time)
  | succeeded (identifier : String) (cleared : List AttemptRow) (time : Time)
deriving DecidableEq, Repr

def LoginEvent.time : LoginEvent → Time
  | .guessed _ _ time => time
  | .succeeded _ _ time => time

inductive Counter where
  | perIdentifier (identifier : String)
  | perIp (ipAddress : String)
deriving DecidableEq, Repr

/-- `windowMinutes` in milliseconds. -/
def windowMillis : Nat := LockoutPolicy.windowMinutes * 60000

namespace Counter

variable (counter : Counter)

def counts (identifier ipAddress : String) : Bool :=
  match counter with
  | .perIdentifier own => identifier = own
  | .perIp own => ipAddress = own

def limit : Counter → Nat
  | .perIdentifier _ => LockoutPolicy.maxFailuresPerIdentifier
  | .perIp _ => LockoutPolicy.maxFailuresPerIp

def countsRow (row : AttemptRow) : Bool := counter.counts row.identifier row.ipAddress

/-- What `isLockedOut` compares with the limit. -/
def failures (db : Db) : Nat :=
  db.countFailuresSince counter.countsRow (db.minutesAgo LockoutPolicy.windowMinutes)

/-- A wrong password in the window that begins at an instant. -/
def guessedIn (since : Time) : LoginEvent → Bool
  | .guessed identifier ipAddress time =>
      counter.counts identifier ipAddress && decide (since ≤ time ∧ time ≤ since + windowMillis)
  | .succeeded _ _ _ => false

def guesses (since : Time) (history : List LoginEvent) : Nat :=
  history.countP (counter.guessedIn since)

/-- A success of the identifier; for an address, one that cleared a failure of its own. -/
def resetIn (since : Time) : LoginEvent → Bool
  | .guessed _ _ _ => false
  | .succeeded identifier cleared time =>
      decide (since ≤ time ∧ time ≤ since + windowMillis) &&
        match counter with
        | .perIdentifier own => identifier = own
        | .perIp own => cleared.any fun row => row.ipAddress = own

end Counter

/-- The verification that the task waits for will fail. -/
def Task.guess (env : Env) : Task → Option LoginInput
  | .verifyingLogin input admin =>
      if env.passwords.verify admin.passwordHash input.password then none else some input
  | _ => none

def Counter.countsTask (counter : Counter) (env : Env) (task : Task) : Bool :=
  (task.guess env).any fun input =>
    counter.counts (normalizeEmail input.email) input.ipAddress

namespace Panel

variable (env : Env) (p : Panel)

def waiting (counter : Counter) : Nat := p.tasks.countP (counter.countsTask env)

/-- What a step decides about a login, if it is one that finishes a password check: a guess
that failed, or a login that succeeded, which clears the failures of its address as they
stand then. -/
def loginEvent : Label → Option LoginEvent
  | .proceed index =>
      match p.tasks[index]? with
      | some (.verifyingLogin input admin) =>
          let identifier := normalizeEmail input.email
          if !env.passwords.verify admin.passwordHash input.password then
            some (.guessed identifier input.ipAddress p.db.now)
          else if admin.disabled then none
          else
            some (.succeeded identifier
              (p.db.attempts.filter fun row => row.identifier = identifier && !row.success)
              p.db.now)
      | _ => none
  | _ => none

/-- When a login goes on to try a wrong password on an account's hash, no other wrong
password that counts along is still being verified, or it would go on also if those had been
counted already; and the clock has not reached a year whose text has a sign. -/
def CountsWaiting : Label → Prop
  | .login input => p.db.now < IsoTime.firstSigned ∧
      ∀ counter : Counter, counter.countsTask env (p.db.login input) = true →
        p.waiting env counter = 0 ∨
          counter.failures p.db + p.waiting env counter < counter.limit
  | .pruneExpired => p.db.now < IsoTime.firstSigned
  | _ => True

end Panel

structure WatchedPanel where
  panel : Panel
  history : List LoginEvent

namespace WatchedPanel

variable (env : Env) (w : WatchedPanel)

def step (label : Label) : WatchedPanel :=
  ⟨w.panel.step env label, w.history ++ (w.panel.loginEvent env label).toList⟩

/-- The failures of a window that the table holds. -/
def recorded (db : Db) (counter : Counter) (since : Time) : Nat :=
  db.attempts.countP fun row =>
    counter.countsRow row && !row.success && decide (since ≤ row.attemptedAt ∧
      row.attemptedAt ≤ db.now)

/-- Wrong passwords of a window that lasts are in the table, and with those that are still
being verified they stay below the limit. -/
structure Bounded : Prop where
  times : ∀ event ∈ w.history, event.time ≤ w.panel.db.now
  covered : ∀ (counter : Counter) since, w.panel.db.now ≤ since + windowMillis →
    w.history.all (fun event => !counter.resetIn since event) = true →
      counter.guesses since w.history ≤ recorded w.panel.db counter since
  bounded : ∀ (counter : Counter) since,
    w.history.all (fun event => !counter.resetIn since event) = true →
      counter.guesses since w.history ≤ counter.limit ∧
        (w.panel.db.now ≤ since + windowMillis →
          counter.guesses since w.history + w.panel.waiting env counter ≤ counter.limit)

end WatchedPanel

/- Counters -/

section Counters

variable {env : Env} {db : Db} {p : Panel} {counter : Counter}

/-- A login that goes on to an account's hash has passed the check of both counters. -/
theorem failures_lt_limit {input : LoginInput}
    (hcounts : counter.countsTask env (db.login input) = true) :
    counter.failures db < counter.limit := by
  rw [Db.login] at hcounts
  by_cases hlocked : db.isLockedOut (normalizeEmail input.email) input.ipAddress = true
  · rw [if_pos hlocked] at hcounts
    cases hcounts
  · rw [if_neg hlocked] at hcounts
    cases hfind : db.findByEmail (normalizeEmail input.email) with
    | none =>
        rw [hfind] at hcounts
        cases hcounts
    | some admin =>
        rw [hfind, Counter.countsTask, Option.any_eq_true] at hcounts
        obtain ⟨guessed, hguess, hcounts⟩ := hcounts
        dsimp only [Task.guess] at hguess
        split at hguess
        · cases hguess
        obtain rfl := Option.some.inj hguess
        simp only [Db.isLockedOut, Bool.or_eq_true, decide_eq_true_eq, not_or,
          Nat.not_le] at hlocked
        cases counter with
        | perIdentifier own =>
            obtain rfl := of_decide_eq_true hcounts
            exact hlocked.1
        | perIp own =>
            obtain rfl := of_decide_eq_true hcounts
            exact hlocked.2

theorem recorded_le_failures (hnow : db.now < IsoTime.firstSigned) {since : Time}
    (hsince : db.now ≤ since + windowMillis) :
    WatchedPanel.recorded db counter since ≤ counter.failures db := by
  have hago : db.minutesAgo LockoutPolicy.windowMinutes ≤ since :=
    Nat.sub_le_iff_le_add.mpr hsince
  apply List.countP_mono_left
  intro row _ hrow
  rw [Bool.and_eq_true, decide_eq_true_eq] at hrow
  obtain ⟨hcounts, hfrom, huntil⟩ := hrow
  have hle := Nat.le_trans hago hfrom
  have hshort := Nat.lt_of_le_of_lt huntil hnow
  have hbefore := IsoTime.before_eq_lt hshort (Nat.lt_of_le_of_lt hle hshort)
  rw [hcounts, hbefore, decide_eq_false (Nat.not_lt.mpr hle)]
  rfl

theorem waiting_set {index : Nat} {task next : Task} (htask : p.tasks[index]? = some task)
    (hnext : next.guess env = none) (db : Db) :
    Panel.waiting env ⟨db, p.tasks.set index next⟩ counter +
      (if counter.countsTask env task then 1 else 0) = p.waiting env counter := by
  obtain ⟨hindex, rfl⟩ := List.getElem?_eq_some_iff.mp htask
  have hnone : counter.countsTask env next = false := by rw [Counter.countsTask, hnext]; rfl
  rw [Panel.waiting, List.countP_set hindex, hnone]
  by_cases hcounts : counter.countsTask env p.tasks[index] = true
  · have hpos : 0 < p.tasks.countP (counter.countsTask env) :=
      List.countP_pos_iff.mpr ⟨_, List.getElem_mem hindex, hcounts⟩
    simp only [hcounts, if_true, Bool.false_eq_true, if_false, Panel.waiting]
    omega
  · simp only [hcounts, if_false, Bool.false_eq_true, Panel.waiting]
    omega

end Counters

/- What a step does to the attempts -/

namespace Db

variable {env : Env} {db : Db}

/-- No attempt is taken away, no time passes, and nothing is left to verify. -/
def Quiet (env : Env) (db : Db) (result : Db × Task) : Prop :=
  result.1.now = db.now ∧ db.attempts.Sublist result.1.attempts ∧ result.2.guess env = none

theorem quiet_of_attempts_eq {result : Db × Task} (hnow : result.1.now = db.now)
    (hattempts : result.1.attempts = db.attempts) (hguess : result.2.guess env = none) :
    db.Quiet env result :=
  ⟨hnow, by rw [hattempts], hguess⟩

theorem quiet_failLogin (input : LoginInput) : db.Quiet env (db.failLogin input) :=
  ⟨rfl, List.sublist_append_left _ _, rfl⟩

theorem quiet_settle {result : Except AppError Db}
    (hresult : ∀ next, result = .ok next → next.now = db.now ∧ next.attempts = db.attempts) :
    db.Quiet env (db.settle result) := by
  cases result with
  | error error => exact quiet_of_attempts_eq rfl rfl rfl
  | ok next => exact quiet_of_attempts_eq (hresult next rfl).1 (hresult next rfl).2 rfl

theorem quiet_handle (auth : AuthContext) (request : AuthRequest) :
    db.Quiet env (db.handle auth request) := by
  cases request with
  | sessionInfo => exact quiet_of_attempts_eq rfl rfl rfl
  | logout => exact quiet_of_attempts_eq rfl rfl rfl
  | changePassword current new => exact quiet_of_attempts_eq rfl rfl rfl
  | createAdmin email password =>
      rw [handle]
      split
      · exact quiet_of_attempts_eq rfl rfl rfl
      · exact quiet_of_attempts_eq rfl rfl rfl
  | updateAdmin id patch =>
      refine quiet_settle fun next hpatch => ?_
      obtain ⟨target, -, rfl, -⟩ := patchAdmin_eq_ok hpatch
      exact ⟨rfl, rfl⟩
  | deleteAdmin id =>
      refine quiet_settle fun next hremove => ?_
      obtain ⟨target, -, rfl, -⟩ := removeAdmin_eq_ok hremove
      exact ⟨rfl, rfl⟩

theorem quiet_storeAdmin (email password : String) :
    db.Quiet env (db.storeAdmin env email password) := by
  rw [storeAdmin]
  split
  · exact quiet_of_attempts_eq rfl rfl rfl
  · rename_i next hcreate
    obtain ⟨-, rfl⟩ := createAdmin_eq_some hcreate
    exact quiet_of_attempts_eq rfl rfl rfl

theorem quiet_check (credentials : Credentials) (request : AuthRequest) :
    db.Quiet env (db.check env credentials request) := by
  rw [check]
  split
  · exact quiet_of_attempts_eq rfl rfl rfl
  · rename_i token _
    simp only [validateSession]
    cases db.checkSession env.config (db.findByTokenHash token) with
    | error reason => exact quiet_of_attempts_eq rfl rfl rfl
    | ok auth =>
        dsimp only
        split
        · exact quiet_of_attempts_eq rfl rfl rfl
        · exact quiet_of_attempts_eq rfl rfl rfl

theorem quiet_proceed {task : Task}
    (htask : ∀ input admin, task ≠ .verifyingLogin input admin) :
    db.Quiet env (db.proceed env task) := by
  cases task with
  | verifyingDummy input code => exact quiet_failLogin input
  | verifyingLogin input admin => exact absurd rfl (htask input admin)
  | checked auth request => exact quiet_handle auth request
  | verifyingCurrent auth current new =>
      rw [proceed]
      split
      · exact quiet_of_attempts_eq rfl rfl rfl
      · exact quiet_of_attempts_eq rfl rfl rfl
  | hashingNew auth current new => exact quiet_of_attempts_eq rfl rfl rfl
  | hashingAdmin auth email password => exact quiet_storeAdmin email password
  | ended outcome => exact quiet_of_attempts_eq rfl rfl rfl

/-- A success is recorded and the failures of its identifier are gone, also where no session
comes of it. -/
theorem issueSession_spec (input : LoginInput) (admin : AdminRow) :
    (db.issueSession env input admin).1.now = db.now ∧
      (db.issueSession env input admin).1.attempts =
        ((db.recordAttempt (normalizeEmail input.email) input.ipAddress true)
          |>.clearFailuresForIdentifier (normalizeEmail input.email)).attempts ∧
      (db.issueSession env input admin).2.guess env = none := by
  rw [issueSession]
  split
  · exact ⟨rfl, rfl, rfl⟩
  · split
    · exact ⟨rfl, rfl, rfl⟩
    · rename_i session next hcreate
      obtain ⟨-, -, rfl⟩ := createSession_eq_some hcreate
      exact ⟨rfl, rfl, rfl⟩

end Db

namespace WatchedPanel

variable {env : Env} {w : WatchedPanel}

/-- A window that begins later holds no event yet. -/
theorem Bounded.guesses_eq_zero (hbounded : w.Bounded env) {counter : Counter} {since : Time}
    (hsince : w.panel.db.now < since) : counter.guesses since w.history = 0 := by
  rw [Counter.guesses, List.countP_eq_zero]
  intro event hevent hguessed
  have htime := hbounded.times event hevent
  cases event with
  | guessed identifier ipAddress time =>
      simp only [Counter.guessedIn, Bool.and_eq_true, decide_eq_true_eq] at hguessed
      have hfrom := hguessed.2.1
      exact absurd (Nat.le_trans hfrom htime) (Nat.not_le.mpr hsince)
  | succeeded identifier cleared time => cases hguessed

/-- What keeps the clock, takes no attempt away and starts no verification. -/
theorem Bounded.of_quiet (hbounded : w.Bounded env) {p : Panel}
    (hnow : p.db.now = w.panel.db.now) (hattempts : w.panel.db.attempts.Sublist p.db.attempts)
    (hwaiting : ∀ counter, p.waiting env counter ≤ w.panel.waiting env counter) :
    Bounded env ⟨p, w.history⟩ where
  times := by
    rw [hnow]
    exact hbounded.times
  covered := by
    intro counter since hsince hreset
    rw [hnow] at hsince
    rw [recorded, hnow]
    exact Nat.le_trans (hbounded.covered counter since hsince hreset) hattempts.countP_le
  bounded := by
    intro counter since hreset
    obtain ⟨hlimit, hlast⟩ := hbounded.bounded counter since hreset
    refine ⟨hlimit, fun hsince => ?_⟩
    rw [hnow] at hsince
    exact Nat.le_trans (Nat.add_le_add_left (hwaiting counter) _) (hlast hsince)

theorem Bounded.login (hbounded : w.Bounded env) (input : LoginInput)
    (hcondition : w.panel.CountsWaiting env (.login input)) :
    Bounded env ⟨w.panel.step env (.login input), w.history⟩ where
  times := hbounded.times
  covered := hbounded.covered
  bounded := by
    intro counter since hreset
    obtain ⟨hlimit, hlast⟩ := hbounded.bounded counter since hreset
    refine ⟨hlimit, fun hsince => ?_⟩
    have hlast := hlast hsince
    have hwaiting : (w.panel.step env (.login input)).waiting env counter =
        w.panel.waiting env counter +
          if counter.countsTask env (w.panel.db.login input) then 1 else 0 := by
      rw [Panel.waiting, Panel.step, List.countP_append, List.countP_singleton]
      rfl
    rw [hwaiting]
    by_cases hcounts : counter.countsTask env (w.panel.db.login input) = true
    · obtain ⟨hnow, hcondition⟩ := hcondition
      have hcovered := Nat.le_trans (hbounded.covered counter since hsince hreset)
        (recorded_le_failures hnow hsince)
      have hpassed := failures_lt_limit hcounts
      rw [if_pos hcounts]
      rcases hcondition counter hcounts with hnone | hfew
      · dsimp only
        omega
      · dsimp only
        omega
    · rw [if_neg hcounts]
      exact hlast

theorem guesses_append (counter : Counter) (since : Time) (history : List LoginEvent)
    (event : LoginEvent) : counter.guesses since (history ++ [event]) =
      counter.guesses since history + if counter.guessedIn since event then 1 else 0 := by
  rw [Counter.guesses, List.countP_append, List.countP_singleton]
  rfl

theorem Bounded.time_le (hbounded : w.Bounded env) {event : LoginEvent}
    (htime : event.time = w.panel.db.now) :
    ∀ other ∈ w.history ++ [event], other.time ≤ w.panel.db.now := by
  intro other hother
  rcases List.mem_append.mp hother with hold | hnew
  · exact hbounded.times other hold
  · obtain rfl := List.mem_singleton.mp hnew
    exact Nat.le_of_eq htime

theorem all_append {counter : Counter} {since : Time} {event : LoginEvent}
    (hreset : (w.history ++ [event]).all (fun event => !counter.resetIn since event) = true) :
    w.history.all (fun event => !counter.resetIn since event) = true ∧
      counter.resetIn since event = false := by
  rw [List.all_append, Bool.and_eq_true, List.all_cons, List.all_nil, Bool.and_true,
    Bool.not_eq_true'] at hreset
  exact hreset

theorem countsTask_of_wrong {counter : Counter} {input : LoginInput} {admin : AdminRow}
    (hverify : env.passwords.verify admin.passwordHash input.password = false) :
    counter.countsTask env (.verifyingLogin input admin) =
      counter.counts (normalizeEmail input.email) input.ipAddress := by
  rw [Counter.countsTask, Task.guess, if_neg (Bool.eq_false_iff.mp hverify)]
  rfl

/-- A failure that is recorded now counts in every window that has begun. -/
theorem recorded_failLogin (db : Db) (counter : Counter) (since : Time) (input : LoginInput) :
    recorded (db.failLogin input).1 counter since = recorded db counter since +
      if counter.counts (normalizeEmail input.email) input.ipAddress && decide (since ≤ db.now)
      then 1 else 0 := by
  rw [recorded, Db.failLogin, Db.recordAttempt, List.countP_append, List.countP_singleton]
  simp only [Counter.countsRow, Bool.not_false, Bool.and_true, Nat.le_refl, and_true]
  rfl

theorem Bounded.guess (hbounded : w.Bounded env) {index : Nat} {input : LoginInput}
    {admin : AdminRow} (htask : w.panel.tasks[index]? = some (.verifyingLogin input admin))
    (hverify : env.passwords.verify admin.passwordHash input.password = false) :
    Bounded env ⟨⟨(w.panel.db.failLogin input).1,
      w.panel.tasks.set index (w.panel.db.failLogin input).2⟩,
      w.history ++ [.guessed (normalizeEmail input.email) input.ipAddress w.panel.db.now]⟩ where
  times := hbounded.time_le rfl
  covered := by
    intro counter since hsince hreset
    have hcovered := hbounded.covered counter since hsince (all_append hreset).1
    have hsame : decide (since ≤ w.panel.db.now ∧ w.panel.db.now ≤ since + windowMillis) =
        decide (since ≤ w.panel.db.now) := decide_eq_decide.mpr (and_iff_left hsince)
    dsimp only
    rw [guesses_append, recorded_failLogin, Counter.guessedIn, hsame]
    exact Nat.add_le_add_right hcovered _
  bounded := by
    intro counter since hreset
    obtain ⟨hlimit, hlast⟩ := hbounded.bounded counter since (all_append hreset).1
    have hset := @waiting_set env w.panel counter index _ _ htask
      (rfl : (w.panel.db.failLogin input).2.guess env = none) (w.panel.db.failLogin input).1
    rw [countsTask_of_wrong hverify] at hset
    dsimp only
    rw [guesses_append, Counter.guessedIn]
    by_cases hcounts : counter.counts (normalizeEmail input.email) input.ipAddress = true
    · by_cases hlasts : w.panel.db.now ≤ since + windowMillis
      · have hlast := hlast hlasts
        rw [if_pos hcounts] at hset
        have hone : (if (counter.counts (normalizeEmail input.email) input.ipAddress &&
            decide (since ≤ w.panel.db.now ∧ w.panel.db.now ≤ since + windowMillis)) = true
          then 1 else 0) ≤ 1 := by
          split
          · exact Nat.le_refl 1
          · exact Nat.zero_le 1
        refine ⟨by omega, fun _ => by omega⟩
      · rw [decide_eq_false fun h => hlasts h.2, Bool.and_false, if_neg (by decide)]
        exact ⟨hlimit, fun h => absurd h hlasts⟩
    · rw [Bool.eq_false_iff.mpr hcounts, Bool.false_and, if_neg (by decide)]
      rw [if_neg hcounts] at hset
      refine ⟨hlimit, fun hsince => ?_⟩
      have hlast := hlast hsince
      omega

/-- A success takes no failure away that counts in a window that it does not reset. -/
theorem recorded_issueSession {counter : Counter} {since : Time} (input : LoginInput)
    (admin : AdminRow) (hsince : since ≤ w.panel.db.now)
    (hlasts : w.panel.db.now ≤ since + windowMillis)
    (hreset : counter.resetIn since (.succeeded (normalizeEmail input.email)
      (w.panel.db.attempts.filter fun row =>
        row.identifier = normalizeEmail input.email && !row.success) w.panel.db.now) = false) :
    recorded w.panel.db counter since ≤
      recorded (w.panel.db.issueSession env input admin).1 counter since := by
  obtain ⟨hnow, hattempts, -⟩ :=
    @Db.issueSession_spec env w.panel.db input admin
  have hkept : ∀ row ∈ w.panel.db.attempts, counter.countsRow row = true →
      row.success = false → row.identifier ≠ normalizeEmail input.email := by
    intro row hrow hcounts hfailed hidentifier
    rw [Counter.resetIn.eq_def] at hreset
    dsimp only at hreset
    rw [decide_eq_true ⟨hsince, hlasts⟩, Bool.true_and] at hreset
    cases counter with
    | perIdentifier own =>
        have hown : row.identifier = own := of_decide_eq_true hcounts
        exact of_decide_eq_false hreset (hidentifier.symm.trans hown)
    | perIp own =>
        refine Bool.eq_false_iff.mp hreset (List.any_eq_true.mpr ⟨row, ?_, hcounts⟩)
        rw [List.mem_filter, hidentifier, hfailed]
        exact ⟨hrow, by simp⟩
  rw [recorded, recorded, hnow, hattempts, Db.clearFailuresForIdentifier, Db.recordAttempt,
    List.countP_filter, List.countP_append]
  refine Nat.le_trans (List.countP_mono_left ?_) (Nat.le_add_right _ _)
  intro row hrow hcounted
  have hparts := hcounted
  simp only [Bool.and_eq_true, Bool.not_eq_true'] at hparts
  rw [hcounted, decide_eq_false (hkept row hrow hparts.1.1 hparts.1.2)]
  rfl

theorem Bounded.success (hbounded : w.Bounded env) {index : Nat} {input : LoginInput}
    {admin : AdminRow} {task : Task} (htask : w.panel.tasks[index]? = some task) :
    Bounded env ⟨⟨(w.panel.db.issueSession env input admin).1,
      w.panel.tasks.set index (w.panel.db.issueSession env input admin).2⟩,
      w.history ++ [.succeeded (normalizeEmail input.email)
        (w.panel.db.attempts.filter fun row =>
          row.identifier = normalizeEmail input.email && !row.success) w.panel.db.now]⟩ := by
  obtain ⟨hnow, -, hguess⟩ := @Db.issueSession_spec env w.panel.db input admin
  refine ⟨?_, ?_, ?_⟩
  · dsimp only
    rw [hnow]
    exact hbounded.time_le rfl
  · intro counter since hsince hreset
    dsimp only at hsince ⊢
    rw [hnow] at hsince
    obtain ⟨hearlier, hreset⟩ := all_append hreset
    rw [guesses_append, Counter.guessedIn, if_neg (by decide), Nat.add_zero]
    by_cases hbegun : since ≤ w.panel.db.now
    · exact Nat.le_trans (hbounded.covered counter since hsince hearlier)
        (recorded_issueSession input admin hbegun hsince hreset)
    · rw [hbounded.guesses_eq_zero (Nat.lt_of_not_le hbegun)]
      exact Nat.zero_le _
  · intro counter since hreset
    obtain ⟨hlimit, hlast⟩ := hbounded.bounded counter since (all_append hreset).1
    have hset := @waiting_set env w.panel counter index _ _ htask hguess
      (w.panel.db.issueSession env input admin).1
    dsimp only
    rw [guesses_append, Counter.guessedIn, if_neg (by decide), Nat.add_zero, hnow]
    refine ⟨hlimit, fun hsince => ?_⟩
    have hlast := hlast hsince
    omega

theorem step_proceed_of_silent {index : Nat} {task : Task}
    (htask : w.panel.tasks[index]? = some task)
    (hsilent : w.panel.loginEvent env (.proceed index) = none) :
    w.step env (.proceed index) = ⟨⟨(w.panel.db.proceed env task).1,
      w.panel.tasks.set index (w.panel.db.proceed env task).2⟩, w.history⟩ := by
  rw [step, hsilent, Panel.step_proceed htask, Option.toList_none, List.append_nil]

theorem Bounded.proceed_of_silent (hbounded : w.Bounded env) {index : Nat} {task : Task}
    (htask : w.panel.tasks[index]? = some task)
    (hsilent : w.panel.loginEvent env (.proceed index) = none)
    (hquiet : w.panel.db.Quiet env (w.panel.db.proceed env task)) :
    (w.step env (.proceed index)).Bounded env := by
  obtain ⟨hnow, hattempts, hguess⟩ := hquiet
  rw [step_proceed_of_silent htask hsilent]
  refine hbounded.of_quiet hnow hattempts fun counter => ?_
  have hset := @waiting_set env w.panel counter index _ _ htask hguess
    (w.panel.db.proceed env task).1
  omega

theorem Bounded.proceed (hbounded : w.Bounded env) (index : Nat) :
    (w.step env (.proceed index)).Bounded env := by
  cases htask : w.panel.tasks[index]? with
  | none =>
      rw [step, Panel.step_proceed_of_none htask, Panel.loginEvent, htask]
      dsimp only
      rw [Option.toList_none, List.append_nil]
      exact hbounded
  | some task =>
      by_cases hlogin : ∃ input admin, task = .verifyingLogin input admin
      · obtain ⟨input, admin, rfl⟩ := hlogin
        cases hverify : env.passwords.verify admin.passwordHash input.password with
        | false =>
            rw [step, Panel.step_proceed htask, Panel.loginEvent, htask, Db.proceed,
              Db.finishLogin, hverify]
            dsimp only
            rw [hverify]
            exact hbounded.guess htask hverify
        | true =>
            cases hdisabled : admin.disabled with
            | true =>
                refine hbounded.proceed_of_silent htask ?_ ?_
                · simp only [Panel.loginEvent, htask, hverify, hdisabled]
                  rfl
                · rw [Db.proceed, Db.finishLogin, hverify, hdisabled]
                  exact Db.quiet_failLogin input
            | false =>
                rw [step, Panel.step_proceed htask, Panel.loginEvent, htask, Db.proceed,
                  Db.finishLogin, hverify, hdisabled]
                dsimp only
                rw [hverify, hdisabled]
                exact hbounded.success htask
      · have hother : ∀ input admin, task ≠ .verifyingLogin input admin :=
          fun input admin heq => hlogin ⟨input, admin, heq⟩
        refine hbounded.proceed_of_silent htask ?_ (Db.quiet_proceed hother)
        rw [Panel.loginEvent, htask]
        dsimp only
        split
        · rename_i input admin heq
          exact absurd (Option.some.inj heq) (hother input admin)
        · rfl

theorem Bounded.pruneExpired (hbounded : w.Bounded env)
    (hnow : w.panel.db.now < IsoTime.firstSigned) :
    Bounded env ⟨w.panel.step env .pruneExpired, w.history⟩ where
  times := hbounded.times
  covered := by
    intro counter since hsince hreset
    refine Nat.le_trans (hbounded.covered counter since hsince hreset) ?_
    have hago : w.panel.db.minutesAgo (LockoutPolicy.windowMinutes * 4) ≤ since := by
      refine Nat.sub_le_iff_le_add.mpr (Nat.le_trans hsince (Nat.add_le_add_left ?_ _))
      decide
    rw [recorded, recorded]
    dsimp only [Panel.step, Db.pruneExpired, Db.pruneAttemptsBefore, Db.deleteExpiredBefore]
    rw [List.countP_filter]
    apply List.countP_mono_left
    intro row _ hcounted
    have hparts := hcounted
    rw [Bool.and_eq_true, decide_eq_true_eq] at hparts
    obtain ⟨-, hfrom, huntil⟩ := hparts
    have hle := Nat.le_trans hago hfrom
    have hshort := Nat.lt_of_le_of_lt huntil hnow
    have hbefore := IsoTime.before_eq_lt hshort (Nat.lt_of_le_of_lt hle hshort)
    refine Bool.and_eq_true_iff.mpr ⟨hcounted, ?_⟩
    rw [hbefore, decide_eq_false (Nat.not_lt.mpr hle)]
    rfl
  bounded := hbounded.bounded

theorem Bounded.elapse (hbounded : w.Bounded env) (milliseconds : Nat) :
    Bounded env ⟨w.panel.step env (.elapse milliseconds), w.history⟩ where
  times := fun event hevent => Nat.le_add_right_of_le (hbounded.times event hevent)
  covered := by
    intro counter since hsince hreset
    have hearlier := Nat.le_trans (Nat.le_add_right _ milliseconds) hsince
    refine Nat.le_trans (hbounded.covered counter since hearlier hreset) ?_
    apply List.countP_mono_left
    intro row _ hcounted
    rw [Bool.and_eq_true, decide_eq_true_eq] at hcounted ⊢
    exact ⟨hcounted.1, hcounted.2.1, Nat.le_add_right_of_le hcounted.2.2⟩
  bounded := by
    intro counter since hreset
    obtain ⟨hlimit, hlast⟩ := hbounded.bounded counter since hreset
    refine ⟨hlimit, fun hsince => hlast ?_⟩
    exact Nat.le_trans (Nat.le_add_right _ milliseconds) hsince

theorem Bounded.step (hbounded : w.Bounded env) {label : Label}
    (hcondition : w.panel.CountsWaiting env label) : (w.step env label).Bounded env := by
  have hsilent : w.panel.loginEvent env label = none →
      w.step env label = ⟨w.panel.step env label, w.history⟩ := by
    intro hnone
    rw [WatchedPanel.step, hnone, Option.toList_none, List.append_nil]
  cases label with
  | login input =>
      rw [hsilent rfl]
      exact hbounded.login input hcondition
  | request credentials request =>
      obtain ⟨hnow, hattempts, hguess⟩ :=
        @Db.quiet_check env w.panel.db credentials request
      rw [hsilent rfl]
      refine hbounded.of_quiet hnow hattempts fun counter => ?_
      rw [Panel.waiting, Panel.step, List.countP_append, List.countP_singleton,
        Counter.countsTask, hguess]
      exact Nat.le_refl _
  | proceed index => exact hbounded.proceed index
  | pruneExpired =>
      rw [hsilent rfl]
      exact hbounded.pruneExpired hcondition
  | elapse milliseconds =>
      rw [hsilent rfl]
      exact hbounded.elapse milliseconds
  | crash =>
      rw [hsilent rfl]
      exact hbounded.of_quiet rfl (List.Sublist.refl _) fun counter => Nat.zero_le _

theorem bounded_of_idle (htasks : w.panel.tasks = []) (hnew : w.history = []) :
    w.Bounded env where
  times := by
    rw [hnew]
    exact fun event hevent => absurd hevent List.not_mem_nil
  covered := by
    intro counter since _ _
    rw [hnew]
    exact Nat.zero_le _
  bounded := by
    intro counter since _
    rw [hnew, Panel.waiting, htasks]
    exact ⟨Nat.zero_le _, fun _ => Nat.zero_le _⟩

/-- While each login counts the wrong passwords that are still being verified, a window without
a success holds no more wrong passwords than the limit, in every state of the run. The check
reads the failures that are recorded, and a failure is recorded when its verification ends. -/
theorem guesses_le_limit (env : Env) {start : WatchedPanel} (htasks : start.panel.tasks = [])
    (hnew : start.history = []) {labels : List Label}
    (hmeets : StepRun.Meets (step env) (fun w label => w.panel.CountsWaiting env label) start
      labels) (counter : Counter) (since : Time)
    (hreset : ∀ event ∈ (StepRun.run (step env) start labels).history,
      counter.resetIn since event = false) :
    counter.guesses since (StepRun.run (step env) start labels).history ≤ counter.limit := by
  have hend := StepRun.invariant_of_meets (step env) (Bounded env)
    (fun _ _ hbounded hcondition => hbounded.step hcondition) (bounded_of_idle htasks hnew)
    hmeets
  refine (hend.bounded counter since (List.all_eq_true.mpr fun event hevent => ?_)).1
  rw [hreset event hevent]
  rfl

end WatchedPanel

/- One account, and somebody who guesses. -/
namespace GuessedAccount

def start : WatchedPanel :=
  ⟨⟨⟨1000, 10, [Sample.admin 1 "root@mail.test"], [], [], []⟩, []⟩, []⟩

def wrong : LoginInput := ⟨"root@mail.test", "guess", "192.0.2.1"⟩

/-- Ten guesses, each of them counted before the next, and an eleventh. -/
def inTurn : List Label :=
  (List.range 10).flatMap (fun index => [.login wrong, .proceed index, .elapse 1000]) ++
    [.login wrong, .proceed 10]

/-- Nobody is being verified as a login comes in. -/
def Alone (w : WatchedPanel) : Label → Bool
  | .login _ => w.panel.db.now < IsoTime.firstSigned &&
      w.panel.tasks.all fun task => (task.guess Sample.env).isNone
  | .pruneExpired => w.panel.db.now < IsoTime.firstSigned
  | _ => true

theorem countsWaiting_of_alone {w : WatchedPanel} {label : Label}
    (halone : Alone w label = true) : w.panel.CountsWaiting Sample.env label := by
  cases label with
  | login input =>
      rw [Alone, Bool.and_eq_true, decide_eq_true_eq, List.all_eq_true] at halone
      refine ⟨halone.1, fun counter _ => Or.inl ?_⟩
      rw [Panel.waiting, List.countP_eq_zero]
      intro task htask
      rw [Counter.countsTask, Option.isNone_iff_eq_none.mp (halone.2 task htask)]
      exact Bool.false_ne_true
  | pruneExpired =>
      rw [Alone, decide_eq_true_eq] at halone
      exact halone
  | _ => trivial

/-- The limit is reached and not exceeded: the eleventh guess is refused unheard. -/
theorem inTurn_within_limit :
    (Counter.perIdentifier "root@mail.test").guesses 1000
        (StepRun.run (WatchedPanel.step Sample.env) start inTurn).history ≤ 10 ∧
      (StepRun.run (WatchedPanel.step Sample.env) start inTurn).history.length = 10 ∧
      (StepRun.run (WatchedPanel.step Sample.env) start inTurn).panel.tasks.length = 11 := by
  have halone : StepRun.Meets (WatchedPanel.step Sample.env)
      (fun w label => Alone w label = true) start inTurn := by
    decide +kernel
  have hmeets := StepRun.meets_of_meets (WatchedPanel.step Sample.env) (fun _ => True)
    (fun _ _ _ hcondition => ⟨countsWaiting_of_alone hcondition, trivial⟩) trivial halone
  have hreset : ∀ event ∈ (StepRun.run (WatchedPanel.step Sample.env) start inTurn).history,
      (Counter.perIdentifier "root@mail.test").resetIn 1000 event = false := by
    decide +kernel
  exact ⟨WatchedPanel.guesses_le_limit Sample.env rfl rfl hmeets
    (.perIdentifier "root@mail.test") 1000 hreset, by decide +kernel, by decide +kernel⟩

/-- Eleven requests are past the check before the first of them is counted. -/
def atOnce : List Label :=
  List.replicate 11 (.login wrong) ++ (List.range 11).map .proceed

/-- Eleven requests are past the check before the first of them is counted, with a limit of
ten. -/
theorem atOnce_beyond_limit : ¬∀ (env : Env) (start : WatchedPanel) (labels : List Label),
    start.panel.tasks = [] → start.history = [] → ∀ (counter : Counter) (since : Time),
      (∀ event ∈ (StepRun.run (WatchedPanel.step env) start labels).history,
        counter.resetIn since event = false) →
      counter.guesses since (StepRun.run (WatchedPanel.step env) start labels).history ≤
        counter.limit := by
  intro hclaim
  have hlimit := hclaim Sample.env start atOnce rfl rfl (.perIdentifier "root@mail.test") 1000
    (by decide)
  exact absurd hlimit (by decide)

end GuessedAccount

end Auth

end MailPanel

import Mathlib.Data.List.Induction
import Mathlib.Algebra.Order.Ring.Int
import Mathlib.Logic.Function.Basic

/-
How often a connection may call tools: the times of the calls that were allowed, forgotten
after a minute.
-/

namespace MailPanel

namespace ToolLimit

/-- Milliseconds. -/
def windowMillis : ℤ := 60000

structure ToolRateLimiter where
  calls : String → List ℤ

def newLimiter : ToolRateLimiter := ⟨fun _ => []⟩

/-- The times of the last minute. -/
def recent (now : ℤ) (times : List ℤ) : List ℤ := times.filter fun t => now - t < windowMillis

structure Call where
  connectionId : String
  now : ℤ
deriving DecidableEq, Repr

def ToolRateLimiter.allow (limiter : ToolRateLimiter) (perMinute : ℕ) (call : Call) :
    ToolRateLimiter × Bool :=
  let recent := recent call.now (limiter.calls call.connectionId)
  if perMinute ≤ recent.length then
    (⟨Function.update limiter.calls call.connectionId recent⟩, false)
  else
    (⟨Function.update limiter.calls call.connectionId (recent ++ [call.now])⟩, true)

/-- The limiter, and the calls that it allowed. -/
structure Progress where
  limiter : ToolRateLimiter
  allowed : List Call

def step (perMinute : ℕ) (progress : Progress) (call : Call) : Progress :=
  match progress.limiter.allow perMinute call with
  | (limiter, true) => ⟨limiter, progress.allowed ++ [call]⟩
  | (limiter, false) => ⟨limiter, progress.allowed⟩

def run (perMinute : ℕ) (calls : List Call) : Progress :=
  calls.foldl (step perMinute) ⟨newLimiter, []⟩

def answer (perMinute : ℕ) (earlier : List Call) (call : Call) : Bool :=
  ((run perMinute earlier).limiter.allow perMinute call).2

/-- When a connection made its calls. -/
def timesOf (connectionId : String) (calls : List Call) : List ℤ :=
  (calls.filter fun call => call.connectionId = connectionId).map Call.now

/-- The times from a start on, before a minute is over. -/
def inWindow (start : ℤ) (times : List ℤ) : List ℤ :=
  times.filter fun t => start ≤ t ∧ t < start + windowMillis

def Ordered (calls : List Call) : Prop := (calls.map Call.now).Pairwise (· ≤ ·)

section Recent

variable {now later start : ℤ} {times others : List ℤ}

theorem recent_append : recent now (times ++ others) = recent now times ++ recent now others :=
  List.filter_append ..

/-- What is forgotten would not count later. -/
theorem recent_recent (hlater : now ≤ later) : recent later (recent now times) = recent later times := by
  rw [recent, recent, recent, List.filter_filter]
  refine List.filter_congr fun t _ => ?_
  rw [Bool.and_eq_left_iff_imp, decide_eq_true_eq, decide_eq_true_eq]
  intro hrecent
  omega

theorem length_inWindow_le (hend : now < start + windowMillis) :
    (inWindow start times).length ≤ (recent now times).length := by
  rw [inWindow, recent, ← List.countP_eq_length_filter, ← List.countP_eq_length_filter]
  refine List.countP_mono_left fun t _ hwindow => ?_
  rw [decide_eq_true_eq] at hwindow ⊢
  omega

end Recent

section Limiter

variable {perMinute : ℕ} {limiter : ToolRateLimiter} {call : Call}

/-- What one call does. -/
theorem allow_spec : ∃ ok,
    limiter.allow perMinute call = (⟨Function.update limiter.calls call.connectionId
      (recent call.now (limiter.calls call.connectionId) ++ if ok then [call.now] else [])⟩, ok) ∧
    (ok = true ↔ (recent call.now (limiter.calls call.connectionId)).length < perMinute) := by
  by_cases hfull : perMinute ≤ (recent call.now (limiter.calls call.connectionId)).length
  · refine ⟨false, ?_, ?_⟩
    · rw [ToolRateLimiter.allow, if_pos hfull, if_neg Bool.false_ne_true, List.append_nil]
    · exact iff_of_false Bool.false_ne_true (Nat.not_lt_of_le hfull)
  · refine ⟨true, ?_, ?_⟩
    · rw [ToolRateLimiter.allow, if_neg hfull, if_pos rfl]
    · exact iff_of_true rfl (Nat.lt_of_not_le hfull)

theorem timesOf_append (connectionId : String) (calls others : List Call) :
    timesOf connectionId (calls ++ others) =
      timesOf connectionId calls ++ timesOf connectionId others := by
  rw [timesOf, List.filter_append, List.map_append]
  rfl

theorem timesOf_if (connectionId : String) (ok : Bool) :
    timesOf connectionId (if ok then [call] else []) =
      if ok ∧ call.connectionId = connectionId then [call.now] else [] := by
  cases ok with
  | false => simp [timesOf]
  | true =>
      by_cases hsame : call.connectionId = connectionId
      · simp [timesOf, hsame]
      · simp [timesOf, hsame]

theorem step_allowed (progress : Progress) : (step perMinute progress call).allowed =
    progress.allowed ++ if (progress.limiter.allow perMinute call).2 then [call] else [] := by
  rw [step]
  rcases progress.limiter.allow perMinute call with ⟨limiter, ok⟩
  cases ok with
  | true => rfl
  | false => exact (List.append_nil _).symm

/-- The limiter remembers of the allowed calls what still counts: at any later moment, those of
a connection within the window are the same in its memory as in the history. -/
structure Remembers (perMinute : ℕ) (progress : Progress) (last : ℤ) : Prop where
  exact : ∀ connectionId now, last ≤ now →
    recent now (progress.limiter.calls connectionId) =
      recent now (timesOf connectionId progress.allowed)
  past : ∀ call ∈ progress.allowed, call.now ≤ last
  bound : ∀ connectionId start,
    (inWindow start (timesOf connectionId progress.allowed)).length ≤ perMinute

theorem Remembers.answer {progress : Progress} {last : ℤ}
    (hremembers : Remembers perMinute progress last) (hlast : last ≤ call.now) :
    (progress.limiter.allow perMinute call).2 = true ↔
      (recent call.now (timesOf call.connectionId progress.allowed)).length < perMinute := by
  obtain ⟨ok, hallow, hok⟩ := @allow_spec perMinute progress.limiter call
  rw [hallow, ← hremembers.exact call.connectionId call.now hlast]
  exact hok

theorem remembers_new (perMinute : ℕ) (last : ℤ) : Remembers perMinute ⟨newLimiter, []⟩ last where
  exact := fun _ _ _ => rfl
  past := fun _ hcall => absurd hcall List.not_mem_nil
  bound := fun _ _ => Nat.zero_le perMinute

theorem Remembers.step {progress : Progress} {last : ℤ}
    (hremembers : Remembers perMinute progress last) (hlast : last ≤ call.now) :
    Remembers perMinute (step perMinute progress call) call.now := by
  have hanswer := @Remembers.answer perMinute call progress last hremembers hlast
  obtain ⟨ok, hallow, -⟩ := @allow_spec perMinute progress.limiter call
  have hstep : ToolLimit.step perMinute progress call =
      ⟨⟨Function.update progress.limiter.calls call.connectionId
        (recent call.now (progress.limiter.calls call.connectionId) ++
          if ok then [call.now] else [])⟩,
        progress.allowed ++ if ok then [call] else []⟩ := by
    rw [ToolLimit.step, hallow]
    cases ok with
    | true => rfl
    | false => exact congrArg (Progress.mk _) (List.append_nil _).symm
  rw [hallow] at hanswer
  rw [hstep]
  have htimes : ∀ connectionId, timesOf connectionId (progress.allowed ++ if ok then [call] else []) =
      timesOf connectionId progress.allowed ++
        if ok ∧ call.connectionId = connectionId then [call.now] else [] := by
    intro connectionId
    rw [timesOf_append, timesOf_if]
  refine ⟨?_, ?_, ?_⟩
  · intro connectionId now hnow
    rw [htimes, recent_append, ← hremembers.exact connectionId now (hlast.trans hnow)]
    by_cases hsame : connectionId = call.connectionId
    · subst hsame
      dsimp only
      rw [Function.update_self, recent_append, recent_recent hnow]
      simp
    · dsimp only
      rw [Function.update_of_ne hsame, if_neg fun hboth => hsame hboth.2.symm]
      exact (List.append_nil _).symm
  · intro other hother
    rcases List.mem_append.mp hother with hother | hother
    · exact (hremembers.past other hother).trans hlast
    · cases ok with
      | false => cases hother
      | true =>
          obtain rfl := List.mem_singleton.mp hother
          exact Int.le_refl _
  · intro connectionId start
    dsimp only
    rw [htimes, inWindow, List.filter_append, List.length_append]
    have hbound := hremembers.bound connectionId start
    by_cases hcounts : ok ∧ call.connectionId = connectionId
    · obtain ⟨hok, rfl⟩ := hcounts
      by_cases hinside : start ≤ call.now ∧ call.now < start + windowMillis
      · have hroom := hanswer.mp hok
        have hle := @length_inWindow_le call.now start
          (timesOf call.connectionId progress.allowed) hinside.2
        rw [if_pos ⟨hok, rfl⟩, List.filter_cons_of_pos (by simpa using hinside)]
        exact Nat.succ_le_of_lt (Nat.lt_of_le_of_lt hle hroom)
      · rw [if_pos ⟨hok, rfl⟩, List.filter_cons_of_neg (by simpa using hinside)]
        exact hbound
    · rw [if_neg hcounts]
      exact hbound

theorem Remembers.mono {progress : Progress} {last later : ℤ}
    (hremembers : Remembers perMinute progress last) (hlater : last ≤ later) :
    Remembers perMinute progress later where
  exact := fun connectionId now hnow => hremembers.exact connectionId now (hlater.trans hnow)
  past := fun call hcall => (hremembers.past call hcall).trans hlater
  bound := hremembers.bound

end Limiter

section Runs

variable {perMinute : ℕ}

theorem run_concat (perMinute : ℕ) (calls : List Call) (call : Call) :
    run perMinute (calls ++ [call]) = step perMinute (run perMinute calls) call := by
  rw [run, List.foldl_append]
  rfl

theorem ordered_concat {calls : List Call} {call : Call} :
    Ordered (calls ++ [call]) ↔ Ordered calls ∧ ∀ earlier ∈ calls, earlier.now ≤ call.now := by
  rw [Ordered, List.map_append, List.pairwise_append]
  constructor
  · rintro ⟨hordered, -, hlast⟩
    exact ⟨hordered, fun earlier hearlier =>
      hlast _ (List.mem_map_of_mem hearlier) _ List.mem_cons_self⟩
  · rintro ⟨hordered, hlast⟩
    refine ⟨hordered, List.pairwise_singleton _ _, ?_⟩
    intro _ hearlier _ hcall
    obtain ⟨earlier, hmem, rfl⟩ := List.mem_map.mp hearlier
    obtain rfl := List.mem_singleton.mp hcall
    exact hlast earlier hmem

theorem Ordered.of_append {calls others : List Call} (hordered : Ordered (calls ++ others)) :
    Ordered calls := by
  rw [Ordered, List.map_append] at hordered
  exact (List.pairwise_append.mp hordered).1

theorem Ordered.without {earlier between : List Call} {dropped call : Call}
    (hordered : Ordered (earlier ++ dropped :: between ++ [call])) :
    Ordered (earlier ++ between ++ [call]) := by
  have hsublist : (earlier ++ between).Sublist (earlier ++ dropped :: between) :=
    (List.Sublist.refl earlier).append (List.sublist_cons_self dropped between)
  exact List.Pairwise.sublist ((hsublist.append (List.Sublist.refl [call])).map Call.now) hordered

theorem exists_last (calls : List Call) : ∃ last, ∀ call ∈ calls, call.now ≤ last := by
  induction calls with
  | nil => exact ⟨0, fun call hcall => absurd hcall List.not_mem_nil⟩
  | cons call calls ih =>
      obtain ⟨last, hlast⟩ := ih
      refine ⟨max call.now last, ?_⟩
      intro other hother
      rcases List.mem_cons.mp hother with rfl | hother
      · exact le_max_left _ _
      · exact (hlast other hother).trans (le_max_right _ _)

theorem remembers_run {calls : List Call} (hordered : Ordered calls) {last : ℤ}
    (hlast : ∀ call ∈ calls, call.now ≤ last) : Remembers perMinute (run perMinute calls) last := by
  induction calls using List.reverseRecOn generalizing last with
  | nil => exact remembers_new perMinute last
  | append_singleton calls call ih =>
      obtain ⟨hordered, hcalls⟩ := ordered_concat.mp hordered
      rw [run_concat]
      exact ((ih hordered hcalls).step (Int.le_refl _)).mono
        (hlast call (List.mem_append_right calls List.mem_cons_self))

/-- The allowed calls of the connection in the last minute decide. -/
theorem answer_iff {earlier : List Call} {call : Call} (hordered : Ordered (earlier ++ [call])) :
    answer perMinute earlier call = true ↔
      (recent call.now (timesOf call.connectionId (run perMinute earlier).allowed)).length <
        perMinute := by
  obtain ⟨hordered, hlast⟩ := ordered_concat.mp hordered
  exact (remembers_run hordered hlast).answer (Int.le_refl _)

theorem timesOf_run_concat (connectionId : String) (earlier : List Call) (call : Call) :
    timesOf connectionId (run perMinute (earlier ++ [call])).allowed =
      timesOf connectionId (run perMinute earlier).allowed ++
        if answer perMinute earlier call ∧ call.connectionId = connectionId then [call.now]
        else [] := by
  rw [run_concat, step_allowed, timesOf_append, timesOf_if]
  rfl

/-- A call that was refused, or that another connection made, leaves no trace. -/
theorem timesOf_run_dropped {connectionId : String} {earlier between : List Call} {dropped : Call}
    (hordered : Ordered (earlier ++ dropped :: between))
    (hdropped : dropped.connectionId ≠ connectionId ∨ answer perMinute earlier dropped = false) :
    timesOf connectionId (run perMinute (earlier ++ dropped :: between)).allowed =
      timesOf connectionId (run perMinute (earlier ++ between)).allowed := by
  induction between using List.reverseRecOn with
  | nil =>
      rw [List.append_nil, timesOf_run_concat, if_neg, List.append_nil]
      rintro ⟨hanswer, hsame⟩
      rcases hdropped with hother | hrefused
      · exact hother hsame
      · exact Bool.false_ne_true (hrefused.symm.trans hanswer)
  | append_singleton between call ih =>
      have hassoc : earlier ++ dropped :: (between ++ [call]) =
          (earlier ++ dropped :: between) ++ [call] := by
        rw [List.append_assoc, List.cons_append]
      rw [hassoc] at hordered ⊢
      have htimes := ih hordered.of_append
      have hwithout := hordered.without
      rw [← List.append_assoc, timesOf_run_concat, timesOf_run_concat, htimes]
      by_cases hsame : call.connectionId = connectionId
      · subst hsame
        have hanswer : answer perMinute (earlier ++ dropped :: between) call =
            answer perMinute (earlier ++ between) call := by
          rw [Bool.eq_iff_iff, answer_iff hordered, answer_iff hwithout, htimes]
        rw [hanswer]
      · rw [if_neg fun hboth => hsame hboth.2, if_neg fun hboth => hsame hboth.2]

end Runs

/-- No minute holds more allowed calls of a connection than it may make; a call is refused for
the allowed calls of its connection in the last minute, and for nothing else. Refused calls and
calls of other connections may be dropped from a run without a change of any later answer. -/
theorem allow_slidingWindow (perMinute : ℕ) (calls : List Call) (hordered : Ordered calls) :
    (∀ connectionId start,
      (inWindow start (timesOf connectionId (run perMinute calls).allowed)).length ≤ perMinute) ∧
    (∀ earlier call later, calls = earlier ++ call :: later →
      (answer perMinute earlier call = true ↔
        (recent call.now (timesOf call.connectionId (run perMinute earlier).allowed)).length <
          perMinute)) ∧
    (∀ earlier dropped between call later,
      calls = earlier ++ dropped :: between ++ call :: later →
      dropped.connectionId ≠ call.connectionId ∨ answer perMinute earlier dropped = false →
      answer perMinute (earlier ++ dropped :: between) call =
        answer perMinute (earlier ++ between) call) := by
  have hcut : ∀ earlier call later, calls = earlier ++ call :: later →
      Ordered (earlier ++ [call]) := by
    rintro earlier call later rfl
    rw [← List.singleton_append, ← List.append_assoc] at hordered
    exact hordered.of_append
  refine ⟨?_, ?_, ?_⟩
  · obtain ⟨last, hlast⟩ := exists_last calls
    exact (remembers_run hordered hlast).bound
  · intro earlier call later heq
    exact answer_iff (hcut earlier call later heq)
  · intro earlier dropped between call later heq hdropped
    have hwith := hcut _ call later heq
    have hwithout := hwith.without
    rw [Bool.eq_iff_iff, answer_iff hwith, answer_iff hwithout,
      timesOf_run_dropped hwith.of_append hdropped]

/-- With two calls a minute, the third waits until the first is a minute old, to the
millisecond. -/
theorem allow_slidingWindow_two :
    Ordered [⟨"a", 0⟩, ⟨"a", 1⟩, ⟨"a", 59999⟩, ⟨"a", 60000⟩] ∧
    (run 2 [⟨"a", 0⟩, ⟨"a", 1⟩, ⟨"a", 59999⟩, ⟨"a", 60000⟩]).allowed =
      [⟨"a", 0⟩, ⟨"a", 1⟩, ⟨"a", 60000⟩] ∧
    ∀ connectionId start, (inWindow start (timesOf connectionId
      (run 2 [⟨"a", 0⟩, ⟨"a", 1⟩, ⟨"a", 59999⟩, ⟨"a", 60000⟩]).allowed)).length ≤ 2 := by
  have hordered : Ordered [⟨"a", 0⟩, ⟨"a", 1⟩, ⟨"a", 59999⟩, ⟨"a", 60000⟩] := by
    simp [Ordered]
  exact ⟨hordered, by decide, (allow_slidingWindow 2 _ hordered).1⟩

end ToolLimit

end MailPanel

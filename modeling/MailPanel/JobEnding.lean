import MailPanel.JobOrder

/-
What is left when subscribers and writes throw: the statuses that have ended stay, and the
next job starts, as long as the runner can take what is thrown.
-/

namespace MailPanel

namespace Jobs

open RowTable StepRun

/-- A step leaves the rows that have ended as they are, and starts the next job with the end
of the current one. -/
structure Runner.Ends (r : Runner) (label : Label) : Prop where
  final : ∀ id row, r.rows.getById id = some row → row.status.isActive = false →
    ∃ next, (r.step label).rows.getById id = some next ∧ next.status = row.status
  next : ∀ job other rest, r.current = some job → (r.step label).current ≠ some job →
    r.queue = other :: rest → (r.step label).current = some other

/-- A resolved job is not failed; outside every call, a free runner has nothing queued, and a
busy one waits for the closure of its current job. -/
structure Runner.Unwedged (r : Runner) : Prop where
  resolved : ∀ job ∈ r.resolved, ∀ row, r.rows.getById job = some row → row.status ≠ .failed
  free : r.stack = [] → r.current = none → r.queue = []
  busy : r.stack = [] → ∀ job, r.current = some job → r.awaiting = [job]

namespace Runner

variable {r next : Runner} {job : JobId} {faults : Faults}

/-- The job that was current still is, or the head of the queue has taken its place. -/
def Follows (next : Runner) (current : Option JobId) (queue : List JobId) : Prop :=
  next.current = current ∨ next.current = queue.head?

theorem publishRunning_current : (r.publishRunning job).current = r.current := by
  rw [publishRunning]
  split
  · rfl
  · rfl

theorem start_current {fault : Fault} : (r.start fault job).current = some job := by
  simp only [start]
  split
  · exact publishRunning_current
  · rfl

theorem finish_current (hpending : ∀ job ∈ r.queue, job ∈ r.pending) :
    (r.finish faults).current = r.queue.head? := by
  cases hqueue : r.queue with
  | nil => simp [finish, pump, hqueue]
  | cons job rest =>
      have hmem : job ∈ r.pending := hpending job (hqueue ▸ List.mem_cons_self)
      simp only [finish, pump, hqueue, hmem, Option.isSome_none, Bool.false_eq_true, ↓reduceIte,
        start_current, List.head?_cons]

/-- The runner is busy, and has the closures of the queued jobs. -/
def Busy (r : Runner) : Prop := r.current.isSome = true ∧ ∀ job ∈ r.queue, job ∈ r.pending

theorem goOn_follows (hbusy : r.Busy) (after : After) :
    (r.goOn faults after).Follows r.current r.queue := by
  cases after with
  | enqueued =>
      refine Or.inl ?_
      rw [goOn, pump, if_pos hbusy.1]
  | cancelled | reported | running => exact Or.inl rfl
  | succeeded | failed => exact Or.inr (finish_current hbusy.2)

theorem publish_follows (hbusy : r.Busy) (after : After) :
    (r.publish faults after).Follows r.current r.queue := by
  rw [publish]
  split
  · exact Or.inl rfl
  · exact goOn_follows hbusy after

theorem fail_follows (hbusy : r.Busy) (message : String) :
    (r.fail faults job message).Follows r.current r.queue := by
  simp only [fail]
  split
  · refine publish_follows ?_ (.failed job)
    exact hbusy
  · refine Or.inr (finish_current ?_)
    exact hbusy.2

theorem succeed_follows (hbusy : r.Busy) (metadata : String) :
    (r.succeed faults job metadata).Follows r.current r.queue := by
  simp only [succeed]
  split
  · refine publish_follows ?_ (.succeeded job)
    exact hbusy
  · refine fail_follows ?_ faults.message
    exact hbusy

theorem enqueue_busy (hcurrent : r.current.isSome = true) (type metadata : String) :
    (r.enqueue type metadata faults).current = r.current := by
  simp only [enqueue]
  split
  · rw [publish]
    split
    · rfl
    · simp only [goOn, pump, hcurrent, ↓reduceIte]
  · rfl

theorem cancel_current : (r.cancel job faults).current = r.current := by
  simp only [cancel]
  split
  · rfl
  · split
    · rfl
    · split
      · rw [publish]
        split
        · rfl
        · rfl
      · rfl

theorem report_current (progress : Option Nat) (fault : Fault) :
    (r.report job progress fault).current = r.current := by
  cases progress with
  | none | some =>
      simp only [report]
      split
      · split
        · rfl
        · rfl
      · rfl

theorem returns_follows (hbusy : r.Busy) : (r.returns faults).Follows r.current r.queue := by
  simp only [returns]
  split
  · exact Or.inl rfl
  · split
    · exact Or.inl rfl
    · refine goOn_follows ?_ _
      exact hbusy
  · exact Or.inl rfl

theorem throws_follows (hbusy : r.Busy) (message : String) :
    (r.throws message faults).Follows r.current r.queue := by
  simp only [throws]
  split
  · exact Or.inl rfl
  · split
    · refine fail_follows ?_ message
      exact hbusy
    · refine Or.inr (finish_current ?_)
      exact hbusy.2
    · exact Or.inl rfl
  · refine fail_follows ?_ message
    exact hbusy

theorem step_follows (hbusy : r.Busy) (label : Label) :
    (r.step label).Follows r.current r.queue := by
  cases label with
  | enqueue type metadata => exact Or.inl (enqueue_busy hbusy.1 type metadata)
  | cancel => exact Or.inl cancel_current
  | subscribe | unsubscribe => exact Or.inl rfl
  | report job progress fault => exact Or.inl (report_current progress fault)
  | returns => exact returns_follows hbusy
  | throws message => exact throws_follows hbusy message
  | resolve metadata faults =>
      simp only [step, settle]
      split
      · refine succeed_follows ?_ metadata
        exact hbusy
      · exact Or.inl rfl
  | reject message faults =>
      simp only [step, settle]
      split
      · refine fail_follows ?_ message
        exact hbusy
      · exact Or.inl rfl

/-- Its own rows may stand for the earlier ones. -/
theorem Tidy.rebase {calm : Prop} {before : Table} (h : Tidy calm before r) :
    Tidy calm r.rows r :=
  ⟨Keeps.refl r.rows, h.row_nodup, h.row_lt, h.fresh, h.taken_lt, h.pending, h.holding,
    h.current, h.queued, h.running, h.resolved, h.exact⟩

theorem Tidy.unwedged {calm : Prop} {before : Table} (h : Tidy calm before r)
    (hpumped : r.Pumped) : r.Unwedged := by
  refine ⟨?_, hpumped.empty, ?_⟩
  · intro job hjob row hrow
    exact (h.resolved job hjob).2.2 row (mem_of_lookup hrow) (key_of_lookup hrow)
  · intro hstack job hcurrent
    rw [h.awaiting hstack, hcurrent]
    rfl

theorem Tidy.ends {calm : Prop} (h : Tidy calm r.rows r) {label : Label}
    (hnext : Tidy calm r.rows (r.step label)) : r.Ends label := by
  refine ⟨?_, ?_⟩
  · intro id row hrow hended
    obtain ⟨next, hnext_mem, hid, hstatus⟩ := hnext.keeps row (mem_of_lookup hrow) hended
    refine ⟨next, ?_, hstatus⟩
    rw [← key_of_lookup hrow, ← hid]
    exact lookup_of_mem hnext.row_nodup hnext_mem
  · intro job other rest hcurrent hne hqueue
    have hbusy : r.Busy := ⟨by rw [hcurrent]; rfl, h.pending⟩
    rcases step_follows hbusy label with hsame | hhead
    · exact absurd (hsame.trans hcurrent) hne
    · rw [hhead, hqueue]
      rfl

/-- While the runner can take what is thrown, statuses that have ended stay, a resolved job is
not failed, and the end of a job starts the next one. The condition is about throws at the start
of a job, which nothing catches, and about throws once a job has succeeded, which are caught as
failures of the job. -/
theorem ends_of_guarded (rows : Table) (labels : List Label)
    (hkey : (rows.map JobRow.id).Nodup)
    (hguarded : Meets step (fun r label => r.guarded label = true) (create rows) labels) :
    Meets step Ends (create rows) labels ∧ (run step (create rows) labels).Unwedged := by
  have hstep : ∀ (r : Runner) (label : Label), Tidy False r.rows r ∧ r.Pumped →
      r.guarded label = true →
      r.Ends label ∧ Tidy False (r.step label).rows (r.step label) ∧ (r.step label).Pumped := by
    intro r label hr hlabel
    obtain ⟨htidy, hpumped⟩ := step_kept hr.1 hr.2 hlabel False.elim
    exact ⟨hr.1.ends htidy, htidy.rebase, hpumped⟩
  constructor
  · exact meets_of_meets step (fun r => Tidy False r.rows r ∧ r.Pumped) hstep (create_tidy hkey)
      hguarded
  · have hkept := invariant_of_meets step (fun r => Tidy False r.rows r ∧ r.Pumped)
      (fun r label hr hlabel => (hstep r label hr hlabel).2) (create_tidy hkey) hguarded
    exact hkept.1.unwedged hkept.2

end Runner

namespace ThrowingSubscriber

open NestedCalls

/-- The subscriber of the first job throws when it hears that the job succeeded, and the row
cannot be marked failed. -/
def shielded : List Label :=
  [.enqueue "backup.create" "{}" quiet, .enqueue "backup.verify" "{}" quiet, .subscribe 5 0,
    .returns quiet, .resolve "{}" quiet,
    .throws "stream closed" { quiet with markFailed := .before }, .returns quiet,
    .reject "no space" quiet]

/-- The subscriber throws when it hears that the first job succeeded, and the row cannot be
marked failed: the success stays, and the second job runs to its end. -/
theorem shielded_ends :
    Meets Runner.step Runner.Ends (Runner.create earlier) shielded ∧
      (run Runner.step (Runner.create earlier) shielded).Unwedged :=
  Runner.ends_of_guarded earlier shielded (by decide) (by decide)

/-- The subscriber throws when it hears that the job succeeded. -/
def onSuccess : List Label :=
  [.enqueue "backup.create" "{}" quiet, .subscribe 5 0, .returns quiet, .resolve "{}" quiet]

/-- It throws when it hears that the job starts. -/
def onStart : List Label :=
  [.enqueue "backup.create" "{}" quiet, .enqueue "backup.verify" "{}" quiet, .subscribe 6 0,
    .returns quiet, .resolve "{}" quiet, .throws "stream closed" quiet,
    .enqueue "backup.prune" "{}" quiet]

/-- A success becomes a failure, because a subscriber that throws is caught as if the job had;
and a job that never ran holds the runner for good, because its subscriber threw at its start,
outside the part that frees the runner. -/
theorem success_fails_and_start_wedges :
    ¬ (run Runner.step (Runner.create earlier) onSuccess).Ends (.throws "stream closed" quiet) ∧
      ¬ (run Runner.step (Runner.create earlier)
          (onSuccess ++ [.throws "stream closed" quiet])).Unwedged ∧
      ¬ (run Runner.step (Runner.create earlier) onStart).Unwedged := by
  refine ⟨?_, ?_, ?_⟩
  · intro hends
    have hrow : (run Runner.step (Runner.create earlier) onSuccess).rows.getById 5 =
        some ⟨5, "backup.create", .succeeded, 100, none, "{}"⟩ := by decide
    obtain ⟨next, hnext, hstatus⟩ := hends.final 5 _ hrow rfl
    have hfailed : ((run Runner.step (Runner.create earlier) onSuccess).step
        (.throws "stream closed" quiet)).rows.getById 5 =
          some ⟨5, "backup.create", .failed, 100, some "stream closed", "{}"⟩ := by
      decide
    obtain rfl := Option.some.inj (hnext.symm.trans hfailed)
    exact absurd hstatus (by decide)
  · intro hunwedged
    exact hunwedged.resolved 5 (by decide)
      ⟨5, "backup.create", .failed, 100, some "stream closed", "{}"⟩ (by decide) rfl
  · intro hunwedged
    have hbusy := hunwedged.busy (by decide) 6 (by decide)
    exact absurd hbusy (by decide)

end ThrowingSubscriber

end Jobs

end MailPanel

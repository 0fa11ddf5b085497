import MailPanel.JobSteps

/-
While neither a write nor a subscriber throws, the runner is serial, keeps the order of
the queue, and runs every job that is not cancelled exactly once.
-/

namespace MailPanel

namespace Jobs

open RowTable StepRun

/-- What the runner promises of its jobs in every state. -/
structure Runner.Serial (r : Runner) : Prop where
  /-- At most one job is between its start and its end. -/
  one : r.inProgress.length ≤ 1
  /-- The jobs that are not cancelled have started in the order they were queued in, or
  are still queued in that order. -/
  order : r.enqueued.filter (fun job => !r.rows.cancelled job) = r.started ++ r.queue
  /-- The jobs that have started are executed, but for those whose start is being
  published. -/
  executed : r.started = r.executed ++ r.starting
  once : r.executed.Nodup
  never : ∀ job, r.rows.cancelled job = true → job ∉ r.executed
  /-- Outside every call, a busy runner waits for the closure of its current job. -/
  busy : r.stack = [] → ∀ job, r.current = some job → r.awaiting = [job]
  /-- Outside every call, a free runner has executed all there is. -/
  idle : r.stack = [] → r.current = none →
    r.executed = r.enqueued.filter (fun job => !r.rows.cancelled job) ∧
      ∀ row ∈ r.rows, row.status.isActive = false

namespace Runner

variable {r : Runner}

theorem le_foldl_max (ids : List JobId) (bound : JobId) :
    bound ≤ ids.foldl max bound ∧ ∀ id ∈ ids, id ≤ ids.foldl max bound := by
  induction ids generalizing bound with
  | nil => exact ⟨Nat.le_refl bound, fun id hid => absurd hid List.not_mem_nil⟩
  | cons head tail ih =>
      obtain ⟨hbound, htail⟩ := ih (max bound head)
      refine ⟨Nat.le_trans (Nat.le_max_left bound head) hbound, ?_⟩
      intro id hid
      rcases List.mem_cons.mp hid with rfl | hid
      · exact Nat.le_trans (Nat.le_max_right bound id) hbound
      · exact htail id hid

theorem inactive_recoverInterruptedJobs {rows : Table} {row : JobRow}
    (hrow : row ∈ rows.recoverInterruptedJobs) : row.status.isActive = false := by
  rcases mem_updateWhere.mp hrow with ⟨-, hinactive⟩ | ⟨old, -, -, rfl⟩
  · exact hinactive
  · rfl

/-- A new runner, over rows with distinct ids, is tidy and has nothing to pump: what earlier
processes left active is marked as interrupted. -/
theorem create_tidy {calm : Prop} {rows : Table} (hkey : (rows.map JobRow.id).Nodup) :
    Tidy calm (create rows).rows (create rows) ∧ (create rows).Pumped := by
  have hids : rows.recoverInterruptedJobs.map JobRow.id = rows.map JobRow.id :=
    map_updateWhere JobRow.id fun _ _ => rfl
  have hinactive : ∀ row ∈ (create rows).rows, ∀ status : JobStatus, status.isActive = true →
      row.status ≠ status := by
    intro row hrow status hactive heq
    have hrow := inactive_recoverInterruptedJobs hrow
    rw [heq, hactive] at hrow
    exact absurd hrow.symm Bool.false_ne_true
  constructor
  · refine ⟨Keeps.refl _, ?_, ?_, List.nodup_nil, ?_, ?_, rfl, ?_, ?_, ?_, ?_, ?_⟩
    · change (rows.recoverInterruptedJobs.map JobRow.id).Nodup
      rw [hids]
      exact hkey
    · intro row hrow
      have hid : row.id ∈ rows.recoverInterruptedJobs.map JobRow.id := List.mem_map_of_mem hrow
      rw [hids] at hid
      exact Nat.lt_succ_of_le ((le_foldl_max _ 0).2 row.id hid)
    · exact fun job hjob => absurd hjob List.not_mem_nil
    · exact fun job hjob => absurd hjob List.not_mem_nil
    · exact fun job hjob => absurd hjob.symm (Option.some_ne_none job)
    · exact fun row _ hjob => absurd hjob List.not_mem_nil
    · exact fun row _ hjob => absurd hjob List.not_mem_nil
    · exact fun job hjob => absurd hjob List.not_mem_nil
    · intro _
      refine ⟨List.nodup_nil, ?_, rfl, rfl, ?_, ?_⟩
      · exact fun job hjob => absurd hjob List.not_mem_nil
      · exact fun row hrow hqueued => absurd hqueued (hinactive row hrow .queued rfl)
      · exact fun row hrow hrunning => absurd hrunning (hinactive row hrow .running rfl)
  · exact fun _ hqueue => absurd rfl hqueue

/-- Outside every call, what a tidy runner waits for is its current job's closure. -/
theorem Tidy.awaiting {calm : Prop} {before : Table} (h : Tidy calm before r)
    (hstack : r.stack = []) : r.awaiting = r.current.toList := by
  have hholding := h.holding
  rw [Runner.holding, hstack] at hholding
  exact hholding

theorem Pumped.empty (h : r.Pumped) (hstack : r.stack = []) (hcurrent : r.current = none) :
    r.queue = [] := by
  by_contra hqueue
  obtain ⟨frame, hframe, -⟩ := h hcurrent hqueue
  rw [hstack] at hframe
  exact absurd hframe List.not_mem_nil

theorem Tidy.serial {before : Table} (h : Tidy True before r) (hpumped : r.Pumped) :
    r.Serial := by
  have hexact := h.exact trivial
  have hnodup := (List.nodup_append.mp h.fresh).1
  refine ⟨?_, hexact.order, hexact.executed, ?_, ?_, ?_, ?_⟩
  · refine Nat.le_trans (inProgress_sublist r).length_le ?_
    rw [h.holding]
    cases r.current with
    | none => exact Nat.zero_le 1
    | some job => exact Nat.le_refl 1
  · rw [hexact.executed] at hnodup
    exact (List.nodup_append.mp hnodup).1
  · intro job hcancelled hexecuted
    have hstarted : job ∈ r.started ++ r.queue := by
      rw [hexact.executed]
      exact List.mem_append_left _ (List.mem_append_left _ hexecuted)
    rw [← hexact.order] at hstarted
    have hnot := (List.mem_filter.mp hstarted).2
    rw [hcancelled] at hnot
    exact absurd hnot Bool.false_ne_true
  · intro hstack job hcurrent
    rw [h.awaiting hstack, hcurrent]
    rfl
  · intro hstack hcurrent
    have hqueue := hpumped.empty hstack hcurrent
    have hholding : r.holding = [] := by
      rw [h.holding, hcurrent]
      rfl
    obtain ⟨hinProgress, hstarting⟩ := holding_eq_nil hholding
    constructor
    · rw [hexact.order, hqueue, hexact.executed, hstarting, List.append_nil, List.append_nil]
    · intro row hrow
      cases hstatus : row.status with
      | queued =>
          have hmem := hexact.queued row hrow hstatus
          rw [hqueue] at hmem
          exact absurd hmem List.not_mem_nil
      | running =>
          have hmem := hexact.running row hrow hstatus
          rw [hinProgress] at hmem
          exact absurd hmem List.not_mem_nil
      | succeeded | failed | cancelled => rfl

/-- However the calls nest, the runner is serial, ordered and exact: at most one closure is
under way, closures begin in the order in which their jobs were enqueued, and each begins at
most once and only if it was not cancelled. Subscribers may call the runner again from within a
publication. -/
theorem serial_of_calm (rows : Table) (labels : List Label)
    (hkey : (rows.map JobRow.id).Nodup)
    (hcalm : Meets step (fun r label => r.calm label = true) (create rows) labels) :
    (run step (create rows) labels).Serial := by
  have hkept : Tidy True (create rows).rows (run step (create rows) labels) ∧
      (run step (create rows) labels).Pumped := by
    refine invariant_of_meets step
      (fun r => Tidy True (create rows).rows r ∧ r.Pumped) ?_ (create_tidy hkey) hcalm
    intro r label hr hlabel
    exact step_kept hr.1 hr.2 (guarded_of_calm hlabel) fun _ => hlabel
  exact hkept.1.serial hkept.2

end Runner

namespace NestedCalls

def quiet : Faults := ⟨.none, .none, .none, .none, .none, ""⟩

/-- The row that an earlier process left. -/
def earlier : Table := [⟨4, "backup.create", .running, 30, none, "{}"⟩]

/-- Job 5 queues two more before its first wait; the subscriber of job 6 sees it start, cancels
the one and queues another. -/
def labels : List Label :=
  [.enqueue "backup.create" "{}" quiet, .enqueue "backup.verify" "{}" quiet,
    .enqueue "backup.prune" "{}" quiet, .subscribe 6 0, .returns quiet, .resolve "{}" quiet,
    .cancel 7 quiet, .enqueue "backup.restore" "{}" quiet, .returns quiet,
    .report 6 (some 50) .none, .returns quiet, .throws "disk full" quiet, .returns quiet,
    .returns quiet, .reject "no space" quiet]

/-- Job 5 queues two more while it runs, and the subscriber of job 6 cancels the one and queues
another: the closures that ran are those of 5, 6 and 8, one after the other. -/
theorem nested_serial :
    Runner.Serial (run Runner.step (Runner.create earlier) labels) ∧
      (run Runner.step (Runner.create earlier) labels).executed = [5, 6, 8] :=
  ⟨Runner.serial_of_calm earlier labels (by decide) (by decide), by decide⟩

end NestedCalls

end Jobs

end MailPanel

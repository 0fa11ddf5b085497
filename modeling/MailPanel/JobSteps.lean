import MailPanel.JobTidy

/-
Every call keeps the runner tidy, as long as what throws does so where the runner can
take it.
-/

namespace MailPanel

namespace Jobs

open RowTable StepRun

def Faults.quiet (faults : Faults) : Bool :=
  faults.insert = .none && faults.markRunning = .none && faults.markSucceeded = .none &&
    faults.markFailed = .none && faults.markCancelled = .none

/-- No write and no subscriber throws; a closure may. It is the condition under which a
closure's failure is its job's failure and nothing else. -/
def Runner.calm (r : Runner) : Label → Bool
  | .enqueue _ _ faults | .cancel _ faults | .returns faults | .resolve _ faults
  | .reject _ faults => faults.quiet
  | .subscribe _ _ | .unsubscribe _ _ _ => true
  | .report _ _ fault => fault = .none
  | .throws _ faults =>
      faults.quiet &&
        match r.stack with
        | .publishing _ _ _ :: _ => false
        | _ => true

/-- What may throw, and where, without harm. A write or a listener that throws elsewhere leaves
a row behind that nobody comes back to. -/
def Runner.guarded (r : Runner) : Label → Bool
  | .enqueue _ _ faults | .cancel _ faults | .returns faults | .reject _ faults =>
      faults.markRunning = .none
  | .subscribe _ _ | .unsubscribe _ _ _ | .report _ _ _ => true
  | .resolve _ faults =>
      faults.markRunning = .none && (faults.markSucceeded = .none || faults.markFailed = .before)
  | .throws _ faults =>
      faults.markRunning = .none &&
        match r.stack with
        | .publishing _ _ (.running _) :: _ => false
        | .publishing _ _ (.succeeded _) :: _ => faults.markFailed = .before
        | .publishing _ _ (.enqueued _) :: rest =>
            r.current.isSome || r.queue.isEmpty || rest.any Frame.pumps
        | _ => true

namespace Runner

variable {r : Runner} {job : JobId}

section Calls

variable {calm : Prop} {before : Table} {frame : Frame} {faults : Faults}

theorem Pumped.of_current (hcurrent : r.current = some job) : r.Pumped := by
  intro hnone
  rw [hcurrent] at hnone
  exact absurd hnone (Option.some_ne_none job)

/-- A call that does not look for the next job makes no difference. -/
theorem Pumped.of_push (h : (r.push frame).Pumped) (hpumps : frame.pumps = false) :
    r.Pumped := by
  intro hcurrent hqueue
  obtain ⟨deeper, hmem, hdeeper⟩ := h hcurrent hqueue
  rcases List.mem_cons.mp hmem with rfl | hmem
  · exact absurd (hpumps.symm.trans hdeeper) Bool.false_ne_true
  · exact ⟨deeper, hmem, hdeeper⟩

theorem Pumped.push_of (h : r.Pumped) : (r.push frame).Pumped := by
  intro hcurrent hqueue
  obtain ⟨deeper, hmem, hdeeper⟩ := h hcurrent hqueue
  exact ⟨deeper, List.mem_cons_of_mem frame hmem, hdeeper⟩

theorem Pumped.republish {set last set' last' : Nat} {after : After}
    (h : (r.push (.publishing set last after)).Pumped) :
    (r.push (.publishing set' last' after)).Pumped := by
  intro hcurrent hqueue
  obtain ⟨deeper, hmem, hdeeper⟩ := h hcurrent hqueue
  rcases List.mem_cons.mp hmem with rfl | hmem
  · refine ⟨_, List.mem_cons_self, ?_⟩
    cases after with
    | _ => exact hdeeper
  · exact ⟨deeper, List.mem_cons_of_mem _ hmem, hdeeper⟩

theorem publishRunning_kept {set last : Nat}
    (h : Tidy calm before (r.push (.publishing set last (.running job)))) :
    Tidy calm before (r.publishRunning job) := by
  rw [publishRunning]
  split
  · exact h.republish
  · exact h.executed

theorem publishRunning_pumped (hcurrent : r.current = some job) :
    (r.publishRunning job).Pumped := by
  rw [publishRunning]
  split
  · exact Pumped.of_current hcurrent
  · exact Pumped.of_current hcurrent

theorem pump_kept (h : Tidy calm before r) (hfaults : faults.markRunning = .none) :
    Tidy calm before (r.pump faults) ∧ (r.pump faults).Pumped := by
  cases hcurrent : r.current with
  | some job =>
      have hpump : r.pump faults = r := by
        rw [pump, hcurrent]
        rfl
      rw [hpump]
      exact ⟨h, Pumped.of_current hcurrent⟩
  | none =>
      cases hqueue : r.queue with
      | nil =>
          have hpump : r.pump faults = r := by
            rw [pump, hcurrent, hqueue]
            rfl
          rw [hpump]
          exact ⟨h, fun _ hne => absurd hqueue hne⟩
      | cons job rest =>
          have hpending : job ∈ r.pending := h.pending job (hqueue ▸ List.mem_cons_self)
          have hnodup : (job :: rest).Nodup := hqueue ▸ (List.nodup_append.mp h.fresh).2.1
          have hrest : ∀ other ∈ rest, other ∈ r.pending.filter fun other => other ≠ job := by
            intro other hother
            refine List.mem_filter.mpr
              ⟨h.pending other (hqueue ▸ List.mem_cons_of_mem job hother), decide_eq_true ?_⟩
            exact fun heq => (List.nodup_cons.mp hnodup).1 (heq ▸ hother)
          have hpump : r.pump faults =
              ({ r with
                rows := r.rows.markRunning job
                queue := rest
                pending := r.pending.filter fun other => other ≠ job
                current := some job
                started := r.started ++ [job] } : Runner).publishRunning job := by
            rw [pump, hcurrent, hqueue]
            simp only [Option.isSome_none, Bool.false_eq_true, ↓reduceIte, hpending, start,
              hfaults, Fault.write]
          have hstarted := h.started hcurrent hqueue (Table.markRunning_marked job r.rows) hrest
          rw [hpump]
          exact ⟨publishRunning_kept hstarted, publishRunning_pumped rfl⟩

/-- The runner is free again, and takes what is queued. -/
theorem finish_kept (h : Tidy calm before (r.push frame)) (hholds : frame.holds = some job)
    (hruns : frame.runs = none) (hstarts : frame.starts = none)
    (hfaults : faults.markRunning = .none) :
    Tidy calm before (r.finish faults) ∧ (r.finish faults).Pumped :=
  pump_kept (h.freed hholds hruns hstarts) hfaults

theorem goOn_kept {set last : Nat} {after : After}
    (h : Tidy calm before (r.push (.publishing set last after)))
    (hpumped : (r.push (.publishing set last after)).Pumped)
    (hfaults : faults.markRunning = .none) :
    Tidy calm before (r.goOn faults after) ∧ (r.goOn faults after).Pumped := by
  cases after with
  | enqueued job => exact pump_kept (h.of_push rfl) hfaults
  | cancelled job | reported job => exact ⟨h.of_push rfl, hpumped.of_push rfl⟩
  | running job => exact ⟨h.executed, Pumped.of_current (h.alone rfl).1⟩
  | succeeded job | failed job => exact finish_kept h rfl rfl rfl hfaults

theorem publish_kept {after : After} (h : Tidy calm before (r.push (.publishing 0 0 after)))
    (hpumped : (r.push (.publishing 0 0 after)).Pumped)
    (hfaults : faults.markRunning = .none) :
    Tidy calm before (r.publish faults after) ∧ (r.publish faults after).Pumped := by
  rw [publish]
  split
  · exact ⟨h.republish, hpumped.republish⟩
  · exact goOn_kept h hpumped hfaults

/-- The closure has failed, and the row with it, if it can. A row that cannot be written stays
as it was, which only a calm run excludes. -/
theorem fail_kept (h : Tidy calm before (r.push (.executing job)))
    (hrunning : faults.markRunning = .none) (hfailed : calm → faults.markFailed = .none)
    {message : String} :
    Tidy calm before (r.fail faults job message) ∧ (r.fail faults job message).Pumped := by
  have hended := h.ended rfl (by decide) (Table.markFailed_marked job message r.rows)
    (fun _ => Or.inl) (.publishing 0 0 (.failed job)) rfl rfl rfl
  have hcurrent := (h.alone rfl).1
  cases hfault : faults.markFailed with
  | none =>
      rw [fail, hfault]
      exact publish_kept hended (Pumped.of_current hcurrent) hrunning
  | before =>
      have hcalm : ¬calm := fun hcalm => Fault.noConfusion ((hfailed hcalm).symm.trans hfault)
      rw [fail, hfault]
      exact finish_kept (h.dropped hcalm (fun _ => Or.inl) (.publishing 0 0 (.failed job)) rfl rfl)
        rfl rfl rfl hrunning
  | after =>
      rw [fail, hfault]
      exact finish_kept hended rfl rfl rfl hrunning

/-- The closure has succeeded: its row fails only when it cannot be written. -/
theorem succeed_kept (h : Tidy calm before (r.push (.executing job)))
    (hrunning : faults.markRunning = .none) (hsucceeded : calm → faults.markSucceeded = .none)
    (hfailed : faults.markSucceeded = .none ∨ faults.markFailed = .before) {metadata : String} :
    Tidy calm before (resolveJob metadata faults r job) ∧
      (resolveJob metadata faults r job).Pumped := by
  have hresolved : ∀ other ∈ r.resolved ++ [job], other ∈ r.resolved ∨ other = job := by
    intro other hother
    exact (List.mem_append.mp hother).imp_right List.mem_singleton.mp
  have hended := fun frame => h.ended rfl (by decide)
    (Table.markSucceeded_marked job metadata r.rows)
    (fun other hother => (hresolved other hother).imp_right fun heq => ⟨heq, by decide⟩) frame
  have hcurrent := (h.alone rfl).1
  cases hfault : faults.markSucceeded with
  | none =>
      rw [resolveJob, succeed, hfault]
      exact publish_kept (hended (.publishing 0 0 (.succeeded job)) rfl rfl rfl)
        (Pumped.of_current hcurrent) hrunning
  | before =>
      have hcalm : ¬calm := fun hcalm => Fault.noConfusion ((hsucceeded hcalm).symm.trans hfault)
      have hfailed := hfailed.resolve_left fun hnone => Fault.noConfusion (hnone.symm.trans hfault)
      rw [resolveJob, succeed, hfault]
      simp only [Fault.write, Bool.false_eq_true, ↓reduceIte, fail, hfailed]
      exact finish_kept (h.dropped hcalm hresolved (.publishing 0 0 (.failed job)) rfl rfl)
        rfl rfl rfl hrunning
  | after =>
      have hfailed := hfailed.resolve_left fun hnone => Fault.noConfusion (hnone.symm.trans hfault)
      rw [resolveJob, succeed, hfault]
      simp only [Fault.write, Bool.false_eq_true, ↓reduceIte, fail, hfailed]
      exact finish_kept (hended (.publishing 0 0 (.failed job)) rfl rfl rfl) rfl rfl rfl hrunning

theorem enqueue_kept (h : Tidy calm before r) (hpumped : r.Pumped)
    (hrunning : faults.markRunning = .none) (hinsert : calm → faults.insert = .none)
    {type metadata : String} :
    Tidy calm before (r.enqueue type metadata faults) ∧
      (r.enqueue type metadata faults).Pumped := by
  cases hfault : faults.insert with
  | none =>
      rw [enqueue, hfault]
      refine publish_kept (h.enqueued.push_of rfl) ?_ hrunning
      exact fun _ _ => ⟨.publishing 0 0 (.enqueued r.nextId), List.mem_cons_self, rfl⟩
  | before =>
      have hcalm : ¬calm := fun hcalm => Fault.noConfusion ((hinsert hcalm).symm.trans hfault)
      rw [enqueue, hfault]
      exact ⟨h.skipped hcalm, hpumped⟩
  | after =>
      have hcalm : ¬calm := fun hcalm => Fault.noConfusion ((hinsert hcalm).symm.trans hfault)
      rw [enqueue, hfault]
      exact ⟨h.inserted hcalm, hpumped⟩

theorem cancel_kept (h : Tidy calm before r) (hpumped : r.Pumped)
    (hrunning : faults.markRunning = .none) (hcancelled : calm → faults.markCancelled = .none) :
    Tidy calm before (r.cancel job faults) ∧ (r.cancel job faults).Pumped := by
  rw [cancel]
  split
  · exact ⟨h, hpumped⟩
  · rename_i row hlookup
    split
    · exact ⟨h, hpumped⟩
    · rename_i hqueued
      have hrow : ∃ row ∈ r.rows, row.id = job ∧ row.status = .queued :=
        ⟨row, mem_of_lookup hlookup, key_of_lookup hlookup, not_not.mp hqueued⟩
      have hstill : ∀ rows : Table, ({ r with
          rows := rows
          queue := r.queue.erase job
          pending := r.pending.filter fun other => other ≠ job } : Runner).Pumped := by
        intro rows hcurrent hqueue
        refine hpumped hcurrent ?_
        intro hnil
        rw [hnil] at hqueue
        exact hqueue rfl
      have hmarked := h.cancelled hrow (Or.inl (Table.markCancelled_marked job r.rows))
      cases hfault : faults.markCancelled with
      | none =>
          exact publish_kept (hmarked.push_of rfl) (hstill _).push_of hrunning
      | before =>
          have hcalm : ¬calm := fun hcalm =>
            Fault.noConfusion ((hcancelled hcalm).symm.trans hfault)
          exact ⟨h.cancelled hrow (Or.inr ⟨rfl, hcalm⟩), hstill _⟩
      | after => exact ⟨hmarked, hstill _⟩

/-- The rows once the progress that is reported has been written. -/
def progressed (job : JobId) : Option Nat → Table → Table
  | none => fun rows => rows
  | some percent => Table.updateProgress job percent

theorem progressed_state (job : JobId) (progress : Option Nat) (rows : Table) :
    (progressed job progress rows).map JobRow.state = rows.map JobRow.state := by
  cases progress with
  | none => rfl
  | some percent => exact map_updateWhere JobRow.state fun _ _ => rfl

theorem report_kept (h : Tidy calm before r) (hpumped : r.Pumped) (progress : Option Nat)
    (fault : Fault) :
    Tidy calm before (r.report job progress fault) ∧ (r.report job progress fault).Pumped := by
  have hnext := h.reported (progressed_state job progress r.rows)
  cases fault with
  | none =>
      simp only [report, Fault.write, ↓reduceIte]
      split
      · exact ⟨hnext.push_of rfl, hpumped.push_of⟩
      · exact ⟨hnext, hpumped⟩
  | before => exact ⟨h, hpumped⟩
  | after => exact ⟨hnext, hpumped⟩

theorem push_eq {rest : List Frame} (hstack : r.stack = frame :: rest) :
    ({ r with stack := rest } : Runner).push frame = r := by
  cases r
  cases hstack
  rfl

theorem returns_kept (h : Tidy calm before r) (hpumped : r.Pumped)
    (hrunning : faults.markRunning = .none) :
    Tidy calm before (r.returns faults) ∧ (r.returns faults).Pumped := by
  cases hstack : r.stack with
  | nil =>
      rw [returns, hstack]
      exact ⟨h, hpumped⟩
  | cons frame rest =>
      rw [← push_eq hstack] at h hpumped
      cases frame with
      | publishing set last after =>
          simp only [returns, hstack]
          split
          · exact ⟨h.republish, hpumped.republish⟩
          · exact goOn_kept h hpumped hrunning
      | executing job =>
          simp only [returns, hstack]
          exact ⟨h.awaited, Pumped.of_current (h.alone rfl).1⟩

theorem throws_kept (h : Tidy calm before r) (hpumped : r.Pumped) {message : String}
    (hguarded : r.guarded (.throws message faults) = true)
    (hcalm : calm → r.calm (.throws message faults) = true) :
    Tidy calm before (r.throws message faults) ∧ (r.throws message faults).Pumped := by
  rw [guarded, Bool.and_eq_true, decide_eq_true_eq] at hguarded
  obtain ⟨hrunning, hguarded⟩ := hguarded
  cases hstack : r.stack with
  | nil =>
      rw [throws, hstack]
      exact ⟨h, hpumped⟩
  | cons frame rest =>
      rw [← push_eq hstack] at h hpumped
      rw [hstack] at hguarded
      cases frame with
      | publishing set last after =>
          have hloud : ¬calm := by
            intro hholds
            have hquiet := hcalm hholds
            rw [Runner.calm, hstack, Bool.and_false] at hquiet
            exact absurd hquiet Bool.false_ne_true
          simp only [throws, hstack]
          cases after with
          | running job => exact absurd hguarded Bool.false_ne_true
          | succeeded job =>
              simp only [fail, Fault.write, of_decide_eq_true hguarded, Bool.false_eq_true,
                ↓reduceIte]
              exact finish_kept h rfl rfl rfl hrunning
          | failed job => exact finish_kept h rfl rfl rfl hrunning
          | cancelled job | reported job => exact ⟨h.of_push rfl, hpumped.of_push rfl⟩
          | enqueued job =>
              refine ⟨h.of_push rfl, ?_⟩
              intro hcurrent hqueue
              change r.current = none at hcurrent
              change r.queue ≠ [] at hqueue
              have hpumps : rest.any Frame.pumps = true := by
                simpa [hcurrent, hqueue] using hguarded
              exact List.any_eq_true.mp hpumps
      | executing job =>
          simp only [throws, hstack]
          refine fail_kept h hrunning ?_
          intro hholds
          have hquiet := hcalm hholds
          simp only [Runner.calm, Faults.quiet, Bool.and_eq_true, decide_eq_true_eq] at hquiet
          exact hquiet.1.1.2

theorem settle_kept (h : Tidy calm before r) (hpumped : r.Pumped)
    (handle : Runner → JobId → Runner)
    (hhandle : ∀ (next : Runner) (job : JobId), Tidy calm before (next.push (.executing job)) →
      Tidy calm before (handle next job) ∧ (handle next job).Pumped) :
    Tidy calm before (r.settle handle) ∧ (r.settle handle).Pumped := by
  rw [settle]
  split
  · rename_i job rest hstack hawaiting
    exact hhandle _ job (h.settled hstack hawaiting)
  · exact ⟨h, hpumped⟩

theorem guarded_of_calm {label : Label} (hcalm : r.calm label = true) :
    r.guarded label = true := by
  have hquiet : ∀ faults : Faults, faults.quiet = true →
      faults.markRunning = .none ∧ faults.markSucceeded = .none := by
    intro faults hquiet
    simp only [Faults.quiet, Bool.and_eq_true, decide_eq_true_eq] at hquiet
    exact ⟨hquiet.1.1.1.2, hquiet.1.1.2⟩
  cases label with
  | enqueue _ _ faults | cancel _ faults | returns faults | reject _ faults =>
      exact decide_eq_true (hquiet faults hcalm).1
  | subscribe | unsubscribe | report => rfl
  | resolve _ faults =>
      obtain ⟨hrunning, hsucceeded⟩ := hquiet faults hcalm
      simp [guarded, hrunning, hsucceeded]
  | throws _ faults =>
      rw [calm, Bool.and_eq_true] at hcalm
      rw [guarded, (hquiet faults hcalm.1).1]
      rcases hstack : r.stack with _ | ⟨⟨_, _, _⟩ | _, rest⟩
      · rfl
      · rw [hstack] at hcalm
        exact absurd hcalm.2 Bool.false_ne_true
      · rfl

theorem step_kept (h : Tidy calm before r) (hpumped : r.Pumped) {label : Label}
    (hguarded : r.guarded label = true) (hcalm : calm → r.calm label = true) :
    Tidy calm before (r.step label) ∧ (r.step label).Pumped := by
  have hquiet : ∀ faults : Faults, faults.quiet = true →
      faults.insert = .none ∧ faults.markSucceeded = .none ∧ faults.markFailed = .none ∧
        faults.markCancelled = .none := by
    intro faults hquiet
    simp only [Faults.quiet, Bool.and_eq_true, decide_eq_true_eq] at hquiet
    exact ⟨hquiet.1.1.1.1, hquiet.1.1.2, hquiet.1.2, hquiet.2⟩
  cases label with
  | enqueue type metadata faults =>
      exact enqueue_kept h hpumped (of_decide_eq_true hguarded) fun hholds =>
        (hquiet faults (hcalm hholds)).1
  | cancel job faults =>
      exact cancel_kept h hpumped (of_decide_eq_true hguarded) fun hholds =>
        (hquiet faults (hcalm hholds)).2.2.2
  | subscribe job listener | unsubscribe job set listener => exact ⟨h.heard, hpumped⟩
  | report job progress fault => exact report_kept h hpumped progress fault
  | returns faults => exact returns_kept h hpumped (of_decide_eq_true hguarded)
  | throws message faults => exact throws_kept h hpumped hguarded hcalm
  | resolve metadata faults =>
      simp only [guarded, Bool.and_eq_true, Bool.or_eq_true, decide_eq_true_eq] at hguarded
      refine settle_kept h hpumped (resolveJob metadata faults) fun next job hnext => ?_
      exact succeed_kept hnext hguarded.1 (fun hholds => (hquiet faults (hcalm hholds)).2.1)
        hguarded.2
  | reject message faults =>
      refine settle_kept h hpumped (fun r job => r.fail faults job message)
        fun next job hnext => ?_
      exact fail_kept hnext (of_decide_eq_true hguarded) fun hholds =>
        (hquiet faults (hcalm hholds)).2.2.1

end Calls

end Runner

end Jobs

end MailPanel

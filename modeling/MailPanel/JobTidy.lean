import MailPanel.JobRunner

/-
What the runner keeps through every call, however its calls nest: the current job is the
one that some call, or some promise, still has to end; queued and running rows are the
rows of queued and running jobs.
-/

namespace MailPanel

namespace Jobs

open RowTable StepRun

/-- The call still has to end the current job. -/
def Frame.holds : Frame → Option JobId
  | .publishing _ _ (.running job) | .publishing _ _ (.succeeded job)
  | .publishing _ _ (.failed job) => some job
  | .publishing _ _ _ => none
  | .executing job => some job

/-- The job's row is running. -/
def Frame.runs : Frame → Option JobId
  | .publishing _ _ (.running job) => some job
  | .publishing _ _ _ => none
  | .executing job => some job

/-- The closure has not been called yet. -/
def Frame.starts : Frame → Option JobId
  | .publishing _ _ (.running job) => some job
  | _ => none

/-- The call looks for the next job before it returns. -/
def Frame.pumps : Frame → Bool
  | .publishing _ _ (.enqueued _) => true
  | _ => false

theorem Frame.holds_of_runs {frame : Frame} {job : JobId} (hruns : frame.runs = some job) :
    frame.holds = some job := by
  rcases frame with ⟨_, _, after⟩ | _
  · cases after with
    | running => exact hruns
    | _ => exact absurd hruns.symm (Option.some_ne_none job)
  · exact hruns

theorem Frame.runs_of_holds {frame : Frame} (hholds : frame.holds = none) :
    frame.runs = none ∧ frame.starts = none := by
  rcases frame with ⟨_, _, after⟩ | _
  · cases after with
    | running => exact absurd hholds (Option.some_ne_none _)
    | _ => exact ⟨rfl, rfl⟩
  · exact absurd hholds (Option.some_ne_none _)

namespace Runner

variable (r : Runner)

def holding : List JobId := r.stack.filterMap Frame.holds ++ r.awaiting

/-- The jobs between their start and their end. -/
def inProgress : List JobId := r.stack.filterMap Frame.runs ++ r.awaiting

/-- The jobs whose start is being published. -/
def starting : List JobId := r.stack.filterMap Frame.starts

end Runner

def Table.cancelled (rows : Table) (job : JobId) : Bool :=
  rows.any fun row => row.id = job && row.status = .cancelled

def JobRow.state (row : JobRow) : JobId × JobStatus := (row.id, row.status)

/-- Rows that have ended are as they were. -/
def Keeps (before after : Table) : Prop :=
  ∀ row ∈ before, row.status.isActive = false →
    ∃ next ∈ after, next.id = row.id ∧ next.status = row.status

/-- The job's row is given a status, and the others are as they were. -/
structure Table.Marked (job : JobId) (status : JobStatus) (rows after : Table) : Prop where
  ids : after.map JobRow.id = rows.map JobRow.id
  row : ∀ row ∈ after, (row ∈ rows ∧ row.id ≠ job) ∨ (row.id = job ∧ row.status = status)
  kept : ∀ row ∈ rows, row.id ≠ job → row ∈ after

theorem Table.marked {job : JobId} {status : JobStatus} {change : JobRow → JobRow}
    (hid : ∀ row, (change row).id = row.id) (hstatus : ∀ row, (change row).status = status)
    (rows : Table) :
    Table.Marked job status rows (updateWhere rows (fun row => row.id = job) change) := by
  refine ⟨map_updateWhere JobRow.id fun row _ => hid row, ?_, ?_⟩
  · intro row hrow
    rcases mem_updateWhere.mp hrow with ⟨hrow, hne⟩ | ⟨old, _, heq, rfl⟩
    · exact Or.inl ⟨hrow, of_decide_eq_false hne⟩
    · exact Or.inr ⟨(hid old).trans (of_decide_eq_true heq), hstatus old⟩
  · intro row hrow hne
    exact mem_updateWhere.mpr (Or.inl ⟨hrow, decide_eq_false hne⟩)

section Marks

variable (job : JobId) (text : String) (rows : Table)

theorem Table.markRunning_marked : Table.Marked job .running rows (rows.markRunning job) := by
  refine Table.marked ?_ ?_ rows
  · exact fun _ => rfl
  · exact fun _ => rfl

theorem Table.markSucceeded_marked :
    Table.Marked job .succeeded rows (rows.markSucceeded job text) := by
  refine Table.marked ?_ ?_ rows
  · exact fun _ => rfl
  · exact fun _ => rfl

theorem Table.markFailed_marked : Table.Marked job .failed rows (rows.markFailed job text) := by
  refine Table.marked ?_ ?_ rows
  · exact fun _ => rfl
  · exact fun _ => rfl

theorem Table.markCancelled_marked :
    Table.Marked job .cancelled rows (rows.markCancelled job) := by
  refine Table.marked ?_ ?_ rows
  · exact fun _ => rfl
  · exact fun _ => rfl

end Marks

theorem Table.Marked.row_lt {job : JobId} {status : JobStatus} {rows after : Table}
    (h : Table.Marked job status rows after) {bound : JobId}
    (hrows : ∀ row ∈ rows, row.id < bound) : ∀ row ∈ after, row.id < bound := by
  intro row hrow
  have hid : row.id ∈ rows.map JobRow.id := h.ids ▸ List.mem_map_of_mem hrow
  obtain ⟨old, hold, heq⟩ := List.mem_map.mp hid
  exact heq ▸ hrows old hold

theorem Table.cancelled_iff {rows : Table} {job : JobId} :
    rows.cancelled job = true ↔ ∃ row ∈ rows, row.id = job ∧ row.status = .cancelled := by
  simp [Table.cancelled]

theorem Table.Marked.cancelled_ne {job : JobId} {status : JobStatus} {rows after : Table}
    (h : Table.Marked job status rows after) {other : JobId} (hne : other ≠ job) :
    after.cancelled other = rows.cancelled other := by
  rw [Bool.eq_iff_iff, Table.cancelled_iff, Table.cancelled_iff]
  constructor
  · rintro ⟨row, hrow, heq, hcancelled⟩
    rcases h.row row hrow with ⟨hrow, -⟩ | ⟨hjob, -⟩
    · exact ⟨row, hrow, heq, hcancelled⟩
    · exact absurd (heq.symm.trans hjob) hne
  · rintro ⟨row, hrow, heq, hcancelled⟩
    exact ⟨row, h.kept row hrow (heq ▸ hne), heq, hcancelled⟩

theorem Table.Marked.cancelled_eq {job : JobId} {status : JobStatus} {rows after : Table}
    (h : Table.Marked job status rows after) (hstatus : status ≠ .cancelled)
    (hrows : ∀ row ∈ rows, row.id = job → row.status.isActive = true) (other : JobId) :
    after.cancelled other = rows.cancelled other := by
  by_cases hne : other = job
  · subst hne
    rw [Bool.eq_iff_iff, Table.cancelled_iff, Table.cancelled_iff]
    constructor
    · rintro ⟨row, hrow, heq, hcancelled⟩
      rcases h.row row hrow with ⟨-, hne⟩ | ⟨-, hmarked⟩
      · exact absurd heq hne
      · exact absurd (hmarked.symm.trans hcancelled) hstatus
    · rintro ⟨row, hrow, heq, hcancelled⟩
      have hactive := hrows row hrow heq
      rw [hcancelled] at hactive
      exact absurd hactive Bool.false_ne_true
  · exact h.cancelled_ne hne

theorem Table.Marked.filter_cancelled {job : JobId} {rows after : Table}
    (h : Table.Marked job .cancelled rows after) (hjob : job ∈ rows.map JobRow.id)
    (jobs : List JobId) :
    jobs.filter (fun other => !after.cancelled other) =
      (jobs.filter fun other => !rows.cancelled other).filter fun other => other ≠ job := by
  rw [List.filter_filter]
  congr 1
  funext other
  by_cases heq : other = job
  · subst heq
    rw [← h.ids] at hjob
    obtain ⟨row, hrow, hid⟩ := List.mem_map.mp hjob
    have hcancelled : after.cancelled other = true := by
      rcases h.row row hrow with ⟨-, hne⟩ | ⟨-, hstatus⟩
      · exact absurd hid hne
      · exact Table.cancelled_iff.mpr ⟨row, hrow, hid, hstatus⟩
    simp [hcancelled]
  · simp [h.cancelled_ne heq, heq]

/-- What holds of the rows and of the history as long as nothing throws: a queued row is in the
queue and a running one in progress, with nothing lost between the table and the memory. -/
structure Runner.Exact (r : Runner) : Prop where
  enqueued_nodup : r.enqueued.Nodup
  enqueued_lt : ∀ job ∈ r.enqueued, job < r.nextId
  order : r.enqueued.filter (fun job => !r.rows.cancelled job) = r.started ++ r.queue
  executed : r.started = r.executed ++ r.starting
  queued : ∀ row ∈ r.rows, row.status = .queued → row.id ∈ r.queue
  running : ∀ row ∈ r.rows, row.status = .running → row.id ∈ r.inProgress

/-- What holds between the calls, all but that a free runner has an empty queue: keys are
distinct, the queue and the job at work are in the table with the status that they should have,
and no resolved job counts as failed. -/
structure Runner.Tidy (calm : Prop) (before : Table) (r : Runner) : Prop where
  keeps : Keeps before r.rows
  row_nodup : (r.rows.map JobRow.id).Nodup
  row_lt : ∀ row ∈ r.rows, row.id < r.nextId
  fresh : (r.started ++ r.queue).Nodup
  taken_lt : ∀ job ∈ r.started ++ r.queue, job < r.nextId
  pending : ∀ job ∈ r.queue, job ∈ r.pending
  holding : r.holding = r.current.toList
  current : ∀ job, r.current = some job → job ∈ r.started
  queued : ∀ row ∈ r.rows, row.id ∈ r.queue → row.status = .queued
  running : ∀ row ∈ r.rows, row.id ∈ r.inProgress → row.status = .running
  resolved : ∀ job ∈ r.resolved, job ∈ r.started ∧ job ∉ r.inProgress ∧
    ∀ row ∈ r.rows, row.id = job → row.status ≠ .failed
  exact : calm → r.Exact

/-- A free runner has nothing queued, unless a call that will look for it is on the stack. -/
def Runner.Pumped (r : Runner) : Prop :=
  r.current = none → r.queue ≠ [] → ∃ frame ∈ r.stack, frame.pumps = true

/-- A call that is about to publish, as if it already did. -/
def Runner.push (r : Runner) (frame : Frame) : Runner := { r with stack := frame :: r.stack }

namespace Keeps

variable {before rows : Table}

theorem refl (rows : Table) : Keeps rows rows := fun row hrow _ => ⟨row, hrow, rfl, rfl⟩

theorem marked {job : JobId} {status : JobStatus} {after : Table}
    (hkeeps : Keeps before rows) (hmarked : Table.Marked job status rows after)
    (hactive : ∀ row ∈ rows, row.id = job → row.status.isActive = true) :
    Keeps before after := by
  intro row hrow hended
  obtain ⟨next, hnext, hsame, hstatus⟩ := hkeeps row hrow hended
  have hne : next.id ≠ job := by
    intro heq
    have hactive := hactive next hnext heq
    rw [hstatus, hended] at hactive
    exact absurd hactive Bool.false_ne_true
  exact ⟨next, hmarked.kept next hnext hne, hsame, hstatus⟩

end Keeps

namespace Runner

variable {r : Runner} {job : JobId}

theorem holding_push (frame : Frame) :
    (r.push frame).holding = frame.holds.toList ++ r.holding := by
  cases hframe : frame.holds with
  | none => simp [holding, push, hframe]
  | some job => simp [holding, push, hframe]

theorem inProgress_push (frame : Frame) :
    (r.push frame).inProgress = frame.runs.toList ++ r.inProgress := by
  cases hframe : frame.runs with
  | none => simp [inProgress, push, hframe]
  | some job => simp [inProgress, push, hframe]

theorem starting_push (frame : Frame) :
    (r.push frame).starting = frame.starts.toList ++ r.starting := by
  cases hframe : frame.starts with
  | none => simp [starting, push, hframe]
  | some job => simp [starting, push, hframe]

theorem inProgress_sublist (r : Runner) : r.inProgress.Sublist r.holding := by
  refine List.Sublist.append_right ?_ r.awaiting
  induction r.stack with
  | nil => exact List.Sublist.refl []
  | cons frame stack ih =>
      cases hruns : frame.runs with
      | none =>
          rw [List.filterMap_cons_none hruns]
          exact ih.trans ((List.sublist_cons_self frame stack).filterMap Frame.holds)
      | some job =>
          rw [List.filterMap_cons_some hruns,
            List.filterMap_cons_some (Frame.holds_of_runs hruns)]
          exact ih.cons_cons job

theorem holding_eq_nil (hholding : r.holding = []) :
    r.inProgress = [] ∧ r.starting = [] := by
  obtain ⟨hstack, hawaiting⟩ := List.append_eq_nil_iff.mp hholding
  have hholds := List.filterMap_eq_nil_iff.mp hstack
  constructor
  · refine List.append_eq_nil_iff.mpr ⟨List.filterMap_eq_nil_iff.mpr ?_, hawaiting⟩
    intro frame hframe
    exact (Frame.runs_of_holds (hholds frame hframe)).1
  · refine List.filterMap_eq_nil_iff.mpr ?_
    intro frame hframe
    exact (Frame.runs_of_holds (hholds frame hframe)).2

namespace Tidy

variable {calm : Prop} {before : Table} {frame : Frame}

/-- The call that holds the current job is the only one that does. -/
theorem alone (h : Tidy calm before (r.push frame)) (hholds : frame.holds = some job) :
    r.current = some job ∧ r.holding = [] := by
  have hholding := h.holding
  rw [holding_push, hholds] at hholding
  change job :: r.holding = r.current.toList at hholding
  cases hcurrent : r.current with
  | none =>
      rw [hcurrent] at hholding
      exact absurd hholding (List.cons_ne_nil _ _)
  | some other =>
      rw [hcurrent] at hholding
      obtain ⟨rfl, hnil⟩ := List.cons_eq_cons.mp hholding
      exact ⟨rfl, hnil⟩

/-- What the rest of a publication does decides, not who is called next. -/
theorem republish {set last set' last' : Nat} {after : After}
    (h : Tidy calm before (r.push (.publishing set last after))) :
    Tidy calm before (r.push (.publishing set' last' after)) := by
  cases after with
  | _ =>
      exact ⟨h.keeps, h.row_nodup, h.row_lt, h.fresh, h.taken_lt, h.pending, h.holding,
        h.current, h.queued, h.running, h.resolved, fun hcalm =>
          ⟨(h.exact hcalm).enqueued_nodup, (h.exact hcalm).enqueued_lt, (h.exact hcalm).order,
            (h.exact hcalm).executed, (h.exact hcalm).queued, (h.exact hcalm).running⟩⟩

/-- A call that holds nothing may come and go. The frames of a nested call are pushed and popped
without a trace. -/
theorem of_push (h : Tidy calm before (r.push frame)) (hholds : frame.holds = none) :
    Tidy calm before r := by
  obtain ⟨hruns, hstarts⟩ := Frame.runs_of_holds hholds
  have hholding := h.holding
  have hrunning := h.running
  have hresolved := h.resolved
  rw [holding_push, hholds] at hholding
  rw [inProgress_push, hruns] at hrunning hresolved
  refine ⟨h.keeps, h.row_nodup, h.row_lt, h.fresh, h.taken_lt, h.pending, hholding, h.current,
    h.queued, hrunning, hresolved, ?_⟩
  intro hcalm
  have hexact := h.exact hcalm
  have hexecuted := hexact.executed
  have hactive := hexact.running
  rw [starting_push, hstarts] at hexecuted
  rw [inProgress_push, hruns] at hactive
  exact ⟨hexact.enqueued_nodup, hexact.enqueued_lt, hexact.order, hexecuted, hexact.queued,
    hactive⟩

theorem push_of (h : Tidy calm before r) (hholds : frame.holds = none) :
    Tidy calm before (r.push frame) := by
  obtain ⟨hruns, hstarts⟩ := Frame.runs_of_holds hholds
  refine ⟨h.keeps, h.row_nodup, h.row_lt, h.fresh, h.taken_lt, h.pending, ?_, h.current,
    h.queued, ?_, ?_, ?_⟩
  · rw [holding_push, hholds]
    exact h.holding
  · rw [inProgress_push, hruns]
    exact h.running
  · rw [inProgress_push, hruns]
    exact h.resolved
  · intro hcalm
    have hexact := h.exact hcalm
    refine ⟨hexact.enqueued_nodup, hexact.enqueued_lt, hexact.order, ?_, hexact.queued, ?_⟩
    · rw [starting_push, hstarts]
      exact hexact.executed
    · rw [inProgress_push, hruns]
      exact hexact.running

/-- The next job leaves the queue and becomes the current one, with its row marked as running. -/
theorem started (h : Tidy calm before r) (hcurrent : r.current = none) {rest : List JobId}
    (hqueue : r.queue = job :: rest) {rows : Table}
    (hmarked : Table.Marked job .running r.rows rows) {pending : List JobId}
    (hpending : ∀ other ∈ rest, other ∈ pending) :
    Tidy calm before (({ r with
      rows := rows
      queue := rest
      pending := pending
      current := some job
      started := r.started ++ [job] } : Runner).push (.publishing 0 0 (.running job))) := by
  have hholding : r.holding = [] := by
    rw [h.holding, hcurrent]
    rfl
  obtain ⟨hinProgress, hstarting⟩ := holding_eq_nil hholding
  have hmem : job ∈ r.queue := hqueue ▸ List.mem_cons_self
  have hactive : ∀ row ∈ r.rows, row.id = job → row.status.isActive = true := by
    intro row hrow heq
    rw [h.queued row hrow (heq ▸ hmem)]
    rfl
  have hsplit : r.started ++ r.queue = (r.started ++ [job]) ++ rest := by
    rw [hqueue]
    simp
  have hrest : job ∉ rest := by
    have hnodup := (List.nodup_append.mp h.fresh).2.1
    rw [hqueue] at hnodup
    exact (List.nodup_cons.mp hnodup).1
  have hstarted : ∀ other ∈ r.started, other ≠ job := fun other hother heq =>
    (List.nodup_append.mp h.fresh).2.2 other hother job hmem heq
  refine ⟨h.keeps.marked hmarked hactive, ?_, ?_, ?_, ?_, hpending, ?_, ?_, ?_, ?_, ?_, ?_⟩
  · change (rows.map JobRow.id).Nodup
    rw [hmarked.ids]
    exact h.row_nodup
  · exact hmarked.row_lt h.row_lt
  · exact hsplit ▸ h.fresh
  · exact hsplit ▸ h.taken_lt
  · rw [holding_push]
    change [job] ++ r.holding = [job]
    rw [hholding]
    rfl
  · rintro other heq
    cases heq
    exact List.mem_append_right _ List.mem_cons_self
  · intro row hrow hrow_rest
    rcases hmarked.row row hrow with ⟨hrow, -⟩ | ⟨heq, -⟩
    · exact h.queued row hrow (hqueue ▸ List.mem_cons_of_mem job hrow_rest)
    · exact absurd (heq ▸ hrow_rest) hrest
  · intro row hrow hruns
    rw [inProgress_push] at hruns
    change row.id ∈ [job] ++ r.inProgress at hruns
    rw [hinProgress, List.append_nil] at hruns
    rcases hmarked.row row hrow with ⟨-, hne⟩ | ⟨-, hstatus⟩
    · exact absurd (List.mem_singleton.mp hruns) hne
    · exact hstatus
  · intro other hother
    obtain ⟨hmem_started, -, hrows⟩ := h.resolved other hother
    have hne := hstarted other hmem_started
    refine ⟨List.mem_append_left _ hmem_started, ?_, ?_⟩
    · rw [inProgress_push]
      change other ∉ [job] ++ r.inProgress
      rw [hinProgress, List.append_nil]
      exact fun hmem => hne (List.mem_singleton.mp hmem)
    · intro row hrow heq
      rcases hmarked.row row hrow with ⟨hrow, -⟩ | ⟨hjob, -⟩
      · exact hrows row hrow heq
      · exact absurd (heq.symm.trans hjob) hne
  · intro hcalm
    have hexact := h.exact hcalm
    refine ⟨hexact.enqueued_nodup, hexact.enqueued_lt, ?_, ?_, ?_, ?_⟩
    · change r.enqueued.filter (fun other => !rows.cancelled other) = (r.started ++ [job]) ++ rest
      rw [← hsplit, ← hexact.order]
      congr 1
      funext other
      rw [hmarked.cancelled_eq (by decide) hactive]
    · rw [starting_push]
      change r.started ++ [job] = r.executed ++ ([job] ++ r.starting)
      rw [hexact.executed, hstarting, List.append_nil, List.append_nil]
    · intro row hrow hqueued
      rcases hmarked.row row hrow with ⟨hrow, hne⟩ | ⟨-, hstatus⟩
      · have hmem := hexact.queued row hrow hqueued
        rw [hqueue] at hmem
        exact (List.mem_cons.mp hmem).resolve_left hne
      · exact absurd (hqueued.symm.trans hstatus) (by decide)
    · intro row hrow hrunning
      rw [inProgress_push]
      rcases hmarked.row row hrow with ⟨hrow, -⟩ | ⟨heq, -⟩
      · have hmem := hexact.running row hrow hrunning
        rw [hinProgress] at hmem
        exact absurd hmem List.not_mem_nil
      · exact List.mem_append_left _ (heq ▸ List.mem_singleton_self job)

/-- The closure is called. -/
theorem executed {set last : Nat}
    (h : Tidy calm before (r.push (.publishing set last (.running job)))) :
    Tidy calm before (r.execute job) := by
  obtain ⟨-, hholding⟩ := h.alone rfl
  obtain ⟨-, hstarting⟩ := holding_eq_nil hholding
  refine ⟨h.keeps, h.row_nodup, h.row_lt, h.fresh, h.taken_lt, h.pending, h.holding, h.current,
    h.queued, h.running, h.resolved, ?_⟩
  intro hcalm
  have hexact := h.exact hcalm
  refine ⟨hexact.enqueued_nodup, hexact.enqueued_lt, hexact.order, ?_, hexact.queued,
    hexact.running⟩
  change r.started = (r.executed ++ [job]) ++ r.starting
  have hstarted := hexact.executed
  rw [starting_push] at hstarted
  change r.started = r.executed ++ ([job] ++ r.starting) at hstarted
  rw [hstarted, List.append_assoc]

/-- The closure waits. Its frame is popped, and the runner holds the job until the promise
settles. -/
theorem awaited (h : Tidy calm before (r.push (.executing job))) :
    Tidy calm before { r with awaiting := job :: r.awaiting } := by
  obtain ⟨hcurrent, hholding⟩ := h.alone rfl
  obtain ⟨hstack, hawaiting⟩ := List.append_eq_nil_iff.mp hholding
  obtain ⟨hruns, -⟩ := List.append_eq_nil_iff.mp (holding_eq_nil hholding).1
  have hsame : ({ r with awaiting := job :: r.awaiting } : Runner).inProgress =
      (r.push (.executing job)).inProgress := by
    rw [inProgress_push]
    change r.stack.filterMap Frame.runs ++ (job :: r.awaiting) =
      [job] ++ (r.stack.filterMap Frame.runs ++ r.awaiting)
    rw [hruns]
    rfl
  refine ⟨h.keeps, h.row_nodup, h.row_lt, h.fresh, h.taken_lt, h.pending, ?_, h.current,
    h.queued, ?_, ?_, ?_⟩
  · change r.stack.filterMap Frame.holds ++ (job :: r.awaiting) = r.current.toList
    change r.current = some job at hcurrent
    rw [hstack, hawaiting, hcurrent]
    rfl
  · rw [hsame]
    exact h.running
  · rw [hsame]
    exact h.resolved
  · intro hcalm
    have hexact := h.exact hcalm
    refine ⟨hexact.enqueued_nodup, hexact.enqueued_lt, hexact.order, hexact.executed,
      hexact.queued, ?_⟩
    rw [hsame]
    exact hexact.running

/-- The closure's promise has settled, and the runner goes on with it, in a frame of its own. -/
theorem settled {rest : List JobId} (h : Tidy calm before r) (hstack : r.stack = [])
    (hawaiting : r.awaiting = job :: rest) :
    Tidy calm before (({ r with awaiting := rest } : Runner).push (.executing job)) := by
  have hholding : (({ r with awaiting := rest } : Runner).push (.executing job)).holding =
      r.holding := by
    simp [Runner.holding, push, hstack, hawaiting, Frame.holds]
  have hinProgress : (({ r with awaiting := rest } : Runner).push (.executing job)).inProgress =
      r.inProgress := by
    simp [inProgress, push, hstack, hawaiting, Frame.runs]
  have hstarting : (({ r with awaiting := rest } : Runner).push (.executing job)).starting =
      r.starting := by
    simp [starting, push, hstack, Frame.starts]
  refine ⟨h.keeps, h.row_nodup, h.row_lt, h.fresh, h.taken_lt, h.pending, ?_, h.current,
    h.queued, ?_, ?_, ?_⟩
  · rw [hholding]
    exact h.holding
  · rw [hinProgress]
    exact h.running
  · rw [hinProgress]
    exact h.resolved
  · intro hcalm
    have hexact := h.exact hcalm
    refine ⟨hexact.enqueued_nodup, hexact.enqueued_lt, hexact.order, ?_, hexact.queued, ?_⟩
    · rw [hstarting]
      exact hexact.executed
    · rw [hinProgress]
      exact hexact.running

/-- The current job's row ends, with a status that is neither active nor cancelled, and its
frame goes on with the job. -/
theorem ended (h : Tidy calm before (r.push (.executing job))) {status : JobStatus}
    (hended : status.isActive = false) (hcancelled : status ≠ .cancelled) {rows : Table}
    (hmarked : Table.Marked job status r.rows rows) {resolved : List JobId}
    (hresolved : ∀ other ∈ resolved, other ∈ r.resolved ∨ (other = job ∧ status ≠ .failed))
    (frame : Frame) (hholds : frame.holds = some job) (hruns : frame.runs = none)
    (hstarts : frame.starts = none) :
    Tidy calm before (({ r with rows := rows, resolved := resolved } : Runner).push frame) := by
  obtain ⟨hcurrent, hholding⟩ := h.alone rfl
  change r.current = some job at hcurrent
  obtain ⟨hinProgress, hstarting⟩ := holding_eq_nil hholding
  have hstarted : job ∈ r.started := h.current job hcurrent
  have hqueue : job ∉ r.queue := fun hmem =>
    (List.nodup_append.mp h.fresh).2.2 job hstarted job hmem rfl
  have hactive : ∀ row ∈ r.rows, row.id = job → row.status.isActive = true := by
    intro row hrow heq
    have hruns : row.id ∈ (r.push (.executing job)).inProgress := by
      rw [inProgress_push]
      exact List.mem_append_left _ (heq ▸ List.mem_singleton_self job)
    rw [h.running row hrow hruns]
    rfl
  have hfree : (({ r with rows := rows, resolved := resolved } : Runner).push frame).inProgress =
      [] := by
    rw [inProgress_push, hruns]
    exact hinProgress
  refine ⟨h.keeps.marked hmarked hactive, ?_, hmarked.row_lt h.row_lt, h.fresh, h.taken_lt,
    h.pending, ?_, h.current, ?_, ?_, ?_, ?_⟩
  · change (rows.map JobRow.id).Nodup
    rw [hmarked.ids]
    exact h.row_nodup
  · rw [holding_push, hholds]
    change [job] ++ r.holding = r.current.toList
    rw [hholding, hcurrent]
    rfl
  · intro row hrow hmem
    rcases hmarked.row row hrow with ⟨hrow, -⟩ | ⟨heq, -⟩
    · exact h.queued row hrow hmem
    · exact absurd (heq ▸ hmem) hqueue
  · intro row hrow hmem
    rw [hfree] at hmem
    exact absurd hmem List.not_mem_nil
  · intro other hother
    rw [hfree]
    rcases hresolved other hother with hother | ⟨rfl, hfailed⟩
    · obtain ⟨hmem, hnot, hrows⟩ := h.resolved other hother
      refine ⟨hmem, List.not_mem_nil, ?_⟩
      intro row hrow heq
      rcases hmarked.row row hrow with ⟨hrow, -⟩ | ⟨hjob, -⟩
      · exact hrows row hrow heq
      · rw [inProgress_push, ← heq, hjob] at hnot
        exact absurd (List.mem_append_left _ (List.mem_singleton_self job)) hnot
    · refine ⟨hstarted, List.not_mem_nil, ?_⟩
      intro row hrow heq
      rcases hmarked.row row hrow with ⟨-, hne⟩ | ⟨-, hstatus⟩
      · exact absurd heq hne
      · exact hstatus ▸ hfailed
  · intro hcalm
    have hexact := h.exact hcalm
    refine ⟨hexact.enqueued_nodup, hexact.enqueued_lt, ?_, ?_, ?_, ?_⟩
    · change r.enqueued.filter (fun other => !rows.cancelled other) = r.started ++ r.queue
      refine Eq.trans ?_ hexact.order
      change _ = r.enqueued.filter (fun other => !r.rows.cancelled other)
      congr 1
      funext other
      rw [hmarked.cancelled_eq hcancelled hactive]
    · rw [starting_push, hstarts]
      exact hexact.executed
    · intro row hrow hqueued
      rcases hmarked.row row hrow with ⟨hrow, -⟩ | ⟨-, hstatus⟩
      · exact hexact.queued row hrow hqueued
      · rw [← hstatus, hqueued] at hended
        exact absurd hended.symm Bool.false_ne_true
    · intro row hrow hrunning
      rcases hmarked.row row hrow with ⟨hrow, hne⟩ | ⟨-, hstatus⟩
      · have hmem := hexact.running row hrow hrunning
        rw [inProgress_push] at hmem
        change row.id ∈ [job] ++ r.inProgress at hmem
        rw [hinProgress, List.append_nil] at hmem
        exact absurd (List.mem_singleton.mp hmem) hne
      · rw [← hstatus, hrunning] at hended
        exact absurd hended.symm Bool.false_ne_true

/-- The runner gives the current job up, with its row as it is. It can only happen where a write
or a listener throws. -/
theorem dropped (h : Tidy calm before (r.push (.executing job))) (hcalm : ¬calm)
    {resolved : List JobId} (hresolved : ∀ other ∈ resolved, other ∈ r.resolved ∨ other = job)
    (frame : Frame) (hholds : frame.holds = some job) (hruns : frame.runs = none) :
    Tidy calm before (({ r with resolved := resolved } : Runner).push frame) := by
  obtain ⟨hcurrent, hholding⟩ := h.alone rfl
  change r.current = some job at hcurrent
  have hmem : job ∈ (r.push (.executing job)).inProgress := by
    rw [inProgress_push]
    exact List.mem_append_left _ (List.mem_singleton_self job)
  have hfree : (({ r with resolved := resolved } : Runner).push frame).inProgress = [] := by
    rw [inProgress_push, hruns]
    exact (holding_eq_nil hholding).1
  refine ⟨h.keeps, h.row_nodup, h.row_lt, h.fresh, h.taken_lt, h.pending, ?_, h.current,
    h.queued, ?_, ?_, fun hholds => absurd hholds hcalm⟩
  · rw [holding_push, hholds]
    change [job] ++ r.holding = r.current.toList
    rw [hholding, hcurrent]
    rfl
  · intro row hrow hruns
    rw [hfree] at hruns
    exact absurd hruns List.not_mem_nil
  · intro other hother
    rw [hfree]
    rcases hresolved other hother with hother | rfl
    · obtain ⟨hstarted, -, hrows⟩ := h.resolved other hother
      exact ⟨hstarted, List.not_mem_nil, hrows⟩
    · refine ⟨h.current other hcurrent, List.not_mem_nil, ?_⟩
      intro row hrow heq hfailed
      have hrunning := h.running row hrow (heq ▸ hmem)
      exact absurd (hrunning.symm.trans hfailed) (by decide)

/-- The runner is free. The frame that held the job is popped, and no other frame holds one. -/
theorem freed (h : Tidy calm before (r.push frame)) (hholds : frame.holds = some job)
    (hruns : frame.runs = none) (hstarts : frame.starts = none) :
    Tidy calm before { r with current := none } := by
  obtain ⟨-, hholding⟩ := h.alone hholds
  have hrunning := h.running
  have hresolved := h.resolved
  rw [inProgress_push, hruns] at hrunning hresolved
  refine ⟨h.keeps, h.row_nodup, h.row_lt, h.fresh, h.taken_lt, h.pending, hholding, ?_,
    h.queued, hrunning, hresolved, ?_⟩
  · intro other heq
    exact absurd heq.symm (Option.some_ne_none other)
  · intro hcalm
    have hexact := h.exact hcalm
    have hexecuted := hexact.executed
    have hactive := hexact.running
    rw [starting_push, hstarts] at hexecuted
    rw [inProgress_push, hruns] at hactive
    exact ⟨hexact.enqueued_nodup, hexact.enqueued_lt, hexact.order, hexecuted, hexact.queued,
      hactive⟩

section Insert

variable {type metadata : String}

theorem keeps_insert (h : Tidy calm before r) :
    Keeps before (r.rows.insert r.nextId type metadata) := by
  intro row hrow hended
  obtain ⟨next, hnext, hsame⟩ := h.keeps row hrow hended
  exact ⟨next, List.mem_append_left _ hnext, hsame⟩

theorem nodup_insert (h : Tidy calm before r) :
    ((Table.insert r.nextId type metadata r.rows).map JobRow.id).Nodup := by
  rw [Table.insert, List.map_append, List.nodup_append]
  refine ⟨h.row_nodup, List.nodup_singleton _, ?_⟩
  intro id hid other hother heq
  obtain ⟨row, hrow, rfl⟩ := List.mem_map.mp hid
  have hlt := h.row_lt row hrow
  rw [heq, List.mem_singleton.mp hother] at hlt
  exact absurd hlt (Nat.lt_irrefl _)

theorem lt_insert (h : Tidy calm before r) :
    ∀ row ∈ Table.insert r.nextId type metadata r.rows, row.id < r.nextId + 1 := by
  intro row hrow
  rcases List.mem_append.mp hrow with hrow | hrow
  · exact Nat.lt_succ_of_lt (h.row_lt row hrow)
  · rw [List.mem_singleton.mp hrow]
    exact Nat.lt_succ_self _

theorem inProgress_lt (h : Tidy calm before r) (hjob : job ∈ r.inProgress) :
    job < r.nextId := by
  have hholding := (inProgress_sublist r).subset hjob
  rw [h.holding, Option.mem_toList] at hholding
  exact h.taken_lt job (List.mem_append_left _ (h.current job hholding))

/-- Neither the row nor its job is there. -/
theorem skipped (h : Tidy calm before r) (hcalm : ¬calm) :
    Tidy calm before { r with nextId := r.nextId + 1 } :=
  ⟨h.keeps, h.row_nodup, fun row hrow => Nat.lt_succ_of_lt (h.row_lt row hrow), h.fresh,
    fun job hjob => Nat.lt_succ_of_lt (h.taken_lt job hjob), h.pending, h.holding, h.current,
    h.queued, h.running, h.resolved, fun hholds => absurd hholds hcalm⟩

/-- The row is there, but not its job: the insertion went through and what came after it threw.
A calm run has no such step. -/
theorem inserted (h : Tidy calm before r) (hcalm : ¬calm) :
    Tidy calm before { r with
      rows := Table.insert r.nextId type metadata r.rows
      nextId := r.nextId + 1 } := by
  refine ⟨h.keeps_insert, h.nodup_insert, h.lt_insert, h.fresh, ?_, h.pending, h.holding,
    h.current, ?_, ?_, ?_, fun hholds => absurd hholds hcalm⟩
  · intro job hjob
    exact Nat.lt_succ_of_lt (h.taken_lt job hjob)
  · intro row hrow hmem
    rcases List.mem_append.mp hrow with hrow | hrow
    · exact h.queued row hrow hmem
    · rw [List.mem_singleton.mp hrow]
  · intro row hrow hmem
    rcases List.mem_append.mp hrow with hrow | hrow
    · exact h.running row hrow hmem
    · rw [List.mem_singleton.mp hrow] at hmem
      exact absurd (h.inProgress_lt hmem) (Nat.lt_irrefl _)
  · intro job hjob
    obtain ⟨hstarted, hnot, hrows⟩ := h.resolved job hjob
    refine ⟨hstarted, hnot, ?_⟩
    intro row hrow heq
    rcases List.mem_append.mp hrow with hrow | hrow
    · exact hrows row hrow heq
    · rw [List.mem_singleton.mp hrow]
      exact fun hfailed => JobStatus.noConfusion hfailed

/-- The job is queued: its row, its closure and its place in the queue come in one step, under
an id that no job has had. -/
theorem enqueued (h : Tidy calm before r) :
    Tidy calm before { r with
      rows := Table.insert r.nextId type metadata r.rows
      nextId := r.nextId + 1
      pending := r.pending ++ [r.nextId]
      queue := r.queue ++ [r.nextId]
      enqueued := r.enqueued ++ [r.nextId] } := by
  have hnew : r.nextId ∉ r.started ++ r.queue := fun hmem =>
    absurd (h.taken_lt _ hmem) (Nat.lt_irrefl _)
  refine ⟨h.keeps_insert, h.nodup_insert, h.lt_insert, ?_, ?_, ?_, h.holding, h.current, ?_, ?_,
    ?_, ?_⟩
  · change (r.started ++ (r.queue ++ [r.nextId])).Nodup
    rw [← List.append_assoc, List.nodup_append]
    refine ⟨h.fresh, List.nodup_singleton _, ?_⟩
    intro job hjob other hother heq
    exact hnew (List.mem_singleton.mp hother ▸ heq ▸ hjob)
  · intro job hjob
    change job ∈ r.started ++ (r.queue ++ [r.nextId]) at hjob
    rw [← List.append_assoc] at hjob
    rcases List.mem_append.mp hjob with hjob | hjob
    · exact Nat.lt_succ_of_lt (h.taken_lt job hjob)
    · rw [List.mem_singleton.mp hjob]
      exact Nat.lt_succ_self _
  · intro job hjob
    rcases List.mem_append.mp hjob with hjob | hjob
    · exact List.mem_append_left _ (h.pending job hjob)
    · exact List.mem_append_right _ hjob
  · intro row hrow hmem
    rcases List.mem_append.mp hrow with hrow | hrow
    · rcases List.mem_append.mp hmem with hmem | hmem
      · exact h.queued row hrow hmem
      · have hlt := h.row_lt row hrow
        rw [List.mem_singleton.mp hmem] at hlt
        exact absurd hlt (Nat.lt_irrefl _)
    · rw [List.mem_singleton.mp hrow]
  · intro row hrow hmem
    rcases List.mem_append.mp hrow with hrow | hrow
    · exact h.running row hrow hmem
    · rw [List.mem_singleton.mp hrow] at hmem
      exact absurd (h.inProgress_lt hmem) (Nat.lt_irrefl _)
  · intro job hjob
    obtain ⟨hstarted, hnot, hrows⟩ := h.resolved job hjob
    refine ⟨hstarted, hnot, ?_⟩
    intro row hrow heq
    rcases List.mem_append.mp hrow with hrow | hrow
    · exact hrows row hrow heq
    · rw [List.mem_singleton.mp hrow]
      exact fun hfailed => JobStatus.noConfusion hfailed
  · intro hcalm
    have hexact := h.exact hcalm
    have hsame : ∀ job, (Table.insert r.nextId type metadata r.rows).cancelled job =
        r.rows.cancelled job := by
      intro job
      simp [Table.cancelled, Table.insert]
    have hfresh : r.rows.cancelled r.nextId = false := by
      rw [Bool.eq_false_iff]
      intro htrue
      obtain ⟨row, hrow, heq, -⟩ := Table.cancelled_iff.mp htrue
      exact absurd (heq ▸ h.row_lt row hrow) (Nat.lt_irrefl _)
    refine ⟨?_, ?_, ?_, hexact.executed, ?_, ?_⟩
    · change (r.enqueued ++ [r.nextId]).Nodup
      refine List.nodup_append.mpr ⟨hexact.enqueued_nodup, List.nodup_singleton _, ?_⟩
      intro job hjob other hother heq
      have hlt := hexact.enqueued_lt job hjob
      rw [heq, List.mem_singleton.mp hother] at hlt
      exact absurd hlt (Nat.lt_irrefl _)
    · intro job hjob
      rcases List.mem_append.mp hjob with hjob | hjob
      · exact Nat.lt_succ_of_lt (hexact.enqueued_lt job hjob)
      · rw [List.mem_singleton.mp hjob]
        exact Nat.lt_succ_self _
    · change (r.enqueued ++ [r.nextId]).filter
        (fun job => !(Table.insert r.nextId type metadata r.rows).cancelled job) =
          r.started ++ (r.queue ++ [r.nextId])
      simp only [hsame, List.filter_append, List.filter_singleton, hfresh, Bool.not_false,
        cond_true, hexact.order, List.append_assoc]
    · intro row hrow hqueued
      rcases List.mem_append.mp hrow with hrow | hrow
      · exact List.mem_append_left _ (hexact.queued row hrow hqueued)
      · rw [List.mem_singleton.mp hrow]
        exact List.mem_append_right _ (List.mem_singleton_self _)
    · intro row hrow hrunning
      rcases List.mem_append.mp hrow with hrow | hrow
      · exact hexact.running row hrow hrunning
      · rw [List.mem_singleton.mp hrow] at hrunning
        exact JobStatus.noConfusion hrunning

end Insert

/-- A queued job is cancelled; without its row, when the write throws. Either way it never
starts. -/
theorem cancelled (h : Tidy calm before r)
    (hrow : ∃ row ∈ r.rows, row.id = job ∧ row.status = .queued) {rows : Table}
    (hrows : Table.Marked job .cancelled r.rows rows ∨ (rows = r.rows ∧ ¬calm)) :
    Tidy calm before { r with
      rows := rows
      queue := r.queue.erase job
      pending := r.pending.filter fun other => other ≠ job } := by
  obtain ⟨old, hold, hid, hqueued⟩ := hrow
  have hstatus : ∀ row ∈ r.rows, row.id = job → row.status = .queued := by
    intro row hrow heq
    rw [eq_of_key_eq h.row_nodup hrow hold (heq.trans hid.symm)]
    exact hqueued
  have hnotRunning : job ∉ r.inProgress := by
    intro hmem
    have hrunning := h.running old hold (hid ▸ hmem)
    exact absurd (hqueued.symm.trans hrunning) (by decide)
  have hnodup : r.queue.Nodup := (List.nodup_append.mp h.fresh).2.1
  have hsub : (r.started ++ r.queue.erase job).Sublist (r.started ++ r.queue) :=
    List.Sublist.append_left List.erase_sublist r.started
  have hpending : ∀ other ∈ r.queue.erase job,
      other ∈ r.pending.filter fun other => other ≠ job := by
    intro other hother
    obtain ⟨hne, hother⟩ := (List.Nodup.mem_erase_iff hnodup).mp hother
    exact List.mem_filter.mpr ⟨h.pending other hother, decide_eq_true hne⟩
  rcases hrows with hmarked | ⟨rfl, hcalm⟩
  · refine ⟨h.keeps.marked hmarked ?_, ?_, hmarked.row_lt h.row_lt, h.fresh.sublist hsub,
      fun other hother => h.taken_lt other (hsub.subset hother), hpending, h.holding, h.current,
      ?_, ?_, ?_, ?_⟩
    · intro row hrow heq
      rw [hstatus row hrow heq]
      rfl
    · change (rows.map JobRow.id).Nodup
      rw [hmarked.ids]
      exact h.row_nodup
    · intro row hrow hmem
      obtain ⟨hne, hmem⟩ := (List.Nodup.mem_erase_iff hnodup).mp hmem
      rcases hmarked.row row hrow with ⟨hrow, -⟩ | ⟨heq, -⟩
      · exact h.queued row hrow hmem
      · exact absurd heq hne
    · intro row hrow hmem
      rcases hmarked.row row hrow with ⟨hrow, -⟩ | ⟨heq, -⟩
      · exact h.running row hrow hmem
      · exact absurd (heq ▸ hmem) hnotRunning
    · intro other hother
      obtain ⟨hstarted, hnot, hrows⟩ := h.resolved other hother
      refine ⟨hstarted, hnot, ?_⟩
      intro row hrow heq
      rcases hmarked.row row hrow with ⟨hrow, -⟩ | ⟨-, hcancelled⟩
      · exact hrows row hrow heq
      · rw [hcancelled]
        exact fun hfailed => JobStatus.noConfusion hfailed
    · intro hcalm
      have hexact := h.exact hcalm
      have hmem : job ∈ r.queue := hid ▸ hexact.queued old hold hqueued
      have hstarted : job ∉ r.started := fun hstarted =>
        (List.nodup_append.mp h.fresh).2.2 job hstarted job hmem rfl
      refine ⟨hexact.enqueued_nodup, hexact.enqueued_lt, ?_, hexact.executed, ?_, ?_⟩
      · change r.enqueued.filter (fun other => !rows.cancelled other) =
          r.started ++ r.queue.erase job
        rw [hmarked.filter_cancelled (hid ▸ List.mem_map_of_mem hold), hexact.order,
          List.filter_append, hnodup.erase_eq_filter]
        congr 1
        swap
        · exact List.filter_congr fun other _ => by by_cases heq : other = job <;> simp [heq]
        refine List.filter_eq_self.mpr ?_
        intro other hother
        exact decide_eq_true fun heq => hstarted (heq ▸ hother)
      · intro row hrow hqueued
        rcases hmarked.row row hrow with ⟨hrow, hne⟩ | ⟨-, hcancelled⟩
        · exact (List.Nodup.mem_erase_iff hnodup).mpr ⟨hne, hexact.queued row hrow hqueued⟩
        · exact absurd (hqueued.symm.trans hcancelled) (by decide)
      · intro row hrow hrunning
        rcases hmarked.row row hrow with ⟨hrow, -⟩ | ⟨-, hcancelled⟩
        · exact hexact.running row hrow hrunning
        · exact absurd (hrunning.symm.trans hcancelled) (by decide)
  · refine ⟨h.keeps, h.row_nodup, h.row_lt, h.fresh.sublist hsub,
      fun other hother => h.taken_lt other (hsub.subset hother), hpending, h.holding, h.current,
      ?_, h.running, h.resolved, fun hholds => absurd hholds hcalm⟩
    intro row hrow hmem
    exact h.queued row hrow (List.mem_of_mem_erase hmem)

/-- Only ids and statuses count. A report of progress changes other columns, and no invariant
looks at them. -/
theorem reported (h : Tidy calm before r) {rows : Table}
    (hrows : rows.map JobRow.state = r.rows.map JobRow.state) :
    Tidy calm before { r with rows := rows } := by
  have hold : ∀ row ∈ rows, ∃ old ∈ r.rows, old.id = row.id ∧ old.status = row.status := by
    intro row hrow
    have hmem : row.state ∈ rows.map JobRow.state := List.mem_map_of_mem hrow
    rw [hrows] at hmem
    obtain ⟨old, hold, heq⟩ := List.mem_map.mp hmem
    exact ⟨old, hold, congrArg Prod.fst heq, congrArg Prod.snd heq⟩
  have hnew : ∀ old ∈ r.rows, ∃ row ∈ rows, row.id = old.id ∧ row.status = old.status := by
    intro old hold
    have hmem : old.state ∈ r.rows.map JobRow.state := List.mem_map_of_mem hold
    rw [← hrows] at hmem
    obtain ⟨row, hrow, heq⟩ := List.mem_map.mp hmem
    exact ⟨row, hrow, congrArg Prod.fst heq, congrArg Prod.snd heq⟩
  have hids : rows.map JobRow.id = r.rows.map JobRow.id := by
    have hfst := congrArg (List.map Prod.fst) hrows
    rw [List.map_map, List.map_map] at hfst
    exact hfst
  refine ⟨?_, ?_, ?_, h.fresh, h.taken_lt, h.pending, h.holding, h.current, ?_, ?_, ?_, ?_⟩
  · intro row hrow hended
    obtain ⟨next, hnext, hid, hstatus⟩ := h.keeps row hrow hended
    obtain ⟨last, hlast, hid', hstatus'⟩ := hnew next hnext
    exact ⟨last, hlast, hid'.trans hid, hstatus'.trans hstatus⟩
  · change (rows.map JobRow.id).Nodup
    rw [hids]
    exact h.row_nodup
  · intro row hrow
    obtain ⟨old, hold, hid, -⟩ := hold row hrow
    exact hid ▸ h.row_lt old hold
  · intro row hrow hmem
    obtain ⟨old, hold, hid, hstatus⟩ := hold row hrow
    exact hstatus ▸ h.queued old hold (hid ▸ hmem)
  · intro row hrow hmem
    obtain ⟨old, hold, hid, hstatus⟩ := hold row hrow
    exact hstatus ▸ h.running old hold (hid ▸ hmem)
  · intro other hother
    obtain ⟨hstarted, hnot, hresolved⟩ := h.resolved other hother
    refine ⟨hstarted, hnot, ?_⟩
    intro row hrow heq
    obtain ⟨old, hold, hid, hstatus⟩ := hold row hrow
    exact hstatus ▸ hresolved old hold (hid.trans heq)
  · intro hcalm
    have hexact := h.exact hcalm
    have hcancelled : ∀ other, rows.cancelled other = r.rows.cancelled other := by
      intro other
      rw [Bool.eq_iff_iff, Table.cancelled_iff, Table.cancelled_iff]
      constructor
      · rintro ⟨row, hrow, heq, hcancelled⟩
        obtain ⟨old, hold, hid, hstatus⟩ := hold row hrow
        exact ⟨old, hold, hid.trans heq, hstatus.trans hcancelled⟩
      · rintro ⟨row, hrow, heq, hcancelled⟩
        obtain ⟨next, hnext, hid, hstatus⟩ := hnew row hrow
        exact ⟨next, hnext, hid.trans heq, hstatus.trans hcancelled⟩
    refine ⟨hexact.enqueued_nodup, hexact.enqueued_lt, ?_, hexact.executed, ?_, ?_⟩
    · simp only [hcancelled]
      exact hexact.order
    · intro row hrow hqueued
      obtain ⟨old, hold, hid, hstatus⟩ := hold row hrow
      exact hid ▸ hexact.queued old hold (hstatus.trans hqueued)
    · intro row hrow hrunning
      obtain ⟨old, hold, hid, hstatus⟩ := hold row hrow
      exact hid ▸ hexact.running old hold (hstatus.trans hrunning)

/-- Who is subscribed makes no difference. -/
theorem heard (h : Tidy calm before r) {listeners : Listeners} :
    Tidy calm before { r with listeners := listeners } :=
  ⟨h.keeps, h.row_nodup, h.row_lt, h.fresh, h.taken_lt, h.pending, h.holding, h.current,
    h.queued, h.running, h.resolved, fun hcalm =>
      ⟨(h.exact hcalm).enqueued_nodup, (h.exact hcalm).enqueued_lt, (h.exact hcalm).order,
        (h.exact hcalm).executed, (h.exact hcalm).queued, (h.exact hcalm).running⟩⟩

end Tidy

end Runner

end Jobs

end MailPanel

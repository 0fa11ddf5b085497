import MailPanel.RowTable
import MailPanel.StepRun

/-
The in-process job runner.  Its calls run to completion, but hand control to subscribers
and to the jobs themselves, which may call it again; the stack holds the calls that
control came from.  Any write to the table, any subscriber and any job may throw.
-/

namespace MailPanel

namespace Jobs

open RowTable

/-- The keys of the job table, drawn from a counter. -/
abbrev JobId := Nat

/-- A row goes from `queued` over `running` to an end; `cancelled` is for jobs that never
began. -/
inductive JobStatus where
  | queued
  | running
  | succeeded
  | failed
  | cancelled
deriving DecidableEq, Repr

/-- A row that is not over: what a restart finds in this state was interrupted. -/
def JobStatus.isActive : JobStatus → Bool
  | .queued | .running => true
  | _ => false

/-- A job as its table keeps it. The closure that does the work is in memory only, so a row that
outlives its process has nothing left that could be run. -/
structure JobRow where
  id : JobId
  type : String
  status : JobStatus
  progress : Nat
  errorMessage : Option String
  metadata : String
deriving DecidableEq, Repr

/- The table -/

/-- The rows of all jobs, in the order in which they were inserted. -/
abbrev Table := List JobRow

namespace Table

/-- The row of a job, if it has been written. -/
def getById (rows : Table) (id : JobId) : Option JobRow :=
  lookup JobRow.id id rows

/-- A new row is queued, with no progress. -/
def insert (id : JobId) (type metadata : String) (rows : Table) : Table :=
  rows ++ [⟨id, type, .queued, 0, none, metadata⟩]

/-- The runner has taken the job. Nothing is asked about the status before. -/
def markRunning (id : JobId) (rows : Table) : Table :=
  updateWhere rows (fun row => row.id = id) fun row => { row with status := .running }

/-- The progress that a closure reports, cut at one hundred. -/
def updateProgress (id : JobId) (progress : Nat) (rows : Table) : Table :=
  updateWhere rows (fun row => row.id = id) fun row => { row with progress := min 100 progress }

/-- The closure is done, and leaves its result in the row. -/
def markSucceeded (id : JobId) (metadata : String) (rows : Table) : Table :=
  updateWhere rows (fun row => row.id = id) fun row =>
    { row with status := .succeeded, progress := 100, metadata := metadata }

/-- The closure has thrown, or the row could not be written. The message is what the panel
shows. -/
def markFailed (id : JobId) (errorMessage : String) (rows : Table) : Table :=
  updateWhere rows (fun row => row.id = id) fun row =>
    { row with status := .failed, errorMessage := some errorMessage }

/-- A job that was still queued will not run. -/
def markCancelled (id : JobId) (rows : Table) : Table :=
  updateWhere rows (fun row => row.id = id) fun row =>
    { row with status := .cancelled, errorMessage := some "Cancelled." }

/-- At a start of the server no closure is left, so that every active row counts as failed. -/
def recoverInterruptedJobs (rows : Table) : Table :=
  updateWhere rows (fun row => row.status.isActive) fun row =>
    { row with
      status := .failed
      errorMessage := some "Interrupted by a server restart before this job could finish." }

end Table

/-- Whether a call of the repository throws, and on which side of its write. -/
inductive Fault where
  | none
  | before
  | after
deriving DecidableEq, Repr

/-- What becomes of a write: the table, and whether the call returned. -/
def Fault.write (fault : Fault) (change : Table → Table) (rows : Table) : Table × Bool :=
  match fault with
  | .none => (change rows, true)
  | .before => (rows, false)
  | .after => (change rows, false)

/-- The faults of the writes that a step may make. A step that makes fewer writes ignores the
others. -/
structure Faults where
  insert : Fault
  markRunning : Fault
  markSucceeded : Fault
  markFailed : Fault
  markCancelled : Fault
  /-- The text of what `markSucceeded` throws. -/
  message : String
deriving DecidableEq, Repr

/- Subscribers -/

/-- A subscriber of a job: its set, and its place in the order of insertion. -/
structure Subscription where
  set : Nat
  listener : Nat
  stamp : Nat
deriving DecidableEq, Repr

/-- The subscribers of all jobs. A set is dropped with its last member, and a later subscriber
then gets a new set. -/
structure Listeners where
  /-- The set that each job's subscribers are in. -/
  sets : List (JobId × Nat)
  members : List Subscription
  nextStamp : Nat
deriving DecidableEq, Repr

namespace Listeners

variable (l : Listeners)

/-- The set in which a job's subscribers are kept now. -/
def setOf (job : JobId) : Option Nat :=
  (lookup Prod.fst job l.sets).map Prod.snd

/-- A member that is there already is not added again and keeps its place. -/
def add (set listener : Nat) : Listeners :=
  if l.members.any fun member => member.set = set && member.listener = listener then l
  else { l with
    members := l.members ++ [⟨set, listener, l.nextStamp⟩]
    nextStamp := l.nextStamp + 1 }

/-- Adds to the job's set, or to a new one where the job has none. A set that has become empty
was thrown away, and a later subscriber gets a new one. -/
def subscribe (job : JobId) (listener : Nat) : Listeners :=
  match l.setOf job with
  | some set => l.add set listener
  | none =>
      ({ l with
        sets := l.sets ++ [(job, l.nextStamp)]
        nextStamp := l.nextStamp + 1 } : Listeners).add l.nextStamp listener

/-- What `subscribe` returned, for this job, set and listener. -/
def unsubscribe (job : JobId) (set listener : Nat) : Listeners :=
  let members := l.members.filter fun member =>
    !(member.set = set && member.listener = listener)
  if members.any fun member => member.set = set then { l with members := members }
  else { l with members := members, sets := l.sets.filter fun entry => entry.1 ≠ job }

/-- The next member of a set that an iteration visits. Members added during the iteration are
visited too. -/
def next (set last : Nat) : Option Subscription :=
  l.members.find? fun member => member.set = set && last ≤ member.stamp

end Listeners

/- The runner -/

/-- What the runner does once a publication is over, with the job that it was about. A listener
that is told of a job may call the runner itself, and this is the place at which the outer call
goes on. -/
inductive After where
  | enqueued (job : JobId)
  | cancelled (job : JobId)
  | running (job : JobId)
  | reported (job : JobId)
  | succeeded (job : JobId)
  | failed (job : JobId)
deriving DecidableEq, Repr

/-- The job that a publication is about. -/
def After.job : After → JobId
  | .enqueued job | .cancelled job | .running job | .reported job | .succeeded job
  | .failed job => job

/-- A call that has handed control to code outside the runner. -/
inductive Frame where
  /-- A subscriber is being called; the iteration goes on from the given stamp. -/
  | publishing (set next : Nat) (after : After)
  /-- The job's closure runs, up to its first wait. -/
  | executing (job : JobId)
deriving DecidableEq, Repr

/-- The runner between two steps. Subscribers and closures run inside its calls, so that calls
it has not finished stay on the stack. -/
structure Runner where
  rows : Table
  nextId : Nat
  queue : List JobId
  /-- The jobs whose closure is kept. -/
  pending : List JobId
  listeners : Listeners
  current : Option JobId
  /-- The innermost call first. -/
  stack : List Frame
  /-- The jobs whose closure has been called and has not settled. -/
  awaiting : List JobId
  /- What happened so far; no code reads it. -/
  enqueued : List JobId
  started : List JobId
  executed : List JobId
  resolved : List JobId
deriving DecidableEq, Repr

/-- What can happen next: a call from outside or from a closure or subscriber, or the end of one
that the runner has made. -/
inductive Label where
  | enqueue (type metadata : String) (faults : Faults)
  | cancel (job : JobId) (faults : Faults)
  | subscribe (job : JobId) (listener : Nat)
  | unsubscribe (job : JobId) (set listener : Nat)
  /-- A job's closure logs, or reports its progress. -/
  | report (job : JobId) (progress : Option Nat) (fault : Fault)
  /-- The code that has control returns it. -/
  | returns (faults : Faults)
  | throws (message : String) (faults : Faults)
  | resolve (metadata : String) (faults : Faults)
  | reject (message : String) (faults : Faults)
deriving DecidableEq, Repr

namespace Runner

variable (r : Runner)

/-- The closure is called. It runs at once up to its first wait, as a call on the stack. -/
def execute (job : JobId) : Runner :=
  { r with stack := .executing job :: r.stack, executed := r.executed ++ [job] }

/-- A subscriber is called. The publication goes on behind it once it returns. -/
def notify (set : Nat) (member : Subscription) (after : After) : Runner :=
  { r with stack := .publishing set (member.stamp + 1) after :: r.stack }

/-- The first subscriber that a publication calls, together with the set that it iterates over. -/
def subscriber (job : JobId) : Option (Nat × Subscription) :=
  (r.listeners.setOf job).bind fun set => (r.listeners.next set 0).map fun member => (set, member)

/-- The publication of a job that starts, and the call of its closure. -/
def publishRunning (job : JobId) : Runner :=
  match r.subscriber job with
  | some (set, member) => r.notify set member (.running job)
  | none => r.execute job

/-- The row of a job that starts; a throw leaves it the current one. Subscribers are told after
the write. -/
def start (fault : Fault) (job : JobId) : Runner :=
  let (rows, returned) := fault.write (Table.markRunning job) r.rows
  let next := { r with
    rows := rows
    current := some job
    started := r.started ++ [job] }
  if returned then next.publishRunning job else next

/-- Takes the next job of the queue when the runner is free. A queued id without a closure is
dropped. -/
def pump (faults : Faults) : Runner :=
  if r.current.isSome then r
  else
    match r.queue with
    | [] => r
    | job :: rest =>
        let taken := { r with
          queue := rest
          pending := r.pending.filter fun other => other ≠ job }
        if job ∈ r.pending then taken.start faults.markRunning job else taken

/-- `finally`: the runner is free, and takes what is queued. -/
def finish (faults : Faults) : Runner :=
  ({ r with current := none } : Runner).pump faults

/-- The rest of a call once its publication is over. After the end of a job that is `finally`. -/
def goOn (faults : Faults) : After → Runner
  | .enqueued _ => r.pump faults
  | .cancelled _ | .reported _ => r
  | .running job => r.execute job
  | .succeeded _ | .failed _ => r.finish faults

/-- Calls the subscribers of a job one by one, and then goes on with the call. -/
def publish (faults : Faults) (after : After) : Runner :=
  match r.subscriber after.job with
  | some (set, member) => r.notify set member after
  | none => r.goOn faults after

/-- `catch`: the row is marked failed, and the runner goes on whatever throws. -/
def fail (faults : Faults) (job : JobId) (message : String) : Runner :=
  let (rows, returned) := faults.markFailed.write (Table.markFailed job message) r.rows
  let next := { r with rows := rows }
  if returned then next.publish faults (.failed job) else next.finish faults

/-- The closure has settled well. When the row cannot be written, the job fails with that
error. -/
def succeed (faults : Faults) (job : JobId) (metadata : String) : Runner :=
  let (rows, returned) := faults.markSucceeded.write (Table.markSucceeded job metadata) r.rows
  let next := { r with rows := rows }
  if returned then next.publish faults (.succeeded job)
  else next.fail faults job faults.message

/-- Writes the row, keeps the closure, publishes and pumps. A throw of the write leaves none of
this. -/
def enqueue (type metadata : String) (faults : Faults) : Runner :=
  let job := r.nextId
  let (rows, returned) := faults.insert.write (Table.insert job type metadata) r.rows
  let next := { r with rows := rows, nextId := job + 1 }
  if returned then
    ({ next with
      pending := r.pending ++ [job]
      queue := r.queue ++ [job]
      enqueued := r.enqueued ++ [job] } : Runner).publish faults (.enqueued job)
  else next

/-- Only a queued job is cancelled. Its closure goes with it, also when the publication or the
write throws. -/
def cancel (job : JobId) (faults : Faults) : Runner :=
  match r.rows.getById job with
  | none => r
  | some row =>
      if row.status ≠ .queued then r
      else
        let (rows, returned) := faults.markCancelled.write (Table.markCancelled job) r.rows
        let next := { r with
          rows := rows
          queue := r.queue.erase job
          pending := r.pending.filter fun other => other ≠ job }
        if returned then next.publish faults (.cancelled job) else next

/-- A closure reports its progress, or logs a line, which writes nothing; subscribers hear of
both. -/
def report (job : JobId) (progress : Option Nat) (fault : Fault) : Runner :=
  let change := match progress with
    | none => fun rows => rows
    | some percent => Table.updateProgress job percent
  let (rows, returned) := fault.write change r.rows
  let next := { r with rows := rows }
  if returned then
    match next.subscriber job with
    | some (set, member) => next.notify set member (.reported job)
    | none => next
  else next

/-- The code that the innermost call waits for returns: the next subscriber is called, or the
call goes on. -/
def returns (faults : Faults) : Runner :=
  match r.stack with
  | [] => r
  | .publishing set last after :: rest =>
      let popped := { r with stack := rest }
      match r.listeners.next set last with
      | some member => popped.notify set member after
      | none => popped.goOn faults after
  | .executing job :: rest => { r with stack := rest, awaiting := job :: r.awaiting }

/-- It throws: out of `enqueue`, of `cancel` and of the report into their caller, out of
the start of a job into a promise that nobody waits for, and into the `catch` of `pump`. -/
def throws (message : String) (faults : Faults) : Runner :=
  match r.stack with
  | [] => r
  | .publishing _ _ after :: rest =>
      let popped := { r with stack := rest }
      match after with
      | .succeeded job => popped.fail faults job message
      | .failed _ => popped.finish faults
      | _ => popped
  | .executing job :: rest => ({ r with stack := rest } : Runner).fail faults job message

/-- The closure's promise settles, which the runner learns between two tasks. -/
def settle (handle : Runner → JobId → Runner) : Runner :=
  match r.stack, r.awaiting with
  | [], job :: rest => handle { r with awaiting := rest } job
  | _, _ => r

/-- The promise of a closure resolves, and the job has succeeded. -/
def resolveJob (metadata : String) (faults : Faults) (r : Runner) (job : JobId) : Runner :=
  ({ r with resolved := r.resolved ++ [job] } : Runner).succeed faults job metadata

/-- One step of the runner, as a function of what happens. A publication in progress is a frame
of the stack, and calls that come in meanwhile are on top of it. -/
def step (r : Runner) : Label → Runner
  | .enqueue type metadata faults => r.enqueue type metadata faults
  | .cancel job faults => r.cancel job faults
  | .subscribe job listener => { r with listeners := r.listeners.subscribe job listener }
  | .unsubscribe job set listener =>
      { r with listeners := r.listeners.unsubscribe job set listener }
  | .report job progress fault => r.report job progress fault
  | .returns faults => r.returns faults
  | .throws message faults => r.throws message faults
  | .resolve metadata faults => r.settle (resolveJob metadata faults)
  | .reject message faults => r.settle fun r job => r.fail faults job message

/-- `createJobRunner` over the rows of earlier processes: jobs that were under way then are
marked as interrupted, and nothing is in memory yet. -/
def create (rows : Table) : Runner where
  rows := rows.recoverInterruptedJobs
  nextId := (rows.map JobRow.id).foldl max 0 + 1
  queue := []
  pending := []
  listeners := ⟨[], [], 0⟩
  current := none
  stack := []
  awaiting := []
  enqueued := []
  started := []
  executed := []
  resolved := []

end Runner

end Jobs

end MailPanel

import MailPanel.BackupsService
import MailPanel.StepRun

/-
The panel's backups as one machine: jobs, sweeps and requests between their awaits, in
any order, with crashes, and other programs that write to the same bucket.
-/

namespace MailPanel

namespace Backups

/-- What the import route accepts, and what generated ids look like. -/
def validBackupId (id : BackupId) : Bool :=
  decide (id ≠ "") && id.toList.all fun c => c.isAlphanum || c ∈ ['.', '_', '-']

theorem slashFree_of_valid {id : BackupId} (hvalid : validBackupId id = true) :
    SlashFree id := by
  intro hslash
  simp only [validBackupId, Bool.and_eq_true, List.all_eq_true] at hvalid
  have hchar := hvalid.2 '/' hslash
  revert hchar
  decide

/-- What another program does to the bucket, which the panel has not asked for. -/
inductive ForeignAct (Archive : Type) where
  | put (key : Key) (content : Archive) (lastModified : Nat)
  | remove (key : Key)
  | openMultipart (key : Key) (uploadId : Nat)
  | closeMultipart (uploadId : Nat)
deriving DecidableEq, Repr

/-- What can happen next: a request of an administrator, the clock, a call that acts or answers,
or a crash. -/
inductive Label (Archive : Type) where
  | create (id : BackupId) (cold : Bool)
  | verify (id : BackupId)
  | upload (id : BackupId)
  | reconcile
  | importRemote (id : BackupId)
  | restore (id : BackupId)
  | delete (id : BackupId)
  | cancel (index : Nat)
  /-- The runner takes the next job. -/
  | pump
  /-- The periodic timer. -/
  | tick
  /-- The call that a thread awaits acts, and may answer. -/
  | land (index : Nat) (outcome : Outcome Archive)
  /-- An answered thread runs to its next await. -/
  | resume (index : Nat)
  | crash
  | configure (settings : Settings)
  | elapse (milliseconds : Nat)
  | foreign (act : ForeignAct Archive)
deriving DecidableEq, Repr

/-- The panel between two steps: its memory, the stores, and the calls that wait. -/
structure Panel (Archive : Type) where
  memory : Memory
  stores : Stores Archive
  threads : List (Thread Archive)
deriving DecidableEq, Repr

/-- The stores after such an act. Somebody else may write, remove or begin anything at any time,
since the bucket need not be the panel's alone. -/
def ForeignAct.apply {Archive : Type} (act : ForeignAct Archive) (s : Stores Archive) :
    Stores Archive :=
  match act with
  | .put key content lastModified => s.putObject key content lastModified
  | .remove key => s.removeObject key
  | .openMultipart key uploadId => s.openMultipart key uploadId
  | .closeMultipart uploadId =>
      { s with multiparts := s.multiparts.filter fun upload => upload.uploadId ≠ uploadId }

/-- Jobs wait for each other; requests and sweeps do not wait for them. -/
def Origin.isJob : Origin → Bool
  | .job _ => true
  | _ => false

namespace Thread

variable {Archive : Type} (thread : Thread Archive)

/-- A job of the queue that is not over. -/
def runningJob : Bool :=
  thread.origin.isJob && thread.task.active

/-- A sweep that is not over. -/
def sweeping : Bool :=
  decide (thread.origin = .sweep) && thread.task.active

end Thread

namespace Panel

variable {Archive : Type} (env : Env Archive) (p : Panel Archive)

/-- A panel that has just started, over stores that may hold anything. -/
def initial (stores : Stores Archive) (settings : Settings) : Panel Archive where
  memory := ⟨[], [], settings, 0, [], [], [], []⟩
  stores := stores
  threads := []

/-- A further thread, at its first wait. -/
def start (origin : Origin) (next : Memory × Task Archive) : Panel Archive :=
  { p with memory := next.1, threads := p.threads ++ [⟨origin, next.2, none⟩] }

/-- A job goes to the end of the queue and waits for its turn. -/
def enqueue (job : Job) : Panel Archive :=
  { p with memory := { p.memory with queue := p.memory.queue ++ [job] } }

/-- A job about a backup that the table has. -/
def enqueueFor (id : BackupId) (job : BackupRow → Job) : Panel Archive :=
  match p.memory.rows.getRowById id with
  | none => p
  | some row => p.enqueue (job row)

/-- The call at this place acts on the stores. Its answer reaches the thread later, if at all. -/
def land (index : Nat) (outcome : Outcome Archive) : Panel Archive :=
  match p.threads[index]? with
  | some ⟨origin, task, none⟩ =>
      match task.call env with
      | none => p
      | some call =>
          match p.stores.land env call outcome with
          | none => p
          | some (stores, answer) =>
              { p with stores := stores, threads := p.threads.set index ⟨origin, task, answer⟩ }
  | _ => p

/-- The answer of a call reaches its thread, which goes on to its next wait. -/
def resume (index : Nat) : Panel Archive :=
  match p.threads[index]? with
  | some ⟨origin, task, some answer⟩ =>
      let next := p.memory.resume env task answer
      { p with memory := next.1, threads := p.threads.set index ⟨origin, next.2, none⟩ }
  | _ => p

/-- Whether a job is under way. -/
def busy : Bool :=
  p.threads.any Thread.runningJob

/-- `idle()` of the reconciler: no job is under way and none is queued. -/
def idle : Bool :=
  !p.busy && p.memory.queue.isEmpty

/-- The next job of the queue begins, unless one is under way. It is the only place where a job
leaves the queue. -/
def pump : Panel Archive :=
  if p.busy then p
  else
    match p.memory.queue with
    | [] => p
    | job :: rest =>
        p.start (.job job) ({ p.memory with queue := rest }.startJob env job)

/-- A sweep starts while no job is queued or running and no sweep is going. -/
def tick : Panel Archive :=
  if p.threads.any Thread.sweeping || !p.idle then p
  else
    p.start .sweep
      (if p.memory.settings.uploadToRemote then p.memory.reconcile env
      else p.memory.applyLocalRetention env none)

/-- One step of the panel, as a function of what happens. Requests either queue a job or start a
thread of their own; the environment decides when a call lands and when its thread resumes. -/
def step (label : Label Archive) : Panel Archive :=
  match label with
  | .create id cold =>
      if validBackupId id && decide (id ∉ p.memory.ids) then
        { p with memory := { p.memory with
            queue := p.memory.queue ++ [.create id cold], ids := id :: p.memory.ids } }
      else p
  | .verify id => p.enqueueFor id fun row => .verify id row.filePath row.manifest
  | .upload id => p.enqueueFor id fun _ => .upload id
  | .reconcile => p.enqueue .reconcile
  | .importRemote id =>
      if validBackupId id then
        { p with memory := { p.memory with
            queue := p.memory.queue ++ [.importRemote id], ids := id :: p.memory.ids } }
      else p
  | .restore id =>
      match p.memory.rows.getRowById id with
      | none => p
      | some _ => p.start .request (p.memory, .preflighting id)
  | .delete id =>
      match p.memory.delete env id with
      | none => p
      | some task => p.start .request (p.memory, task)
  | .cancel index =>
      { p with memory := { p.memory with queue := p.memory.queue.eraseIdx index } }
  | .pump => p.pump env
  | .tick => p.tick env
  | .land index outcome => p.land env index outcome
  | .resume index => p.resume env index
  | .crash => { p with memory := { p.memory with queue := [] }, threads := [] }
  | .configure settings => { p with memory := { p.memory with settings := settings } }
  | .elapse milliseconds =>
      { p with memory := { p.memory with now := p.memory.now + milliseconds } }
  | .foreign act => { p with stores := act.apply p.stores }

/-- Several steps, one after the other. -/
abbrev run (labels : List (Label Archive)) : Panel Archive :=
  StepRun.run (step env) p labels

/-- No job is queued, and every job, sweep and request has ended. -/
def quiescent : Bool :=
  p.memory.queue.isEmpty && p.threads.all fun thread => !thread.task.active

end Panel

namespace Sample

def emptyDigest : String :=
  "e3b0c44298fc1c149afbf4c8996fb92427ae41e4649b934ca495991b7852b855"

def manifest (archive : Nat) : BackupManifest where
  createdAt := String.ofList (List.replicate archive 'I')
  volumes := backupVolumeKeys.map fun key => ⟨key, emptyDigest⟩

/-- Archives by number, with empty volumes: a number stands for a tar that was made at
that instant, and zero for one that cannot be read. -/
def tools : BackupArchive.ArchiveTools Nat where
  list archive :=
    if archive = 0 then .error "Unexpected end of archive"
    else
      .ok (⟨"manifest.json", [UInt8.ofNat archive]⟩ ::
        backupVolumeKeys.map fun key => ⟨BackupArchive.volumeTarFilename key, []⟩)
  parseManifest body :=
    match body with
    | [byte] => .ok (manifest byte.toNat)
    | _ => .error "Unexpected token"
  sha256 _ := emptyDigest

/-- The stored prefix has no slash at its end. -/
def env : Env Nat where
  tools := tools
  getTime := String.length
  destination := ⟨.s3, "s3://mail/backups", "backups", by decide⟩

example : (env.verifies 1 (manifest 1), env.verifies 2 (manifest 1),
    env.verifies 0 (manifest 1)) = (true, false, false) := by decide

/-- Keep the newest backup only, and upload each as it is made. -/
def settings : Settings where
  configured := true
  uploadToRemote := true
  policy := ⟨1, none⟩

def empty : Stores Nat :=
  ⟨[], [], []⟩

/-- A create job writes its archive, verifies it, and opens it to upload it. -/
def created : List (Label Nat) :=
  [.create "bkp_1" false, .pump, .land 0 (.written 1 (manifest 1)), .resume 0, .land 0 .ok,
    .resume 0, .land 0 .ok, .resume 0]

/-- The upload reaches the bucket, is downloaded and checked, and the job prunes and
reclaims. -/
def uploaded : List (Label Nat) :=
  [.land 0 (.stored 1 100 true), .resume 0, .land 0 .ok, .resume 0, .land 0 .ok, .resume 0,
    .land 0 .ok, .resume 0, .land 0 .ok, .resume 0, .land 0 .ok, .resume 0, .land 0 .ok,
    .resume 0]

end Sample

end Backups

end MailPanel

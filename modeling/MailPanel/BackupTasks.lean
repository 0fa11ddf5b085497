import MailPanel.BackupStores

/-
The memory of the process, and the work it has under way: jobs of the serial runner,
the periodic sweep and requests, each held at the call it awaits.
-/

namespace MailPanel

namespace Backups

structure Settings where
  /-- A destination is configured. -/
  configured : Bool
  uploadToRemote : Bool
  policy : RetentionPolicy
deriving DecidableEq, Repr

/-- The jobs of the queue, with what was known when they were queued. They run one at a time, in
the order in which they were queued. -/
inductive Job where
  | create (id : BackupId) (cold : Bool)
  | verify (id : BackupId) (filePath : Path) (manifest : BackupManifest)
  | upload (id : BackupId)
  | reconcile
  | importRemote (id : BackupId)
  | restore (id : BackupId) (filePath : Path)
deriving DecidableEq, Repr

inductive RemotePurgeOutcome where
  | deleted
  | noDestination
  | otherDestination
  | none
deriving DecidableEq, Repr

/-- What `uploadBackup` tells its caller. Only a failure is an error; a missing destination and
a file that is not there are answers. -/
inductive UploadOutcome where
  | uploaded
  | alreadyUploaded
  | noDestination
  | notLocal
  | failed
deriving DecidableEq, Repr

/-- What the panel keeps: its table of backups, the queue, the settings and the clock, and
beside them the history that the claims are stated about. -/
structure Memory where
  rows : BackupTable
  /-- Jobs waiting for their turn. -/
  queue : List Job
  settings : Settings
  now : Nat
  /-- Every id handed out or imported so far; new ones are drawn apart from them. -/
  ids : List BackupId
  /-- History: imported archives whose restore has not run, deletes that were answered,
  and backups whose archive passed verification when it was made. -/
  staged : List BackupId
  responses : List (BackupId × RemotePurgeOutcome)
  proven : List BackupId
deriving DecidableEq, Repr

/-- One run of `uploadOne`: what it has read from the row. -/
structure Upload where
  id : BackupId
  key : Key
  filePath : Path
  manifest : BackupManifest
deriving DecidableEq, Repr

/-- Who runs `uploadOne`: `uploadBackup`, or the loop of `reconcile` with the
candidates left. -/
inductive Pass where
  | backup (id : BackupId)
  | reconcile (rest : List BackupRow)
deriving DecidableEq, Repr

/-- A function held at an `await`, with the locals it still needs.  A `scope` is the
backup that `uploadBackup` works on, and `none` in a reconcile. -/
inductive Task (Archive : Type) where
  /-- `reconcile` at `cleanupInterruptedUploads`. -/
  | cleaningUp
  /-- `uploadOne` at the upload, the download and the check of the copy, and the
  removal of a copy that failed. -/
  | opening (pass : Pass) (upload : Upload)
  | sending (pass : Pass) (upload : Upload)
  | fetching (pass : Pass) (upload : Upload)
  | checking (pass : Pass) (upload : Upload) (copy : Archive)
  | discarding (pass : Pass) (upload : Upload)
  /-- The promise of `uploadOne` is settled. -/
  | settled (pass : Pass) (outcome : UploadOutcome)
  /-- `applyRemoteRetention`. -/
  | listing (scope : Option BackupId)
  | pruning (scope : Option BackupId) (key : Key) (rest : List Key)
  | pruned (scope : Option BackupId)
  /-- `reclaimLocalStaging`. -/
  | reclaiming (scope : Option BackupId) (row : BackupRow) (rest : List BackupRow)
  | reclaimed (scope : Option BackupId)
  /-- `applyLocalRetention`: the purge of a row, which may need no call, and its file. -/
  | purging (row : BackupRow) (rest : List BackupRow) (key : Key) (uploaded : Bool)
  | purged (row : BackupRow) (rest : List BackupRow)
  | unlinking (row : BackupRow) (rest : List BackupRow)
  /-- `importFromRemote`. -/
  | importListing (id : BackupId) (existing : Bool)
  | importDownloading (id : BackupId) (existing : Bool)
  | importReading (id : BackupId) (existing : Bool)
  | importVerifying (id : BackupId) (existing : Bool) (expected : BackupManifest)
  | importMeasuring (id : BackupId) (expected : BackupManifest)
  | importDiscarding (id : BackupId)
  /-- `BackupsService.delete`. -/
  | deletePurging (id : BackupId) (filePath : Path) (key : Key) (uploaded : Bool)
  | deletePurged (id : BackupId) (filePath : Path) (outcome : RemotePurgeOutcome)
  | deleteUnlinking (id : BackupId) (filePath : Path) (outcome : RemotePurgeOutcome)
  /-- `performCreate`. -/
  | archiving (id : BackupId) (cold : Bool)
  | restarting (id : BackupId) (manifest : BackupManifest)
  | proving (id : BackupId) (manifest : BackupManifest)
  | verifying (id : BackupId) (filePath : Path) (manifest : BackupManifest)
  /-- `restore` and `performRestore`. -/
  | preflighting (id : BackupId)
  | inspecting (id : BackupId) (filePath : Path)
  | extracting (id : BackupId) (filePath : Path)
  | restoring (id : BackupId) (filePath : Path)
  | ended
deriving DecidableEq, Repr

/-- The call a task awaits, with the arguments that it was started with. A task that has ended
awaits nothing; every other one waits, if only for its caller to go on. -/
def Task.call {Archive : Type} (env : Env Archive) : Task Archive → Option (Call Archive)
  | .cleaningUp => some .cleanupInterruptedUploads
  | .opening _ upload => some (.openFile upload.filePath)
  | .sending _ upload => some (.upload upload.key)
  | .fetching _ upload => some (.fetch upload.key)
  | .checking _ upload copy => some (.verifyScratch copy upload.manifest)
  | .discarding _ upload => some (.delete upload.key)
  | .settled _ _ => some .wait
  | .listing _ => some .list
  | .pruning _ key _ => some (.delete key)
  | .pruned _ => some .wait
  | .reclaiming _ row _ => some (.unlink row.filePath)
  | .reclaimed _ => some .wait
  | .purging _ _ key _ => some (.delete key)
  | .purged _ _ => some .wait
  | .unlinking row _ => some (.unlink row.filePath)
  | .importListing _ _ => some .list
  | .importDownloading id _ => some (.download (env.destination.keyForBackup id) (archivePath id))
  | .importReading id _ => some (.readManifest (archivePath id))
  | .importVerifying id _ expected => some (.verifyFile (archivePath id) expected)
  | .importMeasuring _ _ => some .wait
  | .importDiscarding id => some (.remove (archivePath id))
  | .deletePurging _ _ key _ => some (.delete key)
  | .deletePurged _ _ _ => some .wait
  | .deleteUnlinking _ filePath _ => some (.unlink filePath)
  | .archiving id _ => some (.createArchive (archivePath id))
  | .restarting _ _ => some .wait
  | .proving id manifest => some (.verifyFile (archivePath id) manifest)
  | .verifying _ filePath manifest => some (.verifyFile filePath manifest)
  | .preflighting _ => some .wait
  | .inspecting _ _ => some .wait
  | .extracting _ filePath => some (.extract filePath)
  | .restoring _ _ => some .wait
  | .ended => none

/-- `uploadOne` between its `markUploading` and its last write. During that time its row says
that the upload is under way. -/
def Task.upload? {Archive : Type} : Task Archive → Option Upload
  | .opening _ upload => some upload
  | .sending _ upload => some upload
  | .fetching _ upload => some upload
  | .checking _ upload _ => some upload
  | .discarding _ upload => some upload
  | _ => none

/-- The keys that `applyRemoteRetention` has still to delete. -/
def Task.pruneKeys {Archive : Type} : Task Archive → List Key
  | .pruning _ key rest => key :: rest
  | _ => []

def Task.active {Archive : Type} : Task Archive → Bool
  | .ended => false
  | _ => true

inductive Origin where
  | job (job : Job)
  | sweep
  | request
deriving DecidableEq, Repr

structure Thread (Archive : Type) where
  origin : Origin
  task : Task Archive
  /-- What the awaited call answered, once it has. -/
  answer : Option (Answer Archive)
deriving DecidableEq, Repr

end Backups

end MailPanel

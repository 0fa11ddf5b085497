import MailPanel.BackupUploader

/-
The service of the routes: creating, verifying, deleting and restoring a backup, and
the segment that follows the answer of each awaited call.
-/

namespace MailPanel

namespace Backups

namespace Memory

variable {Archive : Type} (env : Env Archive) (m : Memory)

/-- `delete` up to its first await. `none`: there is no such backup, and the request is answered
with an error. -/
def delete (id : BackupId) : Option (Task Archive) :=
  match m.rows.getRowById id with
  | none => none
  | some row =>
      match m.purgeRemoteCopy env id with
      | .throws => none
      | .returns outcome => some (.deletePurged id row.filePath outcome)
      | .deletes key uploaded => some (.deletePurging id row.filePath key uploaded)

/-- The remote is settled: the row goes, then the archive. -/
def deletePurged (id : BackupId) (filePath : Path) (outcome : RemotePurgeOutcome) :
    Memory × Task Archive :=
  (m.deleteRow id, .deleteUnlinking id filePath outcome)

/-- The archive is written: the row is there before it is verified. A cold backup starts the
mail server again before that. -/
def archived (id : BackupId) (cold : Bool) (manifest : BackupManifest) :
    Memory × Task Archive :=
  match m.rows.insert (env.getTime manifest.createdAt) ⟨id, archivePath id, manifest⟩ with
  | none => (m, .ended)
  | some rows =>
      ({ m with rows := rows },
        if cold then .restarting id manifest else .proving id manifest)

/-- The verdict on a new archive.  A row that is gone by now makes the job throw. -/
def proved (id : BackupId) (ok : Bool) : Memory × Task Archive :=
  if ok then
    match m.rows.getRowById id with
    | none => (m, .ended)
    | some _ =>
        let verified :=
          { m with rows := m.rows.markVerified id, proven := id :: m.proven }
        if m.settings.uploadToRemote then verified.uploadOne env (.backup id) id
        else (verified, .ended)
  else ({ m with rows := m.rows.markVerificationFailed id }, .ended)

def verified (id : BackupId) (ok : Bool) : Memory × Task Archive :=
  ({ m with rows := if ok then m.rows.markVerified id else m.rows.markVerificationFailed id },
    .ended)

/-- The preflight has passed: the job is queued with the path the row names now. -/
def enqueueRestore (id : BackupId) : Memory × Task Archive :=
  match m.rows.getRowById id with
  | none => (m, .ended)
  | some row => ({ m with queue := m.queue ++ [.restore id row.filePath] }, .ended)

/-- A restore has run: what was staged for it has served. -/
def restored (id : BackupId) : Memory × Task Archive :=
  ({ m with staged := m.staged.filter fun other => other ≠ id }, .ended)

/-- The first segment of a job. A backup, a verification and a restore begin with a wait, and
the others look at the table first. -/
def startJob : Job → Memory × Task Archive
  | .create id cold => (m, .archiving id cold)
  | .verify id filePath manifest => (m, .verifying id filePath manifest)
  | .upload id => m.uploadOne env (.backup id) id
  | .reconcile => m.reconcile env
  | .importRemote id => m.importFromRemote env id
  | .restore id filePath => (m, .inspecting id filePath)

/-- The segment between an awaited answer and the next await, by the task that waited. An answer
that a task does not expect is what a rejection of its call comes to. -/
def resume : Task Archive → Answer Archive → Memory × Task Archive
  | .cleaningUp, _ => m.uploadCandidates env m.rows.listUploadCandidates
  | .opening pass upload, .done => (m, .sending pass upload)
  | .opening pass upload, _ => (m, .discarding pass upload)
  | .sending pass upload, .done => (m, .fetching pass upload)
  | .sending pass upload, _ => (m, .discarding pass upload)
  | .fetching pass upload, .fetched copy => (m, .checking pass upload copy)
  | .fetching pass upload, _ => (m, .discarding pass upload)
  | .checking pass upload _, .verdict true => m.uploaded env pass upload
  | .checking pass upload _, _ => (m, .discarding pass upload)
  | .discarding pass upload, _ => m.uploadFailed pass upload
  | .settled pass outcome, _ => m.settle env pass outcome
  | .listing scope, .listed backups => (m, prune scope (m.selectPruned backups))
  | .listing _, _ => (m, .ended)
  | .pruning scope key rest, .done => (m.forgetPruned key, prune scope rest)
  | .pruning _ _ _, _ => (m, .ended)
  | .pruned scope, _ => (m, reclaim scope m.reclaimable)
  | .reclaiming scope row rest, _ =>
      ({ m with rows := m.rows.markLocalReclaimed row.id }, reclaim scope rest)
  | .reclaimed scope, _ => m.applyLocalRetention env scope
  | .purging row rest _ _, .done => m.expireRow row rest
  | .purging row rest _ uploaded, _ => if uploaded then (m, .ended) else m.expireRow row rest
  | .purged row rest, _ => m.expireRow row rest
  | .unlinking _ rest, _ => m.expire env rest
  | .importListing id existing, .listed backups =>
      if env.destination.keyForBackup id ∈ backups.map RemoteBackup.key then
        (m, .importDownloading id existing)
      else (m, .ended)
  | .importListing _ _, _ => (m, .ended)
  | .importDownloading id existing, .done => m.expectManifest id existing
  | .importDownloading _ _, _ => (m, .ended)
  | .importReading id existing, .manifest expected => (m, .importVerifying id existing expected)
  | .importReading id _, _ => (m, .importDiscarding id)
  | .importVerifying id existing expected, .verdict true => m.importVerified id existing expected
  | .importVerifying id _ _, _ => (m, .importDiscarding id)
  | .importMeasuring id expected, .done => m.registerImported env id expected
  | .importMeasuring id _, _ => (m, .importDiscarding id)
  | .importDiscarding _, _ => (m, .ended)
  | .deletePurging id filePath _ _, .done => m.deletePurged id filePath .deleted
  | .deletePurging id filePath _ uploaded, _ =>
      if uploaded then (m, .ended) else m.deletePurged id filePath .none
  | .deletePurged id filePath outcome, _ => m.deletePurged id filePath outcome
  | .deleteUnlinking id _ outcome, _ =>
      ({ m with responses := (id, outcome) :: m.responses }, .ended)
  | .archiving id cold, .manifest manifest => m.archived env id cold manifest
  | .archiving _ _, _ => (m, .ended)
  | .restarting id manifest, .done => (m, .proving id manifest)
  | .restarting _ _, _ => (m, .ended)
  | .proving id _, .verdict ok => m.proved env id ok
  | .proving _ _, _ => (m, .ended)
  | .verifying id _ _, .verdict ok => m.verified id ok
  | .verifying _ _ _, _ => (m, .ended)
  | .preflighting id, .done => m.enqueueRestore id
  | .preflighting _, _ => (m, .ended)
  | .inspecting id filePath, .done => (m, .extracting id filePath)
  | .inspecting _ _, _ => (m, .ended)
  | .extracting id filePath, .done => (m, .restoring id filePath)
  | .extracting _ _, _ => (m, .ended)
  | .restoring id _, _ => m.restored id
  | .ended, _ => (m, .ended)

end Memory

end Backups

end MailPanel

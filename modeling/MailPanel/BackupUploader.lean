import MailPanel.BackupTasks

/-
The uploader: what each of its functions does between one await and the next.  A
segment reads and writes the memory of the process only; whatever throws ends the task.
-/

namespace MailPanel

namespace Backups

namespace Memory

variable {Archive : Type} (env : Env Archive) (m : Memory)

def destinationProvider : Option Destination :=
  if m.settings.configured then some env.destination else none

/-- A deleted backup has no archive left that waits for its restore. -/
def deleteRow (id : BackupId) : Memory :=
  { m with rows := m.rows.delete id, staged := m.staged.filter fun other => other ≠ id }

inductive PurgeStart where
  | throws
  | returns (outcome : RemotePurgeOutcome)
  | deletes (key : Key) (uploaded : Bool)
deriving DecidableEq, Repr

/-- `purgeRemoteCopy` up to its call. It answers at once where there is nothing to delete, or
where the copy is at another destination than the present one. -/
def purgeRemoteCopy (id : BackupId) : PurgeStart :=
  match m.rows.getRowById id with
  | none => .throws
  | some row =>
      let uploaded := decide (row.uploadStatus = .uploaded)
      match m.destinationProvider env with
      | none => .returns (if uploaded then .noDestination else .none)
      | some destination =>
          if uploaded && decide (row.uploadDestination ≠ some destination.describe) then
            .returns .otherDestination
          else .deletes (row.remoteKey.getD (destination.keyForBackup id)) uploaded

/-- The rows that local retention takes, as it sees them when it starts. -/
def expiredRows (protectedId : Option BackupId) : List BackupRow :=
  let rows := m.rows.listAllRows
  let selected := selectBackupsForDeletion
    (rows.map fun row => ⟨row.id, row.createdAt⟩) m.settings.policy m.now protectedId
  rows.filter fun row =>
    decide (row.id ∈ selected) && row.localPresent &&
      (row.uploadStatus = .pending || row.uploadStatus = .failed)

def expire : List BackupRow → Memory × Task Archive
  | [] => (m, .ended)
  | row :: rest =>
      match m.purgeRemoteCopy env row.id with
      | .throws => (m, .ended)
      | .returns _ => (m, .purged row rest)
      | .deletes key uploaded => (m, .purging row rest key uploaded)

def expireRow (row : BackupRow) (rest : List BackupRow) : Memory × Task Archive :=
  (m.deleteRow row.id, .unlinking row rest)

def applyLocalRetention (protectedId : Option BackupId) : Memory × Task Archive :=
  match m.destinationProvider env with
  | none => (m, .ended)
  | some _ => m.expire env (m.expiredRows protectedId)

def reclaimable : List BackupRow :=
  m.rows.listUploaded.filter BackupRow.localPresent

def reclaim (scope : Option BackupId) : List BackupRow → Task Archive
  | [] => .reclaimed scope
  | row :: rest => .reclaiming scope row rest

def selectPruned (backups : List RemoteBackup) : List Key :=
  selectBackupsForDeletion (backups.map fun backup => ⟨backup.key, backup.lastModified⟩)
    m.settings.policy m.now none

def prune (scope : Option BackupId) : List Key → Task Archive
  | [] => .pruned scope
  | key :: rest => .pruning scope key rest

/-- The object at this key is gone: the row, if one has the key, is local again, or is
dropped when its archive is not here either. -/
def forgetPruned (key : Key) : Memory :=
  match m.rows.getRowByRemoteKey key with
  | none => m
  | some row =>
      if row.localPresent then { m with rows := m.rows.clearUpload row.id }
      else m.deleteRow row.id

/-- The first segment of an upload: it answers at once where there is no destination, no row or
no file, and marks the row as uploading otherwise. -/
def uploadOne (pass : Pass) (id : BackupId) : Memory × Task Archive :=
  match m.destinationProvider env with
  | none => (m, .settled pass .noDestination)
  | some destination =>
      match m.rows.getRowById id with
      | none => (m, .ended)
      | some row =>
          if row.localPresent then
            ({ m with rows := m.rows.markUploading id },
              .opening pass ⟨id, destination.keyForBackup id, row.filePath, row.manifest⟩)
          else if row.uploadStatus = .uploaded then (m, .settled pass .alreadyUploaded)
          else (m, .settled pass .notLocal)

def uploadCandidates : List BackupRow → Memory × Task Archive
  | [] => (m, .listing none)
  | row :: rest => m.uploadOne env (.reconcile rest) row.id

/-- What follows an upload: retention after a backup's own one, the next candidate in
a reconcile. -/
def settle (pass : Pass) (outcome : UploadOutcome) : Memory × Task Archive :=
  match pass with
  | .reconcile rest => m.uploadCandidates env rest
  | .backup id =>
      match m.destinationProvider env with
      | none => (m, .ended)
      | some _ =>
          if outcome = .uploaded then (m, .listing (some id))
          else m.applyLocalRetention env (some id)

def reconcile : Memory × Task Archive :=
  match m.destinationProvider env with
  | none => (m, .ended)
  | some _ => (m, .cleaningUp)

def uploaded (pass : Pass) (upload : Upload) : Memory × Task Archive :=
  ({ m with
      rows := m.rows.markUploaded upload.id env.destination.describe upload.key },
    .settled pass .uploaded)

def uploadFailed (pass : Pass) (upload : Upload) : Memory × Task Archive :=
  ({ m with rows := m.rows.markUploadFailed upload.id }, .settled pass .failed)

def importFromRemote (id : BackupId) : Memory × Task Archive :=
  match m.destinationProvider env with
  | none => (m, .ended)
  | some _ =>
      match m.rows.getRowById id with
      | none => (m, .importListing id false)
      | some row => if row.localPresent then (m, .ended) else (m, .importListing id true)

/-- The panel's own manifest of a backup, or else the archive's. -/
def expectManifest (id : BackupId) (existing : Bool) : Memory × Task Archive :=
  match m.rows.getManifestById id with
  | some manifest => (m, .importVerifying id existing manifest)
  | none => (m, .importReading id existing)

def importVerified (id : BackupId) (existing : Bool) (expected : BackupManifest) :
    Memory × Task Archive :=
  if existing then
    ({ m with rows := m.rows.markLocalRestored id, staged := id :: m.staged }, .ended)
  else (m, .importMeasuring id expected)

def registerImported (id : BackupId) (expected : BackupManifest) : Memory × Task Archive :=
  match m.rows.insert (env.getTime expected.createdAt) ⟨id, archivePath id, expected⟩ with
  | none => (m, .importDiscarding id)
  | some rows =>
      ({ m with
          rows := rows.markUploaded id env.destination.describe
            (env.destination.keyForBackup id)
          staged := id :: m.staged }, .ended)

section Worklists

variable {m : Memory}

theorem mem_expiredRows {scope : Option BackupId} {row : BackupRow}
    (hrow : row ∈ m.expiredRows scope) :
    row ∈ m.rows ∧ row.localPresent = true ∧
      (row.uploadStatus = .pending ∨ row.uploadStatus = .failed) := by
  obtain ⟨hmem, hselected⟩ := List.mem_filter.mp hrow
  simp only [Bool.and_eq_true, Bool.or_eq_true, decide_eq_true_eq] at hselected
  exact ⟨BackupTable.mem_listAllRows.mp hmem, hselected.1.2, hselected.2⟩

theorem mem_reclaimable {row : BackupRow} :
    row ∈ m.reclaimable ↔
      row ∈ m.rows ∧ row.uploadStatus = .uploaded ∧ row.localPresent = true := by
  rw [reclaimable, List.mem_filter, BackupTable.mem_listUploaded, and_assoc]

/-- What is left of a row whose object was pruned. -/
theorem forgetPruned_cases (m : Memory) (key : Key) :
    m.forgetPruned key = m ∧ m.rows.getRowByRemoteKey key = none ∨
      ∃ row, m.rows.getRowByRemoteKey key = some row ∧
        (row.localPresent = true ∧
            m.forgetPruned key = { m with rows := m.rows.clearUpload row.id } ∨
          row.localPresent = false ∧ m.forgetPruned key = m.deleteRow row.id) := by
  rw [forgetPruned]
  cases hrow : m.rows.getRowByRemoteKey key with
  | none => exact Or.inl ⟨rfl, rfl⟩
  | some row =>
      right
      refine ⟨row, rfl, ?_⟩
      by_cases hlocal : row.localPresent = true
      · exact Or.inl ⟨hlocal, if_pos hlocal⟩
      · exact Or.inr ⟨by simpa using hlocal, if_neg hlocal⟩

end Worklists

end Memory

end Backups

end MailPanel

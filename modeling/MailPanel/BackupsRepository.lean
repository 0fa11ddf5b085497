import MailPanel.BackupArchive
import MailPanel.BackupDestination
import MailPanel.BackupRetention
import MailPanel.RowTable

/-
The `backups` table: one row for each backup, with what verification said of its
archive and where its upload stands.
-/

namespace MailPanel

namespace Backups

abbrev Path := String

inductive VerificationStatus where
  | unverified
  | verified
  | failed
deriving DecidableEq, Repr

inductive UploadStatus where
  | pending
  | uploading
  | uploaded
  | failed
deriving DecidableEq, Repr

/-- A row of the table of backups: what the archive is, whether it was found good, how far its
upload has come, and whether its file is still in the archive directory. -/
structure BackupRow where
  id : BackupId
  createdAt : Nat
  filePath : Path
  manifest : BackupManifest
  verificationStatus : VerificationStatus
  uploadStatus : UploadStatus
  uploadDestination : Option String
  remoteKey : Option Key
  localPresent : Bool
deriving DecidableEq, Repr

structure InsertBackupParams where
  id : BackupId
  filePath : Path
  manifest : BackupManifest
deriving DecidableEq, Repr

/-- The new row, with the defaults of the columns that an insert does not name. -/
def InsertBackupParams.row (params : InsertBackupParams) (createdAt : Nat) : BackupRow where
  id := params.id
  createdAt := createdAt
  filePath := params.filePath
  manifest := params.manifest
  verificationStatus := .unverified
  uploadStatus := .pending
  uploadDestination := none
  remoteKey := none
  localPresent := true

abbrev BackupTable := List BackupRow

namespace BackupTable

open RowTable

variable (rows : BackupTable)

def getRowById (id : BackupId) : Option BackupRow :=
  lookup BackupRow.id id rows

def getManifestById (id : BackupId) : Option BackupManifest :=
  (getRowById rows id).map BackupRow.manifest

def getRowByRemoteKey (key : Key) : Option BackupRow :=
  lookup BackupRow.remoteKey (some key) rows

def setRow (id : BackupId) (change : BackupRow → BackupRow) : BackupTable :=
  updateWhere rows (fun row => row.id = id) change

/-- `none`: the primary key is taken. -/
def insert (createdAt : Nat) (params : InsertBackupParams) : Option BackupTable :=
  match getRowById rows params.id with
  | some _ => none
  | none =>
      some (rows ++ [params.row createdAt])

def markVerified (id : BackupId) : BackupTable :=
  setRow rows id fun row => { row with verificationStatus := .verified }

def markVerificationFailed (id : BackupId) : BackupTable :=
  setRow rows id fun row => { row with verificationStatus := .failed }

def delete (id : BackupId) : BackupTable :=
  rows.filter fun row => row.id ≠ id

def markUploading (id : BackupId) : BackupTable :=
  setRow rows id fun row => { row with uploadStatus := .uploading }

def markUploaded (id : BackupId) (destination : String) (remoteKey : Key) : BackupTable :=
  setRow rows id fun row =>
    { row with
      uploadStatus := .uploaded
      uploadDestination := some destination
      remoteKey := some remoteKey }

def markUploadFailed (id : BackupId) : BackupTable :=
  setRow rows id fun row => { row with uploadStatus := .failed }

def markLocalReclaimed (id : BackupId) : BackupTable :=
  setRow rows id fun row => { row with localPresent := false }

def markLocalRestored (id : BackupId) : BackupTable :=
  setRow rows id fun row => { row with localPresent := true }

def clearUpload (id : BackupId) : BackupTable :=
  setRow rows id fun row =>
    { row with uploadStatus := .pending, uploadDestination := none, remoteKey := none }

end BackupTable

/-- Awaiting an upload, or the retry of one, with the archive still here. -/
def BackupRow.isUploadCandidate (row : BackupRow) : Bool :=
  (row.uploadStatus = .pending || row.uploadStatus = .failed) && row.localPresent &&
    decide (row.verificationStatus ≠ .failed)

namespace BackupTable

variable (rows : BackupTable)

/-- Oldest first. -/
def listUploadCandidates : List BackupRow :=
  (rows.filter BackupRow.isUploadCandidate).insertionSort
    fun a b => a.createdAt ≤ b.createdAt

/-- Newest first. -/
def listAllRows : List BackupRow :=
  rows.insertionSort fun a b => b.createdAt ≤ a.createdAt

def listUploaded : List BackupRow :=
  (rows.filter fun row => row.uploadStatus = .uploaded).insertionSort
    fun a b => b.createdAt ≤ a.createdAt

end BackupTable

namespace BackupTable

open RowTable

variable {rows : BackupTable} {id wanted : BackupId} {change : BackupRow → BackupRow}

theorem mem_of_getRowById {row : BackupRow} (hrow : getRowById rows id = some row) :
    row ∈ rows :=
  mem_of_lookup hrow

theorem id_of_getRowById {row : BackupRow} (hrow : getRowById rows id = some row) :
    row.id = id :=
  key_of_lookup hrow

theorem getRowById_of_mem (hnodup : (rows.map BackupRow.id).Nodup) {row : BackupRow}
    (hrow : row ∈ rows) : getRowById rows row.id = some row :=
  lookup_of_mem hnodup hrow

theorem mem_of_getRowByRemoteKey {key : Key} {row : BackupRow}
    (hrow : getRowByRemoteKey rows key = some row) : row ∈ rows ∧ row.remoteKey = some key :=
  ⟨mem_of_lookup hrow, key_of_lookup hrow⟩

theorem getRowById_setRow (hid : ∀ row, (change row).id = row.id) :
    getRowById (setRow rows id change) wanted =
      if wanted = id then (getRowById rows wanted).map change
      else getRowById rows wanted := by
  rw [getRowById, setRow, lookup_updateWhere fun row _ => hid row]
  cases hrow : lookup BackupRow.id wanted rows with
  | none => simp [getRowById, hrow]
  | some row =>
      have hwanted := key_of_lookup hrow
      by_cases heq : wanted = id
      · rw [if_pos heq, getRowById, hrow]
        simp [hwanted, heq]
      · rw [if_neg heq, getRowById, hrow]
        simp [hwanted, heq]

theorem mem_setRow {row : BackupRow} :
    row ∈ setRow rows id change ↔
      (row ∈ rows ∧ row.id ≠ id) ∨ ∃ old ∈ rows, old.id = id ∧ row = change old := by
  rw [setRow, mem_updateWhere]
  simp

theorem none_setRow (hid : ∀ row, (change row).id = row.id)
    (hnone : getRowById rows wanted = none) :
    getRowById (setRow rows id change) wanted = none := by
  rw [getRowById_setRow hid, hnone]
  exact ite_self none

theorem map_id_setRow (hid : ∀ row, (change row).id = row.id) :
    (setRow rows id change).map BackupRow.id = rows.map BackupRow.id :=
  map_updateWhere BackupRow.id fun row _ => hid row

/-- A property of rows that the change keeps. -/
theorem forall_setRow {property : BackupRow → Prop} (hrows : ∀ row ∈ rows, property row)
    (hchange : ∀ row ∈ rows, row.id = id → property row → property (change row)) :
    ∀ row ∈ setRow rows id change, property row := by
  intro row hrow
  rcases mem_updateWhere.mp hrow with ⟨hold, -⟩ | ⟨old, hold, hid, rfl⟩
  · exact hrows row hold
  · exact hchange old hold (by simpa using hid) (hrows old hold)

theorem getRowById_delete :
    getRowById (delete rows id) wanted =
      if wanted = id then none else getRowById rows wanted :=
  lookup_filter_ne id wanted

theorem none_delete (hnone : getRowById rows wanted = none) :
    getRowById (delete rows id) wanted = none := by
  rw [getRowById_delete, hnone]
  exact ite_self none

theorem mem_delete {row : BackupRow} (hrow : row ∈ delete rows id) : row ∈ rows :=
  (List.mem_filter.mp hrow).1

theorem id_ne_of_mem_delete {row : BackupRow} (hrow : row ∈ delete rows id) : row.id ≠ id := by
  simpa using (List.mem_filter.mp hrow).2

theorem nodup_delete (hnodup : (rows.map BackupRow.id).Nodup) :
    ((delete rows id).map BackupRow.id).Nodup :=
  hnodup.sublist (List.filter_sublist.map BackupRow.id)

theorem insert_eq_some {createdAt : Nat} {params : InsertBackupParams} {after : BackupTable}
    (hinsert : insert rows createdAt params = some after) :
    getRowById rows params.id = none ∧ after = rows ++ [params.row createdAt] := by
  rw [insert] at hinsert
  cases hrow : getRowById rows params.id with
  | none =>
      rw [hrow, Option.some.injEq] at hinsert
      exact ⟨rfl, hinsert.symm⟩
  | some row =>
      rw [hrow] at hinsert
      exact absurd hinsert (by simp)

theorem getRowById_insert {createdAt : Nat} {params : InsertBackupParams}
    {after : BackupTable} (hinsert : insert rows createdAt params = some after) :
    getRowById after wanted =
      if wanted = params.id then some (params.row createdAt)
      else getRowById rows wanted := by
  obtain ⟨hnone, rfl⟩ := insert_eq_some hinsert
  have hid : (params.row createdAt).id = params.id := rfl
  rw [getRowById, lookup_append, hid]
  by_cases hwanted : wanted = params.id
  · have hfree : lookup BackupRow.id wanted rows = none := hwanted ▸ hnone
    rw [hfree, if_pos hwanted, if_pos hwanted.symm]
    rfl
  · simp [getRowById, hwanted, Ne.symm hwanted]

theorem nodup_insert {createdAt : Nat} {params : InsertBackupParams} {after : BackupTable}
    (hinsert : insert rows createdAt params = some after)
    (hnodup : (rows.map BackupRow.id).Nodup) : (after.map BackupRow.id).Nodup := by
  obtain ⟨hnone, rfl⟩ := insert_eq_some hinsert
  rw [List.map_append, List.map_singleton, List.nodup_append]
  refine ⟨hnodup, List.nodup_singleton _, ?_⟩
  intro left hleft right hright heq
  obtain ⟨row, hrow, rfl⟩ := List.mem_map.mp hleft
  apply lookup_eq_none hnone hrow
  rw [heq, List.mem_singleton.mp hright]
  rfl

theorem mem_listAllRows {row : BackupRow} : row ∈ listAllRows rows ↔ row ∈ rows :=
  List.mem_insertionSort _

theorem mem_listUploaded {row : BackupRow} :
    row ∈ listUploaded rows ↔ row ∈ rows ∧ row.uploadStatus = .uploaded := by
  rw [listUploaded, List.mem_insertionSort, List.mem_filter]
  simp

end BackupTable

end Backups

end MailPanel

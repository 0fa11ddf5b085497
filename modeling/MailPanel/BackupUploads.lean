import MailPanel.BackupInvariants

/-
The rows of uploads and their objects over one step: where an uploaded or an uploading
row comes from, and which calls change an object.
-/

namespace MailPanel

namespace Backups

variable {Archive : Type}

/-- The object at this key is an archive that the manifest describes. -/
def Stores.holds (env : Env Archive) (s : Stores Archive) (key : Key)
    (manifest : BackupManifest) : Bool :=
  (s.object? key).any fun object => env.verifies object.content manifest

/-- The object that the row names is there and verifies. -/
def BackupRow.copied (env : Env Archive) (s : Stores Archive) (row : BackupRow) : Bool :=
  row.remoteKey.any fun key => s.holds env key row.manifest

def Task.uploads (id : BackupId) (task : Task Archive) : Bool :=
  task.upload?.any fun upload => decide (upload.id = id)

def Task.sends (key : Key) (task : Task Archive) : Bool :=
  task.upload?.any fun upload => decide (upload.key = key)

/-- The row that a remote deletion is about. -/
def Task.clears (row : BackupRow) : Task Archive → Bool
  | .pruning _ key _ => decide (row.remoteKey = some key)
  | .purging other _ _ _ => decide (other.id = row.id)
  | .deletePurging id _ _ _ => decide (id = row.id)
  | _ => false

/-- The backup whose row the segment drops, its remote copy being settled. -/
def Task.drops (task : Task Archive) (answer : Answer Archive) : Option BackupId :=
  match task with
  | .purging row _ _ _ => if task.forgets answer then some row.id else none
  | .purged row _ => some row.id
  | .deletePurging id _ _ _ => if task.forgets answer then some id else none
  | .deletePurged id _ _ => some id
  | _ => none

/-- The local backup that the segment begins to upload, if its file is there: the next one of a
pass, or a new backup that was found good. -/
def Memory.begins (m : Memory) (task : Task Archive) (answer : Answer Archive) :
    Option BackupId :=
  let turn : Option BackupId :=
    match task, answer with
    | .cleaningUp, _ => m.rows.listUploadCandidates.head?.map BackupRow.id
    | .settled (.reconcile rest) _, _ => rest.head?.map BackupRow.id
    | .proving id _, .verdict true => if m.settings.uploadToRemote then some id else none
    | _, _ => none
  turn.filter fun id => (m.rows.getRowById id).any BackupRow.localPresent

/-- A row that stays uploaded under the same key. -/
structure BackupRow.Keeps (old row : BackupRow) : Prop where
  id : old.id = row.id
  manifest : old.manifest = row.manifest
  remoteKey : old.remoteKey = row.remoteKey
  uploaded : old.uploadStatus = .uploaded

theorem BackupRow.Keeps.refl {row : BackupRow} (huploaded : row.uploadStatus = .uploaded) :
    row.Keeps row :=
  ⟨rfl, rfl, rfl, huploaded⟩

theorem Task.uploads_eq_true {id : BackupId} {task : Task Archive} :
    task.uploads id = true ↔ ∃ upload, task.upload? = some upload ∧ upload.id = id := by
  rw [Task.uploads, Option.any_eq_true]
  simp

theorem Task.sends_eq_true {key : Key} {task : Task Archive} :
    task.sends key = true ↔ ∃ upload, task.upload? = some upload ∧ upload.key = key := by
  rw [Task.sends, Option.any_eq_true]
  simp

theorem Task.clears_of_upload? {row : BackupRow} {task : Task Archive} {upload : Upload}
    (hupload : task.upload? = some upload) : task.clears row = false := by
  cases task <;> first
    | rfl
    | exact absurd hupload.symm (Option.some_ne_none upload)

theorem Task.upload?_of_forgets {task : Task Archive} {answer : Answer Archive}
    (hforgets : task.forgets answer = true) : task.upload? = none := by
  cases task <;> first
    | rfl
    | exact absurd hforgets Bool.false_ne_true

/-- Whoever deletes the object of a row has still to write the row: it is an upload that failed,
or a thread that clears or forgets the row afterwards. -/
theorem Task.deletes_row {env : Env Archive} {task : Task Archive} {row : BackupRow}
    (hsound : task.Sound env)
    (hcall : task.call env = some (.delete (env.destination.keyForBackup row.id)))
    (hkey : row.remoteKey = some (env.destination.keyForBackup row.id)) :
    task.uploads row.id = true ∨ task.clears row = true ∧ task.forgets .done = true := by
  cases task <;> simp only [Task.call, Option.some.injEq, Call.delete.injEq,
    reduceCtorEq] at hcall
  case discarding pass upload =>
      rw [hsound.key, Destination.keyForBackup_inj] at hcall
      exact Or.inl (Task.uploads_eq_true.mpr ⟨upload, rfl, hcall⟩)
  case pruning scope key rest =>
      subst hcall
      exact Or.inr ⟨decide_eq_true hkey, rfl⟩
  case purging other rest key uploaded =>
      have hid : other.id = row.id :=
        (env.destination.keyForBackup_inj).mp (hsound.1.symm.trans hcall)
      exact Or.inr ⟨decide_eq_true hid, rfl⟩
  case deletePurging id filePath key uploaded =>
      have hid : id = row.id :=
        (env.destination.keyForBackup_inj).mp (hsound.2.1.symm.trans hcall)
      exact Or.inr ⟨decide_eq_true hid, rfl⟩

/-- Only an upload to a key and a deletion of it change the object there. -/
theorem Stores.Landed.object {env : Env Archive} {s after : Stores Archive}
    {call : Call Archive} {outcome : Outcome Archive} {answer : Option (Answer Archive)}
    (hlanded : s.Landed env call outcome after answer) (key : Key) :
    after.object? key = s.object? key ∨ call = .upload key ∨
      call = .delete key ∧ after.object? key = none ∧
        (outcome = .ok ∧ answer = some .done ∨
          outcome = .failed true ∧ answer = some .failed) := by
  cases hlanded with
  | @underway other content lastModified | @stored other content lastModified answered =>
      by_cases heq : key = other
      · exact Or.inr (Or.inl (by rw [heq]))
      · exact Or.inl (by rw [Stores.object?_putObject, if_neg heq])
  | deleted other =>
      by_cases heq : key = other
      · rw [Stores.object?_removeObject, if_pos heq, heq]
        exact Or.inr (Or.inr ⟨rfl, rfl, Or.inl ⟨rfl, rfl⟩⟩)
      · exact Or.inl (by rw [Stores.object?_removeObject, if_neg heq])
  | lost other =>
      by_cases heq : key = other
      · rw [Stores.object?_removeObject, if_pos heq, heq]
        exact Or.inr (Or.inr ⟨rfl, rfl, Or.inr ⟨rfl, rfl⟩⟩)
      · exact Or.inl (by rw [Stores.object?_removeObject, if_neg heq])
  | _ => exact Or.inl rfl

namespace Memory

variable {env : Env Archive} {m : Memory} {next : Memory × Task Archive}
  {task : Task Archive} {answer : Answer Archive}

/-- A row that an upload does not start with is as it was. -/
theorem Goes.mem_row {opens : BackupId → Prop} {worklist : List BackupRow → Prop}
    (hgoes : m.Goes env opens worklist next)
    {row : BackupRow} (hrow : row ∈ next.1.rows) :
    row ∈ m.rows ∨ row.uploadStatus = .uploading ∧ next.2.uploads row.id = true := by
  cases hgoes with
  | @opening pass id found hopens hfound hlocal =>
      rcases BackupTable.mem_setRow.mp hrow with ⟨hold, -⟩ | ⟨old, -, hid, rfl⟩
      · exact Or.inl hold
      · exact Or.inr ⟨rfl, Task.uploads_eq_true.mpr ⟨_, rfl, hid.symm⟩⟩
  | _ => exact Or.inl hrow

theorem Goes.uploaded_row {opens : BackupId → Prop} {worklist : List BackupRow → Prop}
    (hgoes : m.Goes env opens worklist next)
    {row : BackupRow} (hrow : row ∈ next.1.rows) (huploaded : row.uploadStatus = .uploaded) :
    row ∈ m.rows := by
  rcases hgoes.mem_row hrow with hold | ⟨huploading, -⟩
  · exact hold
  · rw [huploaded] at huploading
    exact absurd huploading (by simp)

/-- The row of a key that is pruned is not uploaded any more, so the rows that still say so have
another key. -/
theorem Sound.forgetPruned_row (hsound : m.Sound env) {key : Key} {row : BackupRow}
    (hrow : row ∈ (m.forgetPruned key).rows) (huploaded : row.uploadStatus = .uploaded) :
    row ∈ m.rows ∧ row.remoteKey ≠ some key := by
  have hother : ∀ target ∈ m.rows, target.remoteKey = some key → row ∈ m.rows →
      row.id ≠ target.id → row.remoteKey ≠ some key := by
    intro target htarget hkey hold hne heq
    have hleft := (hsound.rows row hold).remoteKey key heq
    have hright := (hsound.rows target htarget).remoteKey key hkey
    rw [hleft] at hright
    exact hne ((env.destination.keyForBackup_inj).mp hright)
  rcases m.forgetPruned_cases key with ⟨hkept, hnone⟩ |
    ⟨target, htarget, ⟨-, hclear⟩ | ⟨-, hdelete⟩⟩
  · rw [hkept] at hrow
    exact ⟨hrow, RowTable.lookup_eq_none hnone hrow⟩
  · obtain ⟨hmem, hkey⟩ := BackupTable.mem_of_getRowByRemoteKey htarget
    rw [hclear] at hrow
    rcases BackupTable.mem_setRow.mp hrow with ⟨hold, hne⟩ | ⟨old, -, -, rfl⟩
    · exact ⟨hold, hother target hmem hkey hold hne⟩
    · exact absurd huploaded (by simp)
  · obtain ⟨hmem, hkey⟩ := BackupTable.mem_of_getRowByRemoteKey htarget
    rw [hdelete] at hrow
    have hold := BackupTable.mem_delete hrow
    exact ⟨hold, hother target hmem hkey hold (BackupTable.id_ne_of_mem_delete hrow)⟩

/-- Where an uploaded row comes from: it was uploaded before, and the segment neither
forgets it nor ends an upload of it; or an upload or an import ends with it. -/
inductive UploadedRow (env : Env Archive) (m : Memory) (task : Task Archive)
    (answer : Answer Archive) (next : Memory × Task Archive) (row : BackupRow) : Prop
  | kept {old : BackupRow} (hold : old ∈ m.rows) (hkeeps : old.Keeps row)
      (hlocal : row.localPresent = true → old.localPresent = true ∨
        ∃ expected, task = .importVerifying row.id true expected ∧ answer = .verdict true)
      (hforgets : task.forgets answer = true → task.clears old = false)
      (huploads : task.uploads row.id = true → next.2.uploads row.id = true)
  | uploaded {pass : Pass} {upload : Upload} {copy : Archive} {old : BackupRow}
      (htask : task = .checking pass upload copy) (hanswer : answer = .verdict true)
      (hold : old ∈ m.rows) (hid : old.id = upload.id)
      (hrow : row = { old with
        uploadStatus := .uploaded
        uploadDestination := some env.destination.describe
        remoteKey := some upload.key })
  | imported {expected : BackupManifest} (htask : task = .importMeasuring row.id expected)
      (hanswer : answer = .done) (hmanifest : row.manifest = expected)
      (hkey : row.remoteKey = some (env.destination.keyForBackup row.id))
      (hnew : m.rows.getRowById row.id = none)

theorem UploadedRow.unchanged {row : BackupRow} (hrow : row ∈ m.rows)
    (huploaded : row.uploadStatus = .uploaded)
    (hforgets : task.forgets answer = true → task.clears row = false)
    (huploads : task.uploads row.id = true → next.2.uploads row.id = true) :
    UploadedRow env m task answer next row :=
  .kept hrow (.refl huploaded) Or.inl hforgets huploads

/-- An update of another column than the upload's leaves every uploaded row as uploaded as it
was. -/
theorem UploadedRow.of_setRow {row : BackupRow} {id : BackupId}
    {change : BackupRow → BackupRow} (hrow : row ∈ m.rows.setRow id change)
    (huploaded : row.uploadStatus = .uploaded)
    (hchange : ∀ old, (change old).id = old.id ∧ (change old).manifest = old.manifest ∧
      (change old).remoteKey = old.remoteKey ∧ (change old).uploadStatus = old.uploadStatus)
    (hlocal : ∀ old, old.id = id → (change old).localPresent = true →
      old.localPresent = true ∨
        ∃ expected, task = .importVerifying id true expected ∧ answer = .verdict true)
    (hforgets : ∀ old, task.forgets answer = true → task.clears old = false)
    (huploads : task.uploads row.id = true → next.2.uploads row.id = true) :
    UploadedRow env m task answer next row := by
  rcases BackupTable.mem_setRow.mp hrow with ⟨hold, -⟩ | ⟨old, hold, hid, rfl⟩
  · exact .unchanged hold huploaded (hforgets row) huploads
  · obtain ⟨hsame, hmanifest, hkey, hstatus⟩ := hchange old
    refine .kept hold ⟨hsame.symm, hmanifest.symm, hkey.symm, hstatus ▸ huploaded⟩ ?_
      (hforgets old) huploads
    rw [hsame, hid]
    exact hlocal old hid

theorem Resumed.uploaded_row (hsound : m.Sound env) (hresumed : m.Resumed env task answer next)
    {row : BackupRow} (hrow : row ∈ next.1.rows) (huploaded : row.uploadStatus = .uploaded) :
    UploadedRow env m task answer next row := by
  cases hresumed with
  | ended hupload hforgets =>
      refine .unchanged hrow huploaded (fun h => ?_) (fun h => ?_)
      · rw [hforgets] at h
        exact absurd h Bool.false_ne_true
      · rw [Task.uploads, hupload] at h
        exact absurd h Bool.false_ne_true
  | cleanedUp hgoes | settled hgoes | toExpire hgoes | toExpireNext hgoes =>
      exact .unchanged (hgoes.uploaded_row hrow huploaded) huploaded (fun _ => rfl)
        (fun h => absurd h Bool.false_ne_true)
  | proved hfound hgoes =>
      exact .of_setRow (hgoes.uploaded_row hrow huploaded) huploaded
        (fun _ => ⟨rfl, rfl, rfl, rfl⟩) (fun _ _ => Or.inl) (fun _ _ => rfl)
        (fun h => absurd h Bool.false_ne_true)
  | opened _ _ | sent _ _ | fetched _ _ _ =>
      exact .unchanged hrow huploaded (fun _ => rfl) id
  | refused pass hupload _ =>
      refine .unchanged hrow huploaded (fun _ => Task.clears_of_upload? hupload) ?_
      rw [Task.uploads, hupload]
      exact id
  | uploaded pass upload copy =>
      rcases BackupTable.mem_setRow.mp hrow with ⟨hold, hne⟩ | ⟨old, hold, hid, rfl⟩
      · refine .unchanged hold huploaded (fun _ => rfl) (fun h => ?_)
        obtain ⟨other, hother, hid⟩ := Task.uploads_eq_true.mp h
        obtain rfl := Option.some.inj hother
        exact absurd hid.symm hne
      · exact .uploaded rfl rfl hold hid rfl
  | uploadFailed pass upload answer =>
      rcases BackupTable.mem_setRow.mp hrow with ⟨hold, hne⟩ | ⟨old, hold, hid, rfl⟩
      · refine .unchanged hold huploaded (fun _ => rfl) (fun h => ?_)
        obtain ⟨other, hother, hid⟩ := Task.uploads_eq_true.mp h
        obtain rfl := Option.some.inj hother
        exact absurd hid.symm hne
      · exact absurd huploaded (by simp)
  | pruned scope key rest =>
      obtain ⟨hold, hne⟩ := hsound.forgetPruned_row hrow huploaded
      exact .unchanged hold huploaded (fun _ => decide_eq_false hne)
        (fun h => absurd h Bool.false_ne_true)
  | reclaimed scope target rest answer =>
      rcases BackupTable.mem_setRow.mp hrow with ⟨hold, hne⟩ | ⟨old, hold, hid, rfl⟩
      · exact .unchanged hold huploaded (fun _ => rfl) (fun h => absurd h Bool.false_ne_true)
      · exact .kept hold ⟨rfl, rfl, rfl, huploaded⟩ (fun h => absurd h Bool.false_ne_true)
          (fun _ => rfl) (fun h => absurd h Bool.false_ne_true)
  | @expired task answer target rest hof =>
      have hne := BackupTable.id_ne_of_mem_delete hrow
      rcases hof with rfl | ⟨key, uploaded, rfl, -⟩
      · exact .unchanged (BackupTable.mem_delete hrow) huploaded (fun _ => rfl)
          (fun h => absurd h Bool.false_ne_true)
      · exact .unchanged (BackupTable.mem_delete hrow) huploaded
          (fun _ => decide_eq_false hne.symm) (fun h => absurd h Bool.false_ne_true)
  | importToVerify expected hof =>
      rcases hof with ⟨rfl, -⟩ | ⟨rfl, -⟩ <;>
        exact .unchanged hrow huploaded (fun _ => rfl) (fun h => absurd h Bool.false_ne_true)
  | importRestored id expected =>
      exact .of_setRow hrow huploaded (fun _ => ⟨rfl, rfl, rfl, rfl⟩)
        (fun _ _ _ => Or.inr ⟨expected, rfl, rfl⟩) (fun _ _ => rfl)
        (fun h => absurd h Bool.false_ne_true)
  | @importRegistered id expected rows hinsert =>
      obtain ⟨hnone, rfl⟩ := BackupTable.insert_eq_some hinsert
      rcases BackupTable.mem_setRow.mp hrow with ⟨hold, hne⟩ | ⟨old, hold, hid, rfl⟩
      · rcases List.mem_append.mp hold with hold | hnew
        · exact .unchanged hold huploaded (fun _ => rfl) (fun h => absurd h Bool.false_ne_true)
        · rw [List.mem_singleton.mp hnew] at hne
          exact absurd rfl hne
      · rcases List.mem_append.mp hold with hold | hnew
        · exact absurd hid (RowTable.lookup_eq_none hnone hold)
        · obtain rfl := List.mem_singleton.mp hnew
          exact .imported rfl rfl rfl rfl hnone
  | importDiscarded hof =>
      rcases hof with ⟨existing, rfl⟩ | ⟨existing, expected, rfl⟩ | ⟨expected, rfl⟩ <;>
        exact .unchanged hrow huploaded (fun _ => rfl) (fun h => absurd h Bool.false_ne_true)
  | @deletePurged id filePath outcome task answer hof =>
      have hne := BackupTable.id_ne_of_mem_delete hrow
      rcases hof with rfl | ⟨key, uploaded, rfl, -⟩
      · exact .unchanged (BackupTable.mem_delete hrow) huploaded (fun _ => rfl)
          (fun h => absurd h Bool.false_ne_true)
      · exact .unchanged (BackupTable.mem_delete hrow) huploaded
          (fun _ => decide_eq_false hne.symm) (fun h => absurd h Bool.false_ne_true)
  | @archived id cold manifest rows hinsert =>
      obtain ⟨-, rfl⟩ := BackupTable.insert_eq_some hinsert
      rcases List.mem_append.mp hrow with hold | hnew
      · exact .unchanged hold huploaded (fun _ => rfl) (fun h => absurd h Bool.false_ne_true)
      · rw [List.mem_singleton.mp hnew] at huploaded
        exact absurd huploaded (by simp [InsertBackupParams.row])
  | disproved id manifest =>
      exact .of_setRow hrow huploaded (fun _ => ⟨rfl, rfl, rfl, rfl⟩) (fun _ _ => Or.inl)
        (fun _ _ => rfl) (fun h => absurd h Bool.false_ne_true)
  | verified id filePath manifest ok =>
      rw [Memory.verified] at hrow
      cases ok <;> exact .of_setRow hrow huploaded (fun _ => ⟨rfl, rfl, rfl, rfl⟩)
        (fun _ _ => Or.inl) (fun _ _ => rfl) (fun h => absurd h Bool.false_ne_true)
  | _ => exact .unchanged hrow huploaded (fun _ => rfl) (fun h => absurd h Bool.false_ne_true)

theorem uploading_of_setRow {row : BackupRow} {id : BackupId}
    {change : BackupRow → BackupRow} (hrow : row ∈ m.rows.setRow id change)
    (huploading : row.uploadStatus = .uploading)
    (hchange : ∀ old, (change old).id = old.id ∧
      ((change old).uploadStatus = .uploading → old.uploadStatus = .uploading)) :
    ∃ old ∈ m.rows, old.id = row.id ∧ old.uploadStatus = .uploading := by
  rcases BackupTable.mem_setRow.mp hrow with ⟨hold, -⟩ | ⟨old, hold, -, rfl⟩
  · exact ⟨row, hold, rfl, huploading⟩
  · exact ⟨old, hold, (hchange old).1.symm, (hchange old).2 huploading⟩

/-- A row that is uploading was so before, or an upload starts; an upload that ends leaves
its row in another state. -/
theorem Resumed.uploading_row (hresumed : m.Resumed env task answer next) {row : BackupRow}
    (hrow : row ∈ next.1.rows) (huploading : row.uploadStatus = .uploading) :
    next.2.uploads row.id = true ∨ task.uploads row.id = false ∧
      ∃ old ∈ m.rows, old.id = row.id ∧ old.uploadStatus = .uploading := by
  cases hresumed with
  | ended hupload _ =>
      exact Or.inr ⟨by rw [Task.uploads, hupload]; rfl, row, hrow, rfl, huploading⟩
  | cleanedUp hgoes | settled hgoes | toExpire hgoes | toExpireNext hgoes =>
      rcases hgoes.mem_row hrow with hold | ⟨-, huploads⟩
      · exact Or.inr ⟨rfl, row, hold, rfl, huploading⟩
      · exact Or.inl huploads
  | proved _ hgoes =>
      rcases hgoes.mem_row hrow with hold | ⟨-, huploads⟩
      · exact Or.inr ⟨rfl, uploading_of_setRow hold huploading fun _ => ⟨rfl, id⟩⟩
      · exact Or.inl huploads
  | opened pass upload | sent pass upload | fetched pass upload copy =>
      by_cases hid : upload.id = row.id
      · exact Or.inl (Task.uploads_eq_true.mpr ⟨upload, rfl, hid⟩)
      · exact Or.inr ⟨decide_eq_false hid, row, hrow, rfl, huploading⟩
  | @refused task answer pass upload hupload _ =>
      by_cases hid : upload.id = row.id
      · exact Or.inl (Task.uploads_eq_true.mpr ⟨upload, rfl, hid⟩)
      · refine Or.inr ⟨?_, row, hrow, rfl, huploading⟩
        rw [Task.uploads, hupload]
        exact decide_eq_false hid
  | uploaded pass upload copy =>
      rcases BackupTable.mem_setRow.mp hrow with ⟨hold, hne⟩ | ⟨old, -, -, rfl⟩
      · exact Or.inr ⟨decide_eq_false hne.symm, row, hold, rfl, huploading⟩
      · exact absurd huploading (by simp)
  | uploadFailed pass upload answer =>
      rcases BackupTable.mem_setRow.mp hrow with ⟨hold, hne⟩ | ⟨old, -, -, rfl⟩
      · exact Or.inr ⟨decide_eq_false hne.symm, row, hold, rfl, huploading⟩
      · exact absurd huploading (by simp)
  | pruned scope key rest =>
      refine Or.inr ⟨rfl, ?_⟩
      rcases m.forgetPruned_cases key with ⟨hkept, -⟩ | ⟨target, -, ⟨-, hclear⟩ | ⟨-, hdelete⟩⟩
      · rw [hkept] at hrow
        exact ⟨row, hrow, rfl, huploading⟩
      · rw [hclear] at hrow
        exact uploading_of_setRow hrow huploading fun _ => ⟨rfl, fun h => absurd h (by simp)⟩
      · rw [hdelete] at hrow
        exact ⟨row, BackupTable.mem_delete hrow, rfl, huploading⟩
  | reclaimed _ _ _ _ | importRestored _ _ | disproved _ _ =>
      exact Or.inr ⟨rfl, uploading_of_setRow hrow huploading fun _ => ⟨rfl, id⟩⟩
  | expired hof =>
      rcases hof with rfl | ⟨key, uploaded, rfl, -⟩ <;>
        exact Or.inr ⟨rfl, row, BackupTable.mem_delete hrow, rfl, huploading⟩
  | importToVerify expected hof =>
      rcases hof with ⟨rfl, -⟩ | ⟨rfl, -⟩ <;>
        exact Or.inr ⟨rfl, row, hrow, rfl, huploading⟩
  | @importRegistered id expected rows hinsert =>
      obtain ⟨-, rfl⟩ := BackupTable.insert_eq_some hinsert
      rcases BackupTable.mem_setRow.mp hrow with ⟨hold, hne⟩ | ⟨old, -, -, rfl⟩
      · rcases List.mem_append.mp hold with hold | hnew
        · exact Or.inr ⟨rfl, row, hold, rfl, huploading⟩
        · rw [List.mem_singleton.mp hnew] at hne
          exact absurd rfl hne
      · exact absurd huploading (by simp)
  | importDiscarded hof =>
      rcases hof with ⟨existing, rfl⟩ | ⟨existing, expected, rfl⟩ | ⟨expected, rfl⟩ <;>
        exact Or.inr ⟨rfl, row, hrow, rfl, huploading⟩
  | deletePurged hof =>
      rcases hof with rfl | ⟨key, uploaded, rfl, -⟩ <;>
        exact Or.inr ⟨rfl, row, BackupTable.mem_delete hrow, rfl, huploading⟩
  | archived hinsert =>
      obtain ⟨-, rfl⟩ := BackupTable.insert_eq_some hinsert
      rcases List.mem_append.mp hrow with hold | hnew
      · exact Or.inr ⟨rfl, row, hold, rfl, huploading⟩
      · rw [List.mem_singleton.mp hnew] at huploading
        exact absurd huploading (by simp [InsertBackupParams.row])
  | verified id filePath manifest ok =>
      rw [Memory.verified] at hrow
      cases ok <;>
        exact Or.inr ⟨rfl, uploading_of_setRow hrow huploading fun _ => ⟨rfl, fun h => h⟩⟩
  | _ => exact Or.inr ⟨rfl, row, hrow, rfl, huploading⟩

theorem Started.mem_row {job : Job} (hstarted : m.Started env job next) {row : BackupRow}
    (hrow : row ∈ next.1.rows) :
    row ∈ m.rows ∨ row.uploadStatus = .uploading ∧ next.2.uploads row.id = true := by
  cases hstarted with
  | uploading hgoes => exact hgoes.mem_row hrow
  | _ => exact Or.inl hrow

/-- An upload goes on, or ends with a verified copy or after its clean-up. -/
theorem Resumed.ends_upload (hresumed : m.Resumed env task answer next) {upload : Upload}
    (hupload : task.upload? = some upload) :
    next.2.upload? = some upload ∨
      (∃ pass copy, task = .checking pass upload copy ∧ answer = .verdict true ∧
        next.1 = (m.uploaded env pass upload : Memory × Task Archive).1) ∨
      ∃ pass, task = .discarding pass upload := by
  cases hresumed with
  | ended hnone _ =>
      rw [hnone] at hupload
      exact absurd hupload.symm (Option.some_ne_none upload)
  | opened _ _ | sent _ _ | fetched _ _ _ => exact Or.inl hupload
  | refused pass hof _ =>
      rw [hof] at hupload
      exact Or.inl hupload
  | uploaded pass other copy =>
      obtain rfl := Option.some.inj hupload
      exact Or.inr (Or.inl ⟨pass, copy, rfl, rfl, rfl⟩)
  | uploadFailed pass other answer =>
      obtain rfl := Option.some.inj hupload
      exact Or.inr (Or.inr ⟨pass, rfl⟩)
  | expired hof =>
      rcases hof with rfl | ⟨key, uploaded, rfl, -⟩ <;>
        exact absurd hupload.symm (Option.some_ne_none upload)
  | importToVerify expected hof =>
      rcases hof with ⟨rfl, -⟩ | ⟨rfl, -⟩ <;>
        exact absurd hupload.symm (Option.some_ne_none upload)
  | importDiscarded hof =>
      rcases hof with ⟨existing, rfl⟩ | ⟨existing, expected, rfl⟩ | ⟨expected, rfl⟩ <;>
        exact absurd hupload.symm (Option.some_ne_none upload)
  | deletePurged hof =>
      rcases hof with rfl | ⟨key, uploaded, rfl, -⟩ <;>
        exact absurd hupload.symm (Option.some_ne_none upload)
  | _ => exact absurd hupload.symm (Option.some_ne_none upload)

theorem exists_setRow {row : BackupRow} {id : BackupId} {change : BackupRow → BackupRow}
    (hrow : row ∈ m.rows) (huploaded : row.uploadStatus = .uploaded)
    (hchange : row.Keeps (change row) ∧ (change row).uploadStatus = row.uploadStatus) :
    ∃ after ∈ m.rows.setRow id change, row.Keeps after ∧ after.uploadStatus = .uploaded := by
  by_cases hid : row.id = id
  · exact ⟨change row, BackupTable.mem_setRow.mpr (Or.inr ⟨row, hrow, hid, rfl⟩), hchange.1,
      hchange.2.trans huploaded⟩
  · exact ⟨row, BackupTable.mem_setRow.mpr (Or.inl ⟨hrow, hid⟩), .refl huploaded, huploaded⟩

theorem exists_other {row : BackupRow} {id : BackupId} {change : BackupRow → BackupRow}
    (hrow : row ∈ m.rows) (huploaded : row.uploadStatus = .uploaded) (hid : row.id ≠ id) :
    ∃ after ∈ m.rows.setRow id change, row.Keeps after ∧ after.uploadStatus = .uploaded :=
  ⟨row, BackupTable.mem_setRow.mpr (Or.inl ⟨hrow, hid⟩), .refl huploaded, huploaded⟩

theorem mem_delete_of_ne {row : BackupRow} {id : BackupId} (hrow : row ∈ m.rows)
    (hid : row.id ≠ id) : row ∈ m.rows.delete id :=
  List.mem_filter.mpr ⟨hrow, by simpa using hid⟩

theorem Goes.keeps_uploaded {opens : BackupId → Prop} {worklist : List BackupRow → Prop}
    (hgoes : m.Goes env opens worklist next) {row : BackupRow} (hrow : row ∈ m.rows)
    (huploaded : row.uploadStatus = .uploaded) :
    (∃ after ∈ next.1.rows, row.Keeps after ∧ after.uploadStatus = .uploaded) ∨
      next.2.uploads row.id = true := by
  cases hgoes with
  | @opening pass id found hopens hfound hlocal =>
      by_cases hid : row.id = id
      · exact Or.inr (Task.uploads_eq_true.mpr ⟨_, rfl, hid.symm⟩)
      · exact Or.inl (exists_other hrow huploaded hid)
  | _ => exact Or.inl ⟨row, hrow, .refl huploaded, huploaded⟩

/-- What becomes of an uploaded row: it stays one, or an upload of it is under way, or
the clean-up of one ends, or its object was pruned, or it is dropped. -/
theorem Resumed.keeps_uploaded (hsound : m.Sound env) (htask : task.Sound env)
    (hresumed : m.Resumed env task answer next) {row : BackupRow} (hrow : row ∈ m.rows)
    (huploaded : row.uploadStatus = .uploaded) :
    (∃ after ∈ next.1.rows, row.Keeps after ∧ after.uploadStatus = .uploaded) ∨
      next.2.uploads row.id = true ∨
      (∃ pass upload, task = .discarding pass upload ∧ upload.id = row.id) ∨
      (∃ scope key rest, task = .pruning scope key rest ∧ answer = .done ∧
        row.remoteKey = some key) ∨
      task.drops answer = some row.id := by
  have hsame : m.rows = next.1.rows →
      ∃ after ∈ next.1.rows, row.Keeps after ∧ after.uploadStatus = .uploaded :=
    fun hrows => ⟨row, hrows ▸ hrow, .refl huploaded, huploaded⟩
  cases hresumed with
  | cleanedUp hgoes | settled hgoes | toExpire hgoes | toExpireNext hgoes =>
      rcases hgoes.keeps_uploaded hrow huploaded with hkept | huploads
      · exact Or.inl hkept
      · exact Or.inr (Or.inl huploads)
  | @proved id manifest found next hfound hgoes =>
      obtain ⟨middle, hmiddle, hkeeps, hstatus⟩ :
          ∃ after ∈ m.rows.markVerified id, row.Keeps after ∧ after.uploadStatus = .uploaded :=
        exists_setRow hrow huploaded ⟨⟨rfl, rfl, rfl, huploaded⟩, rfl⟩
      rcases hgoes.keeps_uploaded hmiddle hstatus with ⟨after, hafter, hlater, huploaded⟩ |
        huploads
      · refine Or.inl ⟨after, hafter, ?_, huploaded⟩
        exact ⟨hkeeps.id.trans hlater.id, hkeeps.manifest.trans hlater.manifest,
          hkeeps.remoteKey.trans hlater.remoteKey, hkeeps.uploaded⟩
      · rw [← hkeeps.id] at huploads
        exact Or.inr (Or.inl huploads)
  | uploaded pass upload copy =>
      left
      by_cases hid : row.id = upload.id
      · refine ⟨_, BackupTable.mem_setRow.mpr (Or.inr ⟨row, hrow, hid, rfl⟩), ?_, rfl⟩
        obtain ⟨hkey, -⟩ := (hsound.rows row hrow).uploaded huploaded
        exact ⟨rfl, rfl, by rw [hkey, htask.key, hid], huploaded⟩
      · exact exists_other hrow huploaded hid
  | uploadFailed pass upload answer =>
      by_cases hid : row.id = upload.id
      · exact Or.inr (Or.inr (Or.inl ⟨pass, upload, rfl, hid.symm⟩))
      · exact Or.inl (exists_other hrow huploaded hid)
  | pruned scope key rest =>
      by_cases hkey : row.remoteKey = some key
      · exact Or.inr (Or.inr (Or.inr (Or.inl ⟨scope, key, rest, rfl, rfl, hkey⟩)))
      · left
        have hother : ∀ target, m.rows.getRowByRemoteKey key = some target →
            row.id ≠ target.id := by
          intro target htarget hid
          obtain ⟨hmem, htargetKey⟩ := BackupTable.mem_of_getRowByRemoteKey htarget
          have hfirst := BackupTable.getRowById_of_mem hsound.nodup hrow
          have hsecond := BackupTable.getRowById_of_mem hsound.nodup hmem
          rw [hid, hsecond, Option.some.injEq] at hfirst
          exact hkey (hfirst ▸ htargetKey)
        rcases m.forgetPruned_cases key with ⟨hkept, -⟩ |
          ⟨target, htarget, ⟨-, hclear⟩ | ⟨-, hdelete⟩⟩
        · rw [hkept]
          exact ⟨row, hrow, .refl huploaded, huploaded⟩
        · rw [hclear]
          exact exists_other hrow huploaded (hother target htarget)
        · rw [hdelete]
          exact ⟨row, mem_delete_of_ne hrow (hother target htarget), .refl huploaded, huploaded⟩
  | reclaimed _ _ _ _ | importRestored _ _ | disproved _ _ =>
      exact Or.inl (exists_setRow hrow huploaded ⟨⟨rfl, rfl, rfl, huploaded⟩, rfl⟩)
  | verified id filePath manifest ok =>
      left
      cases ok <;> exact exists_setRow hrow huploaded ⟨⟨rfl, rfl, rfl, huploaded⟩, rfl⟩
  | @importRegistered id expected rows hinsert =>
      obtain ⟨hnone, rfl⟩ := BackupTable.insert_eq_some hinsert
      have hid : row.id ≠ id := RowTable.lookup_eq_none hnone hrow
      refine Or.inl ⟨row, ?_, .refl huploaded, huploaded⟩
      exact BackupTable.mem_setRow.mpr (Or.inl ⟨List.mem_append_left _ hrow, hid⟩)
  | archived hinsert =>
      obtain ⟨-, rfl⟩ := BackupTable.insert_eq_some hinsert
      exact Or.inl ⟨row, List.mem_append_left _ hrow, .refl huploaded, huploaded⟩
  | @expired task answer target rest hof =>
      by_cases hid : row.id = target.id
      · refine Or.inr (Or.inr (Or.inr (Or.inr ?_)))
        rcases hof with rfl | ⟨key, uploaded, rfl, hanswer⟩
        · exact congrArg some hid.symm
        · have hforgets : (Task.purging target rest key uploaded : Task Archive).forgets answer =
              true := by
            rcases hanswer with rfl | rfl
            · rfl
            · exact Bool.or_true _
          rw [Task.drops, if_pos hforgets, hid]
      · exact Or.inl ⟨row, mem_delete_of_ne hrow hid, .refl huploaded, huploaded⟩
  | @deletePurged id filePath outcome task answer hof =>
      by_cases hid : row.id = id
      · refine Or.inr (Or.inr (Or.inr (Or.inr ?_)))
        rcases hof with rfl | ⟨key, uploaded, rfl, hanswer⟩
        · exact congrArg some hid.symm
        · have hforgets : (Task.deletePurging id filePath key uploaded : Task Archive).forgets
              answer = true := by
            rcases hanswer with ⟨rfl, -⟩ | ⟨-, rfl, -⟩
            · rfl
            · exact Bool.or_true _
          rw [Task.drops, if_pos hforgets, hid]
      · exact Or.inl ⟨row, mem_delete_of_ne hrow hid, .refl huploaded, huploaded⟩
  | _ => exact Or.inl (hsame rfl)

/-- Whoever uploads after a segment did so before, or begins. -/
theorem Goes.begins {opens : BackupId → Prop} {worklist : List BackupRow → Prop}
    (hgoes : m.Goes env opens worklist next) {upload : Upload}
    (hupload : next.2.upload? = some upload) :
    opens upload.id ∧ upload.key = env.destination.keyForBackup upload.id ∧
      (m.rows.getRowById upload.id).any BackupRow.localPresent = true := by
  cases hgoes with
  | opening pass hopens hrow hlocal =>
      obtain rfl := Option.some.inj hupload
      exact ⟨hopens, rfl, by rw [hrow]; exact hlocal⟩
  | _ => exact absurd hupload.symm (Option.some_ne_none upload)

theorem Resumed.begins (hresumed : m.Resumed env task answer next) {upload : Upload}
    (hupload : next.2.upload? = some upload) :
    task.upload? = some upload ∨ m.begins task answer = some upload.id ∧
      upload.key = env.destination.keyForBackup upload.id := by
  cases hresumed with
  | cleanedUp hgoes =>
      obtain ⟨hopens, hkey, hlocal⟩ := hgoes.begins hupload
      exact Or.inr ⟨by rw [Memory.begins, hopens, Option.filter_some, if_pos hlocal], hkey⟩
  | settled hgoes =>
      obtain ⟨⟨rest, rfl, hopens⟩, hkey, hlocal⟩ := hgoes.begins hupload
      exact Or.inr ⟨by rw [Memory.begins, hopens, Option.filter_some, if_pos hlocal], hkey⟩
  | toExpire hgoes | toExpireNext hgoes => exact (hgoes.begins hupload).1.elim
  | @proved id manifest found next hfound hgoes =>
      obtain ⟨⟨hremote, hid⟩, hkey, -⟩ := hgoes.begins hupload
      cases hgoes with
      | opening pass hopens hrow hlocal =>
          obtain rfl := Option.some.inj hupload
          subst hid
          rw [BackupTable.markVerified, BackupTable.getRowById_setRow (by intro row; rfl),
            if_pos rfl, hfound, Option.map_some, Option.some.injEq] at hrow
          have hfoundLocal : found.localPresent = true := by
            rw [← hrow] at hlocal
            exact hlocal
          exact Or.inr ⟨by simp [Memory.begins, hremote, hfound, hfoundLocal], hkey⟩
      | _ => exact absurd hupload.symm (Option.some_ne_none upload)
  | opened _ _ | sent _ _ | fetched _ _ _ => exact Or.inl hupload
  | refused pass hof _ =>
      obtain rfl := Option.some.inj hupload
      exact Or.inl hof
  | selected scope backups =>
      cases hkeys : m.selectPruned backups <;> rw [hkeys] at hupload <;>
        exact absurd hupload.symm (Option.some_ne_none upload)
  | pruned scope key rest =>
      cases rest <;> exact absurd hupload.symm (Option.some_ne_none upload)
  | toReclaim scope answer =>
      cases hrows : m.reclaimable <;> rw [hrows] at hupload <;>
        exact absurd hupload.symm (Option.some_ne_none upload)
  | reclaimed scope row rest answer =>
      cases rest <;> exact absurd hupload.symm (Option.some_ne_none upload)
  | @archived id cold manifest rows hinsert =>
      cases cold <;> exact absurd hupload.symm (Option.some_ne_none upload)
  | _ => exact absurd hupload.symm (Option.some_ne_none upload)

end Memory

/-- The local backup that a step begins to upload, as a job of the queue or as the next one of a
running pass. -/
def Panel.begins (p : Panel Archive) : Label Archive → Option BackupId
  | .pump =>
      match p.busy, p.memory.queue with
      | false, .upload id :: _ =>
          if (p.memory.rows.getRowById id).any BackupRow.localPresent then some id else none
      | _, _ => none
  | .resume index =>
      match p.threads[index]? with
      | some ⟨_, task, some answer⟩ => p.memory.begins task answer
      | _ => none
  | _ => none

theorem Panel.Begun.begins {env : Env Archive} {p : Panel Archive} {label : Label Archive}
    {origin : Origin} {next : Memory × Task Archive} (hbegun : p.Begun env label origin next)
    {upload : Upload} (hupload : next.2.upload? = some upload) :
    p.begins label = some upload.id ∧
      upload.key = env.destination.keyForBackup upload.id := by
  cases hbegun with
  | job hfree hqueue hstarted =>
      cases hstarted with
      | uploading hgoes =>
          obtain ⟨rfl, hkey, hlocal⟩ := hgoes.begins hupload
          exact ⟨by simp only [Panel.begins, hfree, hqueue, if_pos hlocal], hkey⟩
      | _ => exact absurd hupload.symm (Option.some_ne_none upload)
  | sweep _ _ hnext =>
      rcases hnext with rfl | rfl | ⟨-, hgoes⟩
      · exact absurd hupload.symm (Option.some_ne_none upload)
      · exact absurd hupload.symm (Option.some_ne_none upload)
      · exact (hgoes.begins hupload).1.elim
  | _ => exact absurd hupload.symm (Option.some_ne_none upload)

theorem Panel.Begun.keeps_uploaded {env : Env Archive} {p : Panel Archive}
    {label : Label Archive} {origin : Origin} {next : Memory × Task Archive}
    (hbegun : p.Begun env label origin next) {row : BackupRow} (hrow : row ∈ p.memory.rows)
    (huploaded : row.uploadStatus = .uploaded) :
    (∃ after ∈ next.1.rows, row.Keeps after ∧ after.uploadStatus = .uploaded) ∨
      next.2.uploads row.id = true := by
  cases hbegun with
  | job _ _ hstarted =>
      cases hstarted with
      | uploading hgoes => exact hgoes.keeps_uploaded hrow huploaded
      | _ => exact Or.inl ⟨row, hrow, .refl huploaded, huploaded⟩
  | sweep _ _ hnext =>
      rcases hnext with rfl | rfl | ⟨-, hgoes⟩
      · exact Or.inl ⟨row, hrow, .refl huploaded, huploaded⟩
      · exact Or.inl ⟨row, hrow, .refl huploaded, huploaded⟩
      · exact hgoes.keeps_uploaded hrow huploaded
  | _ => exact Or.inl ⟨row, hrow, .refl huploaded, huploaded⟩

theorem Panel.Begun.mem_row {env : Env Archive} {p : Panel Archive} {label : Label Archive}
    {origin : Origin} {next : Memory × Task Archive} (hbegun : p.Begun env label origin next)
    {row : BackupRow} (hrow : row ∈ next.1.rows) :
    row ∈ p.memory.rows ∨ row.uploadStatus = .uploading ∧ next.2.uploads row.id = true := by
  cases hbegun with
  | job _ _ hstarted => exact hstarted.mem_row hrow
  | sweep _ _ hnext =>
      rcases hnext with rfl | rfl | ⟨-, hgoes⟩
      · exact Or.inl hrow
      · exact Or.inl hrow
      · exact hgoes.mem_row hrow
  | _ => exact Or.inl hrow

section Copied

variable {env : Env Archive} {s after : Stores Archive} {row : BackupRow}

theorem BackupRow.copied_of_key {key : Key} (hkey : row.remoteKey = some key) :
    row.copied env s = s.holds env key row.manifest := by
  rw [BackupRow.copied, hkey]
  rfl

theorem BackupRow.copied_of_object {key : Key} (hkey : row.remoteKey = some key)
    (hobject : after.object? key = s.object? key) :
    row.copied env after = row.copied env s := by
  rw [copied_of_key hkey, copied_of_key hkey, Stores.holds, Stores.holds, hobject]

theorem BackupRow.Keeps.copied {old : BackupRow} (hkeeps : old.Keeps row) :
    row.copied env s = old.copied env s := by
  rw [BackupRow.copied, BackupRow.copied, hkeeps.remoteKey, hkeeps.manifest]

end Copied

/-- A thread with some property stays, or the one that is replaced hands it on. -/
theorem exists_mem_set {Item : Type} {property : Item → Prop} {items : List Item}
    {index : Nat} {old new : Item} (hold : items[index]? = some old)
    (hnew : property old → property new) (h : ∃ item ∈ items, property item) :
    ∃ item ∈ items.set index new, property item := by
  obtain ⟨item, hitem, hproperty⟩ := h
  obtain ⟨place, hplace⟩ := List.mem_iff_getElem?.mp hitem
  by_cases heq : index = place
  · subst heq
    obtain rfl := Option.some.inj (hold.symm.trans hplace)
    obtain ⟨hlength, -⟩ := List.getElem?_eq_some_iff.mp hold
    exact ⟨new, List.mem_set hlength new, hnew hproperty⟩
  · refine ⟨item, List.mem_iff_getElem?.mpr ⟨place, ?_⟩, hproperty⟩
    rw [List.getElem?_set_ne heq]
    exact hplace

end Backups

end MailPanel

import MailPanel.BackupSteps

/-
What holds in every reachable state, whatever happens: rows and tasks name their
archive and their object by the id of the backup, and rows have one id each.
-/

namespace MailPanel

namespace Backups

variable {Archive : Type}

/-- The columns of a row agree with its id and with each other: the path and the remote key are
computed from the id, and an uploaded row names both the key and the destination of its copy. -/
structure BackupRow.Sound (env : Env Archive) (row : BackupRow) : Prop where
  slashFree : SlashFree row.id
  filePath : row.filePath = archivePath row.id
  remoteKey : ∀ key, row.remoteKey = some key → key = env.destination.keyForBackup row.id
  uploaded : row.uploadStatus = .uploaded →
    row.remoteKey = some (env.destination.keyForBackup row.id) ∧
      row.uploadDestination = some env.destination.describe

structure Upload.Sound (env : Env Archive) (upload : Upload) : Prop where
  slashFree : SlashFree upload.id
  key : upload.key = env.destination.keyForBackup upload.id
  filePath : upload.filePath = archivePath upload.id

def Job.Sound : Job → Prop
  | .create id _ => SlashFree id
  | .verify id filePath _ => filePath = archivePath id
  | .upload _ => True
  | .reconcile => True
  | .importRemote id => SlashFree id
  | .restore id filePath => filePath = archivePath id

/-- What a task holds agrees with the id that it is for: paths and keys are those that the id
has, so a task that was started long ago still acts on its own backup. -/
def Task.Sound (env : Env Archive) : Task Archive → Prop
  | .opening _ upload => upload.Sound env
  | .sending _ upload => upload.Sound env
  | .fetching _ upload => upload.Sound env
  | .checking _ upload _ => upload.Sound env
  | .discarding _ upload => upload.Sound env
  | .reclaiming _ row rest => ∀ other ∈ row :: rest, other.filePath = archivePath other.id
  | .purging row rest key _ => key = env.destination.keyForBackup row.id ∧ SlashFree row.id ∧
      ∀ other ∈ row :: rest, other.filePath = archivePath other.id
  | .purged row rest => ∀ other ∈ row :: rest, other.filePath = archivePath other.id
  | .unlinking row rest => ∀ other ∈ row :: rest, other.filePath = archivePath other.id
  | .importListing id _ => SlashFree id
  | .importDownloading id _ => SlashFree id
  | .importReading id _ => SlashFree id
  | .importVerifying id _ _ => SlashFree id
  | .importMeasuring id _ => SlashFree id
  | .deletePurging id filePath key _ => filePath = archivePath id ∧
      key = env.destination.keyForBackup id ∧ SlashFree id
  | .deletePurged id filePath outcome => filePath = archivePath id ∧ outcome ≠ .deleted
  | .deleteUnlinking id filePath _ => filePath = archivePath id
  | .archiving id _ => SlashFree id
  | .verifying id filePath _ => filePath = archivePath id
  | .inspecting id filePath => filePath = archivePath id
  | .extracting id filePath => filePath = archivePath id
  | .restoring id filePath => filePath = archivePath id
  | _ => True

structure Memory.Sound (env : Env Archive) (m : Memory) : Prop where
  nodup : (m.rows.map BackupRow.id).Nodup
  rows : ∀ row ∈ m.rows, row.Sound env
  queue : ∀ job ∈ m.queue, job.Sound

structure Panel.Sound (env : Env Archive) (p : Panel Archive) : Prop where
  memory : p.memory.Sound env
  threads : ∀ thread ∈ p.threads, thread.task.Sound env

/-- Without a call to the remote nothing is reported as deleted. -/
theorem Memory.ne_deleted_of_returns {env : Env Archive} {m : Memory} {id : BackupId}
    {outcome : RemotePurgeOutcome} (hpurge : m.purgeRemoteCopy env id = .returns outcome) :
    outcome ≠ .deleted := by
  rintro rfl
  rw [Memory.purgeRemoteCopy] at hpurge
  cases hrow : m.rows.getRowById id with
  | none => simp [hrow] at hpurge
  | some row =>
      by_cases hconfigured : m.settings.configured = true
      · simp only [hrow, Memory.destinationProvider, hconfigured, if_true] at hpurge
        split at hpurge <;> simp at hpurge
      · by_cases huploaded : row.uploadStatus = .uploaded
        · simp [hrow, Memory.destinationProvider, hconfigured, huploaded] at hpurge
        · simp [hrow, Memory.destinationProvider, hconfigured, huploaded] at hpurge

theorem Task.upload_sound {env : Env Archive} {task : Task Archive} {upload : Upload}
    (hsound : task.Sound env) (hupload : task.upload? = some upload) : upload.Sound env := by
  cases task <;> simp only [upload?, Option.some.injEq, reduceCtorEq] at hupload <;>
    exact hupload ▸ hsound

theorem Task.sending_of_call {env : Env Archive} {task : Task Archive} {key : Key}
    (hcall : task.call env = some (.upload key)) :
    ∃ pass upload, task = .sending pass upload ∧ upload.key = key := by
  cases task <;> simp only [Task.call, Option.some.injEq, Call.upload.injEq,
    reduceCtorEq] at hcall
  case sending pass upload => exact ⟨pass, upload, rfl, hcall⟩

namespace Memory.Sound

variable {env : Env Archive} {m : Memory}

/-- An update of one row that keeps its names and does not make it uploaded. -/
theorem setRow (hsound : m.Sound env) (id : BackupId) {change : BackupRow → BackupRow}
    (hid : ∀ row, (change row).id = row.id)
    (hchange : ∀ row, row.id = id → row.Sound env → (change row).Sound env) :
    { m with rows := m.rows.setRow id change }.Sound env where
  nodup := by
    rw [BackupTable.map_id_setRow hid]
    exact hsound.nodup
  rows := BackupTable.forall_setRow hsound.rows fun row _ hrow h => hchange row hrow h
  queue := hsound.queue

theorem markUploading (hsound : m.Sound env) (id : BackupId) :
    { m with rows := m.rows.markUploading id }.Sound env := by
  apply hsound.setRow id (by intro row; rfl)
  intro row _ h
  exact ⟨h.slashFree, h.filePath, h.remoteKey, by simp⟩

theorem markUploadFailed (hsound : m.Sound env) (id : BackupId) :
    { m with rows := m.rows.markUploadFailed id }.Sound env := by
  apply hsound.setRow id (by intro row; rfl)
  intro row _ h
  exact ⟨h.slashFree, h.filePath, h.remoteKey, by simp⟩

theorem clearUpload (hsound : m.Sound env) (id : BackupId) :
    { m with rows := m.rows.clearUpload id }.Sound env := by
  apply hsound.setRow id (by intro row; rfl)
  intro row _ h
  exact ⟨h.slashFree, h.filePath, by simp, by simp⟩

theorem markUploaded (hsound : m.Sound env) (id : BackupId) :
    { m with
      rows := m.rows.markUploaded id env.destination.describe
        (env.destination.keyForBackup id) }.Sound env := by
  apply hsound.setRow id (by intro row; rfl)
  intro row hid h
  refine ⟨h.slashFree, h.filePath, ?_, ?_⟩
  · intro key hkey
    rw [← Option.some.inj hkey, hid]
  · intro _
    exact ⟨by rw [hid], rfl⟩

/-- An update of the columns that soundness does not read. -/
theorem setOther (hsound : m.Sound env) (id : BackupId) {change : BackupRow → BackupRow}
    (hchange : ∀ row, (change row).id = row.id ∧ (change row).filePath = row.filePath ∧
      (change row).remoteKey = row.remoteKey ∧ (change row).uploadStatus = row.uploadStatus ∧
      (change row).uploadDestination = row.uploadDestination) :
    { m with rows := m.rows.setRow id change }.Sound env := by
  apply hsound.setRow id fun row => (hchange row).1
  intro row _ h
  obtain ⟨hid, hpath, hkey, hstatus, hdestination⟩ := hchange row
  exact ⟨by rw [hid]; exact h.slashFree, by rw [hpath, hid]; exact h.filePath,
    by rw [hkey, hid]; exact h.remoteKey,
    by rw [hstatus, hkey, hid, hdestination]; exact h.uploaded⟩

theorem deleteRow (hsound : m.Sound env) (id : BackupId) : (m.deleteRow id).Sound env where
  nodup := BackupTable.nodup_delete hsound.nodup
  rows := fun row hrow => hsound.rows row (BackupTable.mem_delete hrow)
  queue := hsound.queue

theorem forgetPruned (hsound : m.Sound env) (key : Key) : (m.forgetPruned key).Sound env := by
  rcases m.forgetPruned_cases key with ⟨hkept, -⟩ | ⟨row, -, ⟨-, hclear⟩ | ⟨-, hdelete⟩⟩
  · rw [hkept]
    exact hsound
  · rw [hclear]
    exact hsound.clearUpload row.id
  · rw [hdelete]
    exact hsound.deleteRow row.id

theorem insert (hsound : m.Sound env) {id : BackupId} {manifest : BackupManifest}
    {createdAt : Nat} {rows : BackupTable}
    (hinsert : m.rows.insert createdAt ⟨id, archivePath id, manifest⟩ = some rows)
    (hid : SlashFree id) : { m with rows := rows }.Sound env where
  nodup := BackupTable.nodup_insert hinsert hsound.nodup
  rows := by
    obtain ⟨-, rfl⟩ := BackupTable.insert_eq_some hinsert
    intro row hrow
    rcases List.mem_append.mp hrow with hold | hnew
    · exact hsound.rows row hold
    · rw [List.mem_singleton.mp hnew]
      exact ⟨hid, rfl, by simp [InsertBackupParams.row], by simp [InsertBackupParams.row]⟩
  queue := hsound.queue

theorem purgeRemoteCopy (hsound : m.Sound env) {id : BackupId} {key : Key} {uploaded : Bool}
    (hpurge : m.purgeRemoteCopy env id = .deletes key uploaded) :
    key = env.destination.keyForBackup id ∧ SlashFree id := by
  rw [Memory.purgeRemoteCopy] at hpurge
  cases hrow : m.rows.getRowById id with
  | none => simp [hrow] at hpurge
  | some row =>
      have hsoundRow := hsound.rows row (BackupTable.mem_of_getRowById hrow)
      have hid := BackupTable.id_of_getRowById hrow
      by_cases hconfigured : m.settings.configured = true
      · simp only [hrow, Memory.destinationProvider, hconfigured, if_true] at hpurge
        by_cases hother : (decide (row.uploadStatus = .uploaded) &&
            decide (row.uploadDestination ≠ some env.destination.describe)) = true
        · rw [if_pos hother] at hpurge
          exact absurd hpurge (by simp)
        · rw [if_neg hother] at hpurge
          injection hpurge with hkey _
          rw [← hid]
          refine ⟨?_, hsoundRow.slashFree⟩
          cases hremote : row.remoteKey with
          | none => rw [← hkey, hremote, hid]; rfl
          | some remoteKey =>
              rw [← hkey, hremote]
              exact hsoundRow.remoteKey remoteKey hremote
      · simp [hrow, Memory.destinationProvider, hconfigured] at hpurge

/-- A row that a snapshot of the table holds. -/
theorem placed (hsound : m.Sound env) {list : List BackupRow}
    (hlist : ∀ row ∈ list, row ∈ m.rows) : ∀ row ∈ list, row.filePath = archivePath row.id :=
  fun row hrow => (hsound.rows row (hlist row hrow)).filePath

theorem goes (hsound : m.Sound env) {opens : BackupId → Prop}
    {worklist : List BackupRow → Prop}
    (hworklist : ∀ list, worklist list → ∀ row ∈ list, row.filePath = archivePath row.id)
    {next : Memory × Task Archive} (hgoes : m.Goes env opens worklist next) :
    next.1.Sound env ∧ next.2.Sound env := by
  cases hgoes with
  | ended => exact ⟨hsound, trivial⟩
  | settled pass _ => exact ⟨hsound, trivial⟩
  | listing scope => exact ⟨hsound, trivial⟩
  | @opening pass id row _ hrow _ =>
      have h := hsound.rows row (BackupTable.mem_of_getRowById hrow)
      have hid := BackupTable.id_of_getRowById hrow
      exact ⟨hsound.markUploading id,
        ⟨hid ▸ h.slashFree, rfl, by rw [h.filePath, hid]⟩⟩
  | purged hlist _ => exact ⟨hsound, hworklist _ hlist⟩
  | purging hlist hpurge =>
      have hkey := hsound.purgeRemoteCopy hpurge
      exact ⟨hsound, hkey.1, hkey.2, hworklist _ hlist⟩

theorem expired_placed (hsound : m.Sound env) (scope : Option BackupId) :
    ∀ row ∈ m.expiredRows scope, row.filePath = archivePath row.id :=
  hsound.placed fun _ hrow => (Memory.mem_expiredRows hrow).1

theorem prune (scope : Option BackupId) (keys : List Key) :
    (Memory.prune scope keys : Task Archive).Sound env := by
  cases keys <;> exact trivial

theorem reclaim {scope : Option BackupId} {rows : List BackupRow}
    (hrows : ∀ row ∈ rows, row.filePath = archivePath row.id) :
    (Memory.reclaim scope rows : Task Archive).Sound env := by
  cases rows with
  | nil => exact trivial
  | cons row rest => exact hrows

theorem resumed (hsound : m.Sound env) {task : Task Archive} (htask : task.Sound env)
    {answer : Answer Archive} {next : Memory × Task Archive}
    (hresumed : m.Resumed env task answer next) :
    next.1.Sound env ∧ next.2.Sound env := by
  cases hresumed with
  | ended _ _ => exact ⟨hsound, trivial⟩
  | cleanedUp hgoes => exact hsound.goes (fun _ h => h.elim) hgoes
  | opened pass upload => exact ⟨hsound, htask⟩
  | sent pass upload => exact ⟨hsound, htask⟩
  | fetched pass upload copy => exact ⟨hsound, htask⟩
  | refused pass hupload _ => exact ⟨hsound, Task.upload_sound htask hupload⟩
  | uploaded pass upload copy =>
      have h := hsound.markUploaded upload.id
      rw [← htask.key] at h
      exact ⟨h, trivial⟩
  | uploadFailed pass upload answer => exact ⟨hsound.markUploadFailed upload.id, trivial⟩
  | settled hgoes =>
      refine hsound.goes ?_ hgoes
      rintro list ⟨id, -, -, rfl⟩
      exact hsound.expired_placed (some id)
  | selected scope backups => exact ⟨hsound, prune scope _⟩
  | pruned scope key rest => exact ⟨hsound.forgetPruned key, prune scope rest⟩
  | toReclaim scope answer =>
      exact ⟨hsound, reclaim (hsound.placed fun row hrow => (Memory.mem_reclaimable.mp hrow).1)⟩
  | reclaimed scope row rest answer =>
      refine ⟨hsound.setOther row.id fun _ => ⟨rfl, rfl, rfl, rfl, rfl⟩, reclaim ?_⟩
      exact fun other hother => htask other (List.mem_cons_of_mem row hother)
  | @toExpire scope answer next hgoes =>
      refine hsound.goes ?_ hgoes
      rintro list ⟨-, rfl⟩
      exact hsound.expired_placed scope
  | @expired task answer row rest hof =>
      refine ⟨hsound.deleteRow row.id, ?_⟩
      rcases hof with rfl | ⟨key, uploaded, rfl, -⟩
      · exact htask
      · exact htask.2.2
  | toExpireNext hgoes =>
      refine hsound.goes ?_ hgoes
      rintro list rfl row hrow
      exact htask row (List.mem_cons_of_mem _ hrow)
  | importListed _ => exact ⟨hsound, htask⟩
  | importToRead id existing _ => exact ⟨hsound, htask⟩
  | importToVerify expected hof =>
      rcases hof with ⟨rfl, -⟩ | ⟨rfl, -⟩ <;> exact ⟨hsound, htask⟩
  | importToMeasure id expected => exact ⟨hsound, htask⟩
  | importRestored id expected =>
      have h := hsound.setOther id fun row =>
        (⟨rfl, rfl, rfl, rfl, rfl⟩ : ({ row with localPresent := true } : BackupRow).id = row.id ∧
          _ ∧ _ ∧ _ ∧ _)
      exact ⟨⟨h.nodup, h.rows, h.queue⟩, trivial⟩
  | @importRegistered id expected rows hinsert =>
      have h := (hsound.insert hinsert htask).markUploaded id
      exact ⟨⟨h.nodup, h.rows, h.queue⟩, trivial⟩
  | importDiscarded _ => exact ⟨hsound, trivial⟩
  | @deletePurged id filePath outcome task answer hof =>
      refine ⟨hsound.deleteRow id, ?_⟩
      rcases hof with rfl | ⟨key, uploaded, rfl, -⟩
      · exact htask.1
      · exact htask.1
  | deleteAnswered id filePath outcome answer =>
      exact ⟨⟨hsound.nodup, hsound.rows, hsound.queue⟩, trivial⟩
  | @archived id cold manifest rows hinsert =>
      refine ⟨hsound.insert hinsert htask, ?_⟩
      cases cold <;> exact trivial
  | restarted id manifest => exact ⟨hsound, trivial⟩
  | disproved id manifest =>
      exact ⟨hsound.setOther id fun _ => ⟨rfl, rfl, rfl, rfl, rfl⟩, trivial⟩
  | @proved id manifest row next hrow hgoes =>
      have h := hsound.setOther id fun row =>
        (⟨rfl, rfl, rfl, rfl, rfl⟩ :
          ({ row with verificationStatus := .verified } : BackupRow).id = row.id ∧
          _ ∧ _ ∧ _ ∧ _)
      have hproven : { m with rows := m.rows.markVerified id, proven := id :: m.proven }.Sound
          env := ⟨h.nodup, h.rows, h.queue⟩
      exact hproven.goes (fun _ h => h.elim) hgoes
  | verified id filePath manifest ok =>
      refine ⟨?_, trivial⟩
      rw [Memory.verified]
      cases ok with
      | true => exact hsound.setOther id fun _ => ⟨rfl, rfl, rfl, rfl, rfl⟩
      | false => exact hsound.setOther id fun _ => ⟨rfl, rfl, rfl, rfl, rfl⟩
  | @restoreQueued id row hrow =>
      refine ⟨⟨hsound.nodup, hsound.rows, ?_⟩, trivial⟩
      intro job hjob
      rcases List.mem_append.mp hjob with hold | hnew
      · exact hsound.queue job hold
      · have h := hsound.rows row (BackupTable.mem_of_getRowById hrow)
        rw [List.mem_singleton.mp hnew, ← BackupTable.id_of_getRowById hrow]
        exact h.filePath
  | inspected id filePath => exact ⟨hsound, htask⟩
  | extracted id filePath => exact ⟨hsound, htask⟩
  | restored id filePath answer =>
      exact ⟨⟨hsound.nodup, hsound.rows, hsound.queue⟩, trivial⟩

theorem started (hsound : m.Sound env) {job : Job} (hjob : job.Sound)
    {next : Memory × Task Archive} (hstarted : m.Started env job next) :
    next.1.Sound env ∧ next.2.Sound env := by
  cases hstarted with
  | ended job => exact ⟨hsound, trivial⟩
  | archiving id cold => exact ⟨hsound, hjob⟩
  | verifying id filePath manifest => exact ⟨hsound, hjob⟩
  | uploading hgoes => exact hsound.goes (fun _ h => h.elim) hgoes
  | cleaningUp => exact ⟨hsound, trivial⟩
  | importing _ _ => exact ⟨hsound, hjob⟩
  | inspecting id filePath => exact ⟨hsound, hjob⟩

theorem recorded (hsound : m.Sound env) {enqueued : Option Job} {after : Memory}
    (hjob : ∀ job, enqueued = some job → job.Sound) (h : m.Recorded enqueued after) :
    after.Sound env where
  nodup := h.rows ▸ hsound.nodup
  rows := h.rows ▸ hsound.rows
  queue := by
    intro job hmem
    rcases h.queue job hmem with hold | hnew
    · exact hsound.queue job hold
    · exact hjob job hnew

end Memory.Sound

namespace Panel

variable {env : Env Archive} {p : Panel Archive}

theorem enqueued_sound (hsound : p.Sound env) {label : Label Archive} {job : Job}
    (hjob : p.enqueued label = some job) : job.Sound := by
  cases label with
  | create id cold =>
      rw [enqueued, Option.ite_none_right_eq_some, Bool.and_eq_true] at hjob
      obtain ⟨⟨hvalid, -⟩, hsome⟩ := hjob
      obtain rfl := Option.some.inj hsome
      exact slashFree_of_valid hvalid
  | verify id =>
      obtain ⟨row, hrow, rfl⟩ := Option.map_eq_some_iff.mp hjob
      rw [← BackupTable.id_of_getRowById hrow]
      exact (hsound.memory.rows row (BackupTable.mem_of_getRowById hrow)).filePath
  | upload id =>
      obtain ⟨row, -, rfl⟩ := Option.map_eq_some_iff.mp hjob
      exact trivial
  | reconcile =>
      obtain rfl := Option.some.inj hjob
      exact trivial
  | importRemote id =>
      rw [enqueued, Option.ite_none_right_eq_some] at hjob
      obtain ⟨hvalid, hsome⟩ := hjob
      obtain rfl := Option.some.inj hsome
      exact slashFree_of_valid hvalid
  | _ => exact absurd hjob.symm (Option.some_ne_none job)

theorem Begun.sound (hsound : p.Sound env) {label : Label Archive} {origin : Origin}
    {next : Memory × Task Archive} (hbegun : p.Begun env label origin next) :
    next.1.Sound env ∧ next.2.Sound env := by
  cases hbegun with
  | @job job rest next hfree hqueue hstarted =>
      have hjobs := hsound.memory.queue
      rw [hqueue] at hjobs
      have hrest : { p.memory with queue := rest }.Sound env :=
        ⟨hsound.memory.nodup, hsound.memory.rows,
          fun other hother => hjobs other (List.mem_cons_of_mem job hother)⟩
      exact hrest.started (hjobs job List.mem_cons_self) hstarted
  | sweep _ _ hnext =>
      rcases hnext with rfl | rfl | ⟨-, hgoes⟩
      · exact ⟨hsound.memory, trivial⟩
      · exact ⟨hsound.memory, trivial⟩
      · refine hsound.memory.goes ?_ hgoes
        rintro list ⟨-, rfl⟩
        exact hsound.memory.expired_placed none
  | preflighting hrow => exact ⟨hsound.memory, trivial⟩
  | deletePurged hrow hpurge =>
      have h := hsound.memory.rows _ (BackupTable.mem_of_getRowById hrow)
      exact ⟨hsound.memory, BackupTable.id_of_getRowById hrow ▸ h.filePath,
        Memory.ne_deleted_of_returns hpurge⟩
  | deletePurging hrow hpurge =>
      have h := hsound.memory.rows _ (BackupTable.mem_of_getRowById hrow)
      have hkey := hsound.memory.purgeRemoteCopy hpurge
      exact ⟨hsound.memory, BackupTable.id_of_getRowById hrow ▸ h.filePath, hkey⟩

theorem Sound.thread (hsound : p.Sound env) {index : Nat} {thread : Thread Archive}
    (hthread : p.threads[index]? = some thread) : thread.task.Sound env :=
  hsound.threads thread (List.mem_of_getElem? hthread)

theorem Sound.set (hsound : p.Sound env) (index : Nat) {thread : Thread Archive}
    (hthread : thread.task.Sound env) :
    ∀ other ∈ p.threads.set index thread, other.task.Sound env := by
  intro other hother
  rcases List.mem_or_eq_of_mem_set hother with hold | rfl
  · exact hsound.threads other hold
  · exact hthread

theorem Sound.stepped (hsound : p.Sound env) {label : Label Archive} {after : Panel Archive}
    (hstep : p.Stepped env label after) : after.Sound env := by
  cases hstep with
  | kept label => exact hsound
  | recorded h =>
      exact ⟨hsound.memory.recorded (fun _ => enqueued_sound hsound) h, hsound.threads⟩
  | begun hbegun =>
      obtain ⟨hmemory, htask⟩ := hbegun.sound hsound
      refine ⟨hmemory, ?_⟩
      intro thread hthread
      rcases List.mem_append.mp hthread with hold | hnew
      · exact hsound.threads thread hold
      · rw [List.mem_singleton.mp hnew]
        exact htask
  | landed hthread _ _ =>
      have htask := hsound.thread hthread
      exact ⟨hsound.memory, hsound.set _ htask⟩
  | resumed hthread hresumed =>
      obtain ⟨hmemory, htask⟩ := hsound.memory.resumed (hsound.thread hthread) hresumed
      exact ⟨hmemory, hsound.set _ htask⟩
  | crashed =>
      exact ⟨⟨hsound.memory.nodup, hsound.memory.rows, by simp⟩, by simp⟩
  | foreign act => exact ⟨hsound.memory, hsound.threads⟩

theorem Sound.step (hsound : p.Sound env) (label : Label Archive) :
    (p.step env label).Sound env :=
  hsound.stepped (step_stepped label)

theorem Sound.initial (stores : Stores Archive) (settings : Settings) :
    (Panel.initial stores settings).Sound env where
  memory := ⟨List.nodup_nil, by simp [Panel.initial], by simp [Panel.initial]⟩
  threads := by simp [Panel.initial]

end Panel

end Backups

end MailPanel

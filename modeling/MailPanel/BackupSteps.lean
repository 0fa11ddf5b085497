import MailPanel.BackupMachine

/-
One step of the machine, taken apart: what a call can do to the stores, what a segment
can do to the memory and where it stops, and what a label can make of the whole.
-/

namespace MailPanel

namespace Backups

variable {Archive : Type}

/-- Every way in which an awaited call acts on the archive directory and the remote store, and
what it answers. A call may fail after it took effect, and an upload may be seen half done. -/
inductive Stores.Landed (env : Env Archive) (s : Stores Archive) :
    Call Archive → Outcome Archive → Stores Archive → Option (Answer Archive) → Prop
  | cleaned (kept : List Nat) :
      Landed env s .cleanupInterruptedUploads (.cleaned kept) (s.abortMultiparts kept)
        (some .done)
  | listed : Landed env s .list .ok s (some (.listed (s.listing env)))
  | underway {key : Key} (content : Archive) (lastModified : Nat) :
      Landed env s (.upload key) (.underway content lastModified)
        (s.putObject key content lastModified) none
  | stored {key : Key} (content : Archive) (lastModified : Nat) (answered : Bool) :
      Landed env s (.upload key) (.stored content lastModified answered)
        (s.putObject key content lastModified) (some (if answered then .done else .failed))
  | opened {key : Key} (uploadId : Nat) :
      Landed env s (.upload key) (.opened uploadId) (s.openMultipart key uploadId) none
  | fetched {key : Key} {object : RemoteObject Archive} (hobject : s.object? key = some object) :
      Landed env s (.fetch key) .ok s (some (.fetched object.content))
  | checked (copy : Archive) (manifest : BackupManifest) :
      Landed env s (.verifyScratch copy manifest) .ok s
        (some (.verdict (env.verifies copy manifest)))
  | downloaded {key : Key} {destPath : Path} {object : RemoteObject Archive}
      (hobject : s.object? key = some object) :
      Landed env s (.download key destPath) .ok (s.putFile destPath object.content) (some .done)
  | damaged {key : Key} {destPath : Path} (content : Archive) :
      Landed env s (.download key destPath) (.damaged content) (s.putFile destPath content)
        (some .failed)
  | undone {key : Key} {destPath : Path} :
      Landed env s (.download key destPath) (.failed true) (s.removeFile destPath)
        (some .failed)
  | deleted (key : Key) : Landed env s (.delete key) .ok (s.removeObject key) (some .done)
  | lost (key : Key) :
      Landed env s (.delete key) (.failed true) (s.removeObject key) (some .failed)
  | unlinked (path : Path) : Landed env s (.unlink path) .ok (s.removeFile path) (some .done)
  | removed (path : Path) : Landed env s (.remove path) .ok (s.removeFile path) (some .done)
  | written {path : Path} (content : Archive) (manifest : BackupManifest) :
      Landed env s (.createArchive path) (.written content manifest) (s.putFile path content)
        (some (.manifest manifest))
  | halfWritten {path : Path} (content : Archive) :
      Landed env s (.createArchive path) (.damaged content) (s.putFile path content)
        (some .failed)
  | verdict {path : Path} {manifest : BackupManifest} {outcome : Outcome Archive} (ok : Bool)
      (hok : ok = true → ∃ archive, s.file? path = some archive ∧
        env.verifies archive manifest = true) :
      Landed env s (.verifyFile path manifest) outcome s (some (.verdict ok))
  | read {path : Path} (manifest : BackupManifest) :
      Landed env s (.readManifest path) .ok s (some (.manifest manifest))
  | waited {call : Call Archive} {outcome : Outcome Archive}
      (hcall : call = .cleanupInterruptedUploads ∨ (∃ path, call = .openFile path) ∨
        (∃ path, call = .extract path) ∨ call = .wait) : Landed env s call outcome s (some .done)
  | refused {call : Call Archive} {outcome : Outcome Archive}
      (hcall : call ≠ .cleanupInterruptedUploads)
      (hdelete : ∀ key, call = .delete key → outcome = .failed false)
      (hunlink : ∀ path, call = .unlink path → outcome = .ok → s.file? path = none) :
      Landed env s call outcome s (some .failed)

theorem Stores.land_landed {env : Env Archive} {s after : Stores Archive}
    {call : Call Archive} {outcome : Outcome Archive} {answer : Option (Answer Archive)}
    (hland : s.land env call outcome = some (after, answer)) :
    Stores.Landed env s call outcome after answer := by
  cases call <;> cases outcome <;> simp only [land, Option.some.injEq,
    Prod.mk.injEq, reduceCtorEq] at hland
  case cleanupInterruptedUploads.failed =>
      obtain ⟨rfl, rfl⟩ := hland
      exact .waited (Or.inl rfl)
  case cleanupInterruptedUploads.cleaned kept =>
      obtain ⟨rfl, rfl⟩ := hland
      exact .cleaned kept
  case list.ok =>
      obtain ⟨rfl, rfl⟩ := hland
      exact .listed
  case openFile.ok path =>
      cases hfile : s.file? path with
      | none =>
          simp only [hfile, Option.some.injEq, Prod.mk.injEq] at hland
          obtain ⟨rfl, rfl⟩ := hland
          exact .refused (by simp) (by simp) (by simp)
      | some archive =>
          simp only [hfile, Option.some.injEq, Prod.mk.injEq] at hland
          obtain ⟨rfl, rfl⟩ := hland
          exact .waited (Or.inr (Or.inl ⟨path, rfl⟩))
  case upload.underway key content lastModified =>
      obtain ⟨rfl, rfl⟩ := hland
      exact .underway content lastModified
  case upload.stored key content lastModified answered =>
      obtain ⟨rfl, rfl⟩ := hland
      exact .stored content lastModified answered
  case upload.opened key uploadId =>
      obtain ⟨rfl, rfl⟩ := hland
      exact .opened uploadId
  case fetch.ok key =>
      cases hobject : s.object? key with
      | none =>
          simp only [hobject, Option.some.injEq, Prod.mk.injEq] at hland
          obtain ⟨rfl, rfl⟩ := hland
          exact .refused (by simp) (by simp) (by simp)
      | some object =>
          simp only [hobject, Option.some.injEq, Prod.mk.injEq] at hland
          obtain ⟨rfl, rfl⟩ := hland
          exact .fetched hobject
  case verifyScratch.ok copy manifest =>
      obtain ⟨rfl, rfl⟩ := hland
      exact .checked copy manifest
  case download.ok key destPath =>
      cases hobject : s.object? key with
      | none =>
          simp only [hobject, Option.some.injEq, Prod.mk.injEq] at hland
          obtain ⟨rfl, rfl⟩ := hland
          exact .refused (by simp) (by simp) (by simp)
      | some object =>
          simp only [hobject, Option.some.injEq, Prod.mk.injEq] at hland
          obtain ⟨rfl, rfl⟩ := hland
          exact .downloaded hobject
  case download.damaged key destPath content =>
      obtain ⟨rfl, rfl⟩ := hland
      exact .damaged content
  case download.failed key destPath applied =>
      obtain ⟨rfl, rfl⟩ := hland
      cases applied with
      | true => exact .undone
      | false => exact .refused (by simp) (by simp) (by simp)
  case delete.ok key =>
      obtain ⟨rfl, rfl⟩ := hland
      exact .deleted key
  case delete.failed key applied =>
      obtain ⟨rfl, rfl⟩ := hland
      cases applied with
      | true => exact .lost key
      | false => exact .refused (by simp) (by simp) (by simp)
  case unlink.ok path =>
      cases hfile : s.file? path with
      | none =>
          simp only [hfile, Option.some.injEq, Prod.mk.injEq] at hland
          obtain ⟨rfl, rfl⟩ := hland
          exact .refused (by simp) (by simp) (by simpa using hfile)
      | some archive =>
          simp only [hfile, Option.some.injEq, Prod.mk.injEq] at hland
          obtain ⟨rfl, rfl⟩ := hland
          exact .unlinked path
  case remove.ok path =>
      obtain ⟨rfl, rfl⟩ := hland
      exact .removed path
  case createArchive.damaged path content =>
      obtain ⟨rfl, rfl⟩ := hland
      exact .halfWritten content
  case createArchive.written path content manifest =>
      obtain ⟨rfl, rfl⟩ := hland
      exact .written content manifest
  case verifyFile.ok path manifest =>
      cases hfile : s.file? path with
      | none =>
          simp only [hfile, Option.some.injEq, Prod.mk.injEq] at hland
          obtain ⟨rfl, rfl⟩ := hland
          exact .verdict false (by simp)
      | some archive =>
          simp only [hfile, Option.some.injEq, Prod.mk.injEq] at hland
          obtain ⟨rfl, rfl⟩ := hland
          exact .verdict _ fun hok => ⟨archive, hfile, hok⟩
  case verifyFile.failed path manifest applied =>
      obtain ⟨rfl, rfl⟩ := hland
      exact .verdict false (by simp)
  case readManifest.ok path =>
      cases hmanifest : s.manifestOf env path with
      | none =>
          simp only [hmanifest, Option.some.injEq, Prod.mk.injEq] at hland
          obtain ⟨rfl, rfl⟩ := hland
          exact .refused (by simp) (by simp) (by simp)
      | some manifest =>
          simp only [hmanifest, Option.some.injEq, Prod.mk.injEq] at hland
          obtain ⟨rfl, rfl⟩ := hland
          exact .read manifest
  case extract.ok path =>
      cases hfile : s.file? path with
      | none =>
          simp only [hfile, Option.some.injEq, Prod.mk.injEq] at hland
          obtain ⟨rfl, rfl⟩ := hland
          exact .refused (by simp) (by simp) (by simp)
      | some archive =>
          simp only [hfile, Option.some.injEq, Prod.mk.injEq] at hland
          obtain ⟨rfl, rfl⟩ := hland
          exact .waited (Or.inr (Or.inr (Or.inl ⟨path, rfl⟩)))
  case wait.ok =>
      obtain ⟨rfl, rfl⟩ := hland
      exact .waited (Or.inr (Or.inr (Or.inr rfl)))
  all_goals
    obtain ⟨rfl, rfl⟩ := hland
    exact .refused (by simp) (by simp) (by simp)

namespace Stores.Landed

variable {env : Env Archive} {s after : Stores Archive} {call : Call Archive}
  {outcome : Outcome Archive} {answer : Option (Answer Archive)}

/-- Only an upload brings an object. A call that lands may delete, download or list, but where
there was nothing, nothing is found after it. -/
theorem object_none (hlanded : s.Landed env call outcome after answer) {key : Key}
    (hnone : s.object? key = none)
    (hupload : call = .upload key → (∀ content lastModified,
      outcome ≠ .underway content lastModified) ∧ ∀ content lastModified answered,
        outcome ≠ .stored content lastModified answered) : after.object? key = none := by
  cases hlanded with
  | @underway other content lastModified =>
      rw [Stores.object?_putObject]
      by_cases heq : key = other
      · exact absurd rfl ((hupload (by rw [heq])).1 content lastModified)
      · rw [if_neg heq]
        exact hnone
  | @stored other content lastModified answered =>
      rw [Stores.object?_putObject]
      by_cases heq : key = other
      · exact absurd rfl ((hupload (by rw [heq])).2 content lastModified answered)
      · rw [if_neg heq]
        exact hnone
  | deleted other | lost other =>
      rw [Stores.object?_removeObject, hnone]
      exact ite_self none
  | _ => exact hnone

/-- Only a download and the writing of an archive bring a file. -/
theorem file_none (hlanded : s.Landed env call outcome after answer) {path : Path}
    (hnone : s.file? path = none) (hdownload : ∀ key, call ≠ .download key path)
    (hcreate : call ≠ .createArchive path) : after.file? path = none := by
  cases hlanded with
  | @downloaded key destPath object _ | @damaged key destPath content =>
      have hne : path ≠ destPath := fun heq => hdownload key (by rw [heq])
      rw [Stores.file?_putFile, if_neg hne]
      exact hnone
  | @written destPath content manifest | @halfWritten destPath content =>
      have hne : path ≠ destPath := fun heq => hcreate (by rw [heq])
      rw [Stores.file?_putFile, if_neg hne]
      exact hnone
  | undone | unlinked _ | removed _ =>
      rw [Stores.file?_removeFile, hnone]
      exact ite_self none
  | _ => exact hnone

/-- A deletion that reports success has removed the object. -/
theorem object_deleted {key : Key}
    (hlanded : s.Landed env (.delete key) outcome after (some .done)) :
    after.object? key = none := by
  cases hlanded with
  | deleted key => rw [Stores.object?_removeObject, if_pos rfl]
  | waited hcall => simp at hcall

/-- After an unlink that was not refused, the file is gone. -/
theorem file_unlinked {path : Path} {given : Answer Archive}
    (hlanded : s.Landed env (.unlink path) outcome after (some given))
    (hintime : outcome = .ok ∨ s.file? path = none) : after.file? path = none := by
  cases hlanded with
  | unlinked path => rw [Stores.file?_removeFile, if_pos rfl]
  | waited hcall => simp at hcall
  | refused _ _ hunlink =>
      rcases hintime with hok | hgone
      · exact hunlink path rfl hok
      · exact hgone

end Stores.Landed

/-- Where a segment can stop once its own writes are done: at the end, after an upload
that had nothing to do, at a listing, in an upload it opens, or at the purge of the first
row of a worklist. -/
inductive Memory.Goes (env : Env Archive) (opens : BackupId → Prop)
    (worklist : List BackupRow → Prop) (m : Memory) : Memory × Task Archive → Prop
  | ended : Goes env opens worklist m (m, .ended)
  | settled (pass : Pass) {outcome : UploadOutcome} (houtcome : outcome ≠ .uploaded) :
      Goes env opens worklist m (m, .settled pass outcome)
  | listing (scope : Option BackupId) : Goes env opens worklist m (m, .listing scope)
  | opening (pass : Pass) {id : BackupId} {row : BackupRow} (hopens : opens id)
      (hrow : m.rows.getRowById id = some row) (hlocal : row.localPresent = true) :
      Goes env opens worklist m ({ m with rows := m.rows.markUploading id },
        .opening pass ⟨id, env.destination.keyForBackup id, row.filePath, row.manifest⟩)
  | purged {row : BackupRow} {rest : List BackupRow} (hworklist : worklist (row :: rest))
      {outcome : RemotePurgeOutcome}
      (hpurge : m.purgeRemoteCopy env row.id = .returns outcome) :
      Goes env opens worklist m (m, .purged row rest)
  | purging {row : BackupRow} {rest : List BackupRow} (hworklist : worklist (row :: rest))
      {key : Key} {uploaded : Bool}
      (hpurge : m.purgeRemoteCopy env row.id = .deletes key uploaded) :
      Goes env opens worklist m (m, .purging row rest key uploaded)

section Goes

variable {env : Env Archive} {m : Memory} {opens : BackupId → Prop}
  {worklist : List BackupRow → Prop}

theorem Memory.Goes.mono {opens' : BackupId → Prop} {worklist' : List BackupRow → Prop}
    {next : Memory × Task Archive} (hgoes : Memory.Goes env opens worklist m next)
    (hopens : ∀ id, opens id → opens' id) (hwider : ∀ list, worklist list → worklist' list) :
    Memory.Goes env opens' worklist' m next := by
  cases hgoes with
  | ended => exact .ended
  | settled pass houtcome => exact .settled pass houtcome
  | listing scope => exact .listing scope
  | opening pass hid hrow hlocal => exact .opening pass (hopens _ hid) hrow hlocal
  | purged hworklist hpurge => exact .purged (hwider _ hworklist) hpurge
  | purging hworklist hpurge => exact .purging (hwider _ hworklist) hpurge

theorem Memory.uploadOne_goes (pass : Pass) (id : BackupId) :
    Memory.Goes env (fun other => other = id) worklist m (m.uploadOne env pass id) := by
  rw [Memory.uploadOne]
  by_cases hconfigured : m.settings.configured = true
  · rw [Memory.destinationProvider, if_pos hconfigured]
    cases hrow : m.rows.getRowById id with
    | none => exact .ended
    | some row =>
        by_cases hlocal : row.localPresent = true
        · simp only [hlocal, if_true]
          refine Memory.Goes.opening pass ?_ hrow hlocal
          rfl
        · by_cases huploaded : row.uploadStatus = .uploaded
          · simp only [hlocal, huploaded, if_true]
            exact .settled pass (by simp)
          · simp only [hlocal, huploaded, if_false]
            exact .settled pass (by simp)
  · rw [Memory.destinationProvider, if_neg hconfigured]
    exact .settled pass (by simp)

theorem Memory.uploadCandidates_goes (rows : List BackupRow) :
    Memory.Goes env (fun id => rows.head?.map BackupRow.id = some id) worklist m
      (m.uploadCandidates env rows) := by
  cases rows with
  | nil => exact .listing none
  | cons row rest =>
      apply (Memory.uploadOne_goes (.reconcile rest) row.id).mono
      · rintro id rfl
        rfl
      · exact fun _ h => h

theorem Memory.expire_goes (rows : List BackupRow) :
    Memory.Goes env opens (fun list => list = rows) m (m.expire env rows) := by
  cases rows with
  | nil => exact .ended
  | cons row rest =>
      rw [Memory.expire]
      cases hpurge : m.purgeRemoteCopy env row.id with
      | throws => exact .ended
      | returns outcome => exact .purged rfl hpurge
      | deletes key uploaded =>
          refine Memory.Goes.purging ?_ hpurge
          rfl

theorem Memory.applyLocalRetention_goes (scope : Option BackupId) :
    Memory.Goes env opens
      (fun list => m.settings.configured = true ∧ list = m.expiredRows scope) m
      (m.applyLocalRetention env scope) := by
  rw [Memory.applyLocalRetention, Memory.destinationProvider]
  by_cases hconfigured : m.settings.configured = true
  · rw [if_pos hconfigured]
    exact (Memory.expire_goes (m.expiredRows scope)).mono (fun _ h => h)
      fun list hlist => ⟨hconfigured, hlist⟩
  · rw [if_neg hconfigured]
    exact .ended

theorem Memory.settle_goes (pass : Pass) (outcome : UploadOutcome) :
    Memory.Goes env
      (fun id => ∃ rest, pass = .reconcile rest ∧ rest.head?.map BackupRow.id = some id)
      (fun list => ∃ id, pass = .backup id ∧
        m.settings.configured = true ∧ list = m.expiredRows (some id)) m
      (m.settle env pass outcome) := by
  cases pass with
  | reconcile rest =>
      apply (Memory.uploadCandidates_goes rest).mono
      · exact fun id hid => ⟨rest, rfl, hid⟩
      · exact fun _ h => h
  | backup id =>
      rw [Memory.settle]
      cases m.destinationProvider env with
      | none => exact .ended
      | some destination =>
          by_cases houtcome : outcome = .uploaded
          · simp only [houtcome, if_true]
            exact .listing (some id)
          · simp only [houtcome, if_false]
            exact (Memory.applyLocalRetention_goes (some id)).mono (fun _ h => h)
              fun list hlist => ⟨id, rfl, hlist⟩

end Goes

def Answer.isDone : Answer Archive → Bool
  | .done => true
  | _ => false

/-- After this answer to a remote deletion the segment drops or resets a row. -/
def Task.forgets (task : Task Archive) (answer : Answer Archive) : Bool :=
  match task with
  | .pruning _ _ _ => answer.isDone
  | .purging _ _ _ uploaded => answer.isDone || !uploaded
  | .deletePurging _ _ _ uploaded => answer.isDone || !uploaded
  | _ => false

/-- What one segment does, by the task it continues and the answer it continues with. A segment
runs from one `await` to the next and nothing comes between its reads and its writes. -/
inductive Memory.Resumed (env : Env Archive) (m : Memory) :
    Task Archive → Answer Archive → Memory × Task Archive → Prop
  /-- Whatever throws, or has nothing left to do. -/
  | ended {task : Task Archive} {answer : Answer Archive}
      (hupload : task.upload? = none) (hforgets : task.forgets answer = false) :
      Resumed env m task answer (m, .ended)
  | cleanedUp {answer : Answer Archive} {next : Memory × Task Archive}
      (hgoes : Memory.Goes env
        (fun id => m.rows.listUploadCandidates.head?.map BackupRow.id = some id)
        (fun _ => False) m next) :
      Resumed env m .cleaningUp answer next
  | opened (pass : Pass) (upload : Upload) :
      Resumed env m (.opening pass upload) .done (m, .sending pass upload)
  | sent (pass : Pass) (upload : Upload) :
      Resumed env m (.sending pass upload) .done (m, .fetching pass upload)
  | fetched (pass : Pass) (upload : Upload) (copy : Archive) :
      Resumed env m (.fetching pass upload) (.fetched copy) (m, .checking pass upload copy)
  | refused {task : Task Archive} {answer : Answer Archive} (pass : Pass) {upload : Upload}
      (hupload : task.upload? = some upload) (hdiscarding : task ≠ .discarding pass upload) :
      Resumed env m task answer (m, .discarding pass upload)
  | uploaded (pass : Pass) (upload : Upload) (copy : Archive) :
      Resumed env m (.checking pass upload copy) (.verdict true) (m.uploaded env pass upload)
  | uploadFailed (pass : Pass) (upload : Upload) (answer : Answer Archive) :
      Resumed env m (.discarding pass upload) answer (m.uploadFailed pass upload)
  | settled {pass : Pass} {outcome : UploadOutcome} {answer : Answer Archive}
      {next : Memory × Task Archive}
      (hgoes : Memory.Goes env
        (fun id => ∃ rest, pass = .reconcile rest ∧ rest.head?.map BackupRow.id = some id)
        (fun list => ∃ id, pass = .backup id ∧
          m.settings.configured = true ∧ list = m.expiredRows (some id)) m next) :
      Resumed env m (.settled pass outcome) answer next
  | selected (scope : Option BackupId) (backups : List RemoteBackup) :
      Resumed env m (.listing scope) (.listed backups)
        (m, Memory.prune scope (m.selectPruned backups))
  | pruned (scope : Option BackupId) (key : Key) (rest : List Key) :
      Resumed env m (.pruning scope key rest) .done
        (m.forgetPruned key, Memory.prune scope rest)
  | toReclaim (scope : Option BackupId) (answer : Answer Archive) :
      Resumed env m (.pruned scope) answer (m, Memory.reclaim scope m.reclaimable)
  | reclaimed (scope : Option BackupId) (row : BackupRow) (rest : List BackupRow)
      (answer : Answer Archive) :
      Resumed env m (.reclaiming scope row rest) answer
        ({ m with rows := m.rows.markLocalReclaimed row.id }, Memory.reclaim scope rest)
  | toExpire {scope : Option BackupId} {answer : Answer Archive} {next : Memory × Task Archive}
      (hgoes : Memory.Goes env (fun _ => False)
        (fun list => m.settings.configured = true ∧ list = m.expiredRows scope) m next) :
      Resumed env m (.reclaimed scope) answer next
  | expired {task : Task Archive} {answer : Answer Archive} {row : BackupRow}
      {rest : List BackupRow}
      (htask : task = .purged row rest ∨ ∃ key uploaded, task = .purging row rest key uploaded ∧
        (answer = .done ∨ uploaded = false)) :
      Resumed env m task answer (m.expireRow row rest)
  | toExpireNext {row : BackupRow} {rest : List BackupRow} {answer : Answer Archive}
      {next : Memory × Task Archive}
      (hgoes : Memory.Goes env (fun _ => False) (fun list => list = rest) m next) :
      Resumed env m (.unlinking row rest) answer next
  | importListed {id : BackupId} {existing : Bool} {backups : List RemoteBackup}
      (hkey : env.destination.keyForBackup id ∈ backups.map RemoteBackup.key) :
      Resumed env m (.importListing id existing) (.listed backups)
        (m, .importDownloading id existing)
  | importToRead (id : BackupId) (existing : Bool)
      (hmanifest : m.rows.getManifestById id = none) :
      Resumed env m (.importDownloading id existing) .done (m, .importReading id existing)
  | importToVerify {id : BackupId} {existing : Bool} {task : Task Archive}
      {answer : Answer Archive} (expected : BackupManifest)
      (htask : task = .importDownloading id existing ∧ answer = .done ∧
          m.rows.getManifestById id = some expected ∨
        task = .importReading id existing ∧ answer = .manifest expected) :
      Resumed env m task answer (m, .importVerifying id existing expected)
  | importToMeasure (id : BackupId) (expected : BackupManifest) :
      Resumed env m (.importVerifying id false expected) (.verdict true)
        (m, .importMeasuring id expected)
  | importRestored (id : BackupId) (expected : BackupManifest) :
      Resumed env m (.importVerifying id true expected) (.verdict true)
        ({ m with rows := m.rows.markLocalRestored id, staged := id :: m.staged }, .ended)
  | importRegistered {id : BackupId} {expected : BackupManifest} {rows : BackupTable}
      (hinsert : m.rows.insert (env.getTime expected.createdAt)
        ⟨id, archivePath id, expected⟩ = some rows) :
      Resumed env m (.importMeasuring id expected) .done
        ({ m with
            rows := rows.markUploaded id env.destination.describe
              (env.destination.keyForBackup id)
            staged := id :: m.staged }, .ended)
  | importDiscarded {id : BackupId} {task : Task Archive} {answer : Answer Archive}
      (htask : (∃ existing, task = .importReading id existing) ∨
        (∃ existing expected, task = .importVerifying id existing expected) ∨
        ∃ expected, task = .importMeasuring id expected) :
      Resumed env m task answer (m, .importDiscarding id)
  | deletePurged {id : BackupId} {filePath : Path} {outcome : RemotePurgeOutcome}
      {task : Task Archive} {answer : Answer Archive}
      (htask : task = .deletePurged id filePath outcome ∨
        ∃ key uploaded, task = .deletePurging id filePath key uploaded ∧
          (answer = .done ∧ outcome = .deleted ∨
            answer ≠ .done ∧ uploaded = false ∧ outcome = .none)) :
      Resumed env m task answer (m.deletePurged id filePath outcome)
  | deleteAnswered (id : BackupId) (filePath : Path) (outcome : RemotePurgeOutcome)
      (answer : Answer Archive) :
      Resumed env m (.deleteUnlinking id filePath outcome) answer
        ({ m with responses := (id, outcome) :: m.responses }, .ended)
  | archived {id : BackupId} {cold : Bool} {manifest : BackupManifest} {rows : BackupTable}
      (hinsert : m.rows.insert (env.getTime manifest.createdAt)
        ⟨id, archivePath id, manifest⟩ = some rows) :
      Resumed env m (.archiving id cold) (.manifest manifest)
        ({ m with rows := rows }, if cold then .restarting id manifest else .proving id manifest)
  | restarted (id : BackupId) (manifest : BackupManifest) :
      Resumed env m (.restarting id manifest) .done (m, .proving id manifest)
  | disproved (id : BackupId) (manifest : BackupManifest) :
      Resumed env m (.proving id manifest) (.verdict false)
        ({ m with rows := m.rows.markVerificationFailed id }, .ended)
  | proved {id : BackupId} {manifest : BackupManifest} {row : BackupRow}
      {next : Memory × Task Archive} (hrow : m.rows.getRowById id = some row)
      (hgoes : Memory.Goes env (fun other => m.settings.uploadToRemote = true ∧ other = id)
        (fun _ => False)
        { m with rows := m.rows.markVerified id, proven := id :: m.proven } next) :
      Resumed env m (.proving id manifest) (.verdict true) next
  | verified (id : BackupId) (filePath : Path) (manifest : BackupManifest) (ok : Bool) :
      Resumed env m (.verifying id filePath manifest) (.verdict ok) (m.verified id ok)
  | restoreQueued {id : BackupId} {row : BackupRow}
      (hrow : m.rows.getRowById id = some row) :
      Resumed env m (.preflighting id) .done
        ({ m with queue := m.queue ++ [.restore id row.filePath] }, .ended)
  | inspected (id : BackupId) (filePath : Path) :
      Resumed env m (.inspecting id filePath) .done (m, .extracting id filePath)
  | extracted (id : BackupId) (filePath : Path) :
      Resumed env m (.extracting id filePath) .done (m, .restoring id filePath)
  | restored (id : BackupId) (filePath : Path) (answer : Answer Archive) :
      Resumed env m (.restoring id filePath) answer (m.restored id)

section Resumed

variable {env : Env Archive} {m : Memory}

theorem Memory.expectManifest_resumed (id : BackupId) (existing : Bool) :
    Memory.Resumed env m (.importDownloading id existing) .done
      (m.expectManifest id existing) := by
  rw [Memory.expectManifest]
  cases hmanifest : m.rows.getManifestById id with
  | none => exact .importToRead id existing hmanifest
  | some expected => exact .importToVerify expected (Or.inl ⟨rfl, rfl, hmanifest⟩)

theorem Memory.importVerified_resumed (id : BackupId) (existing : Bool)
    (expected : BackupManifest) :
    Memory.Resumed env m (.importVerifying id existing expected) (.verdict true)
      (m.importVerified id existing expected) := by
  cases existing with
  | true => exact .importRestored id expected
  | false => exact .importToMeasure id expected

theorem Memory.registerImported_resumed (id : BackupId) (expected : BackupManifest) :
    Memory.Resumed env m (.importMeasuring id expected) .done
      (m.registerImported env id expected) := by
  rw [Memory.registerImported]
  cases hinsert : m.rows.insert (env.getTime expected.createdAt)
      ⟨id, archivePath id, expected⟩ with
  | none => exact .importDiscarded (Or.inr (Or.inr ⟨expected, rfl⟩))
  | some rows => exact .importRegistered hinsert

theorem Memory.archived_resumed (id : BackupId) (cold : Bool) (manifest : BackupManifest) :
    Memory.Resumed env m (.archiving id cold) (.manifest manifest)
      (m.archived env id cold manifest) := by
  rw [Memory.archived]
  cases hinsert : m.rows.insert (env.getTime manifest.createdAt)
      ⟨id, archivePath id, manifest⟩ with
  | none => exact .ended rfl rfl
  | some rows => exact .archived hinsert

theorem Memory.proved_resumed (id : BackupId) (manifest : BackupManifest) (ok : Bool) :
    Memory.Resumed env m (.proving id manifest) (.verdict ok) (m.proved env id ok) := by
  cases ok with
  | false => exact .disproved id manifest
  | true =>
      rw [Memory.proved, if_pos rfl]
      cases hrow : m.rows.getRowById id with
      | none => exact .ended rfl rfl
      | some row =>
          apply Memory.Resumed.proved hrow
          by_cases hupload : m.settings.uploadToRemote = true
          · simp only [hupload, if_true]
            exact (Memory.uploadOne_goes (.backup id) id).mono (fun other hid => ⟨trivial, hid⟩)
              fun _ h => h
          · simp only [hupload]
            exact .ended

theorem Memory.enqueueRestore_resumed (id : BackupId) :
    Memory.Resumed env m (.preflighting id) .done (m.enqueueRestore id) := by
  rw [Memory.enqueueRestore]
  cases hrow : m.rows.getRowById id with
  | none => exact .ended rfl rfl
  | some row => exact .restoreQueued hrow

/-- Every segment is one of these. It is the one place where the code of a segment is looked
into; everything else goes by the cases. -/
theorem Memory.resume_resumed (task : Task Archive) (answer : Answer Archive)
    (hended : task ≠ .ended) : Memory.Resumed env m task answer (m.resume env task answer) := by
  cases task with
  | cleaningUp => exact .cleanedUp (Memory.uploadCandidates_goes _)
  | opening pass upload =>
      cases answer with
      | done => exact .opened pass upload
      | _ => exact .refused pass rfl (by simp)
  | sending pass upload =>
      cases answer with
      | done => exact .sent pass upload
      | _ => exact .refused pass rfl (by simp)
  | fetching pass upload =>
      cases answer with
      | fetched copy => exact .fetched pass upload copy
      | _ => exact .refused pass rfl (by simp)
  | checking pass upload copy =>
      cases answer with
      | verdict ok =>
          cases ok with
          | true => exact .uploaded pass upload copy
          | false => exact .refused pass rfl (by simp)
      | _ => exact .refused pass rfl (by simp)
  | discarding pass upload => exact .uploadFailed pass upload answer
  | settled pass outcome => exact .settled (Memory.settle_goes pass outcome)
  | listing scope =>
      cases answer with
      | listed backups => exact .selected scope backups
      | _ => exact .ended rfl rfl
  | pruning scope key rest =>
      cases answer with
      | done => exact .pruned scope key rest
      | _ => exact .ended rfl rfl
  | pruned scope => exact .toReclaim scope answer
  | reclaiming scope row rest => exact .reclaimed scope row rest answer
  | reclaimed scope =>
      exact .toExpire (Memory.applyLocalRetention_goes scope)
  | purging row rest key uploaded =>
      cases answer with
      | done => exact .expired (Or.inr ⟨key, uploaded, rfl, Or.inl rfl⟩)
      | _ =>
          cases uploaded with
          | true => exact .ended rfl rfl
          | false => exact .expired (Or.inr ⟨key, false, rfl, Or.inr rfl⟩)
  | purged row rest => exact .expired (Or.inl rfl)
  | unlinking row rest => exact .toExpireNext (Memory.expire_goes rest)
  | importListing id existing =>
      cases answer with
      | listed backups =>
          by_cases hkey : env.destination.keyForBackup id ∈ backups.map RemoteBackup.key
          · simp only [Memory.resume, if_pos hkey]
            exact .importListed hkey
          · simp only [Memory.resume, if_neg hkey]
            exact .ended rfl rfl
      | _ => exact .ended rfl rfl
  | importDownloading id existing =>
      cases answer with
      | done => exact Memory.expectManifest_resumed id existing
      | _ => exact .ended rfl rfl
  | importReading id existing =>
      cases answer with
      | manifest expected => exact .importToVerify expected (Or.inr ⟨rfl, rfl⟩)
      | _ => exact .importDiscarded (Or.inl ⟨existing, rfl⟩)
  | importVerifying id existing expected =>
      cases answer with
      | verdict ok =>
          cases ok with
          | true => exact Memory.importVerified_resumed id existing expected
          | false => exact .importDiscarded (Or.inr (Or.inl ⟨existing, expected, rfl⟩))
      | _ => exact .importDiscarded (Or.inr (Or.inl ⟨existing, expected, rfl⟩))
  | importMeasuring id expected =>
      cases answer with
      | done => exact Memory.registerImported_resumed id expected
      | _ => exact .importDiscarded (Or.inr (Or.inr ⟨expected, rfl⟩))
  | importDiscarding id => exact .ended rfl rfl
  | deletePurging id filePath key uploaded =>
      cases answer with
      | done => exact .deletePurged (Or.inr ⟨key, uploaded, rfl, Or.inl ⟨rfl, rfl⟩⟩)
      | _ =>
          cases uploaded with
          | true => exact .ended rfl rfl
          | false =>
              exact .deletePurged (Or.inr ⟨key, false, rfl, Or.inr ⟨by simp, rfl, rfl⟩⟩)
  | deletePurged id filePath outcome => exact .deletePurged (Or.inl rfl)
  | deleteUnlinking id filePath outcome => exact .deleteAnswered id filePath outcome answer
  | archiving id cold =>
      cases answer with
      | manifest manifest => exact Memory.archived_resumed id cold manifest
      | _ => exact .ended rfl rfl
  | restarting id manifest =>
      cases answer with
      | done => exact .restarted id manifest
      | _ => exact .ended rfl rfl
  | proving id manifest =>
      cases answer with
      | verdict ok => exact Memory.proved_resumed id manifest ok
      | _ => exact .ended rfl rfl
  | verifying id filePath manifest =>
      cases answer with
      | verdict ok => exact .verified id filePath manifest ok
      | _ => exact .ended rfl rfl
  | preflighting id =>
      cases answer with
      | done => exact Memory.enqueueRestore_resumed id
      | _ => exact .ended rfl rfl
  | inspecting id filePath =>
      cases answer with
      | done => exact .inspected id filePath
      | _ => exact .ended rfl rfl
  | extracting id filePath =>
      cases answer with
      | done => exact .extracted id filePath
      | _ => exact .ended rfl rfl
  | restoring id filePath => exact .restored id filePath answer
  | ended => exact absurd rfl hended

end Resumed

section PruneKeys

variable {env : Env Archive} {m : Memory} {next : Memory × Task Archive}

@[simp]
theorem Memory.pruneKeys_prune (scope : Option BackupId) (keys : List Key) :
    (Memory.prune scope keys : Task Archive).pruneKeys = keys := by
  cases keys <;> rfl

@[simp]
theorem Memory.pruneKeys_reclaim (scope : Option BackupId) (rows : List BackupRow) :
    (Memory.reclaim scope rows : Task Archive).pruneKeys = [] := by
  cases rows <;> rfl

theorem Memory.Goes.pruneKeys {opens : BackupId → Prop} {worklist : List BackupRow → Prop}
    (hgoes : m.Goes env opens worklist next) : next.2.pruneKeys = [] := by
  cases hgoes <;> rfl

/-- A key to delete was selected from a listing, now or before, and never made up: the keys of a
prune only become fewer. -/
theorem Memory.Resumed.pruneKeys {task : Task Archive} {answer : Answer Archive}
    (hresumed : m.Resumed env task answer next) {key : Key} (hkey : key ∈ next.2.pruneKeys) :
    key ∈ task.pruneKeys ∨ ∃ scope backups, task = .listing scope ∧
      answer = .listed backups ∧ key ∈ m.selectPruned backups := by
  cases hresumed with
  | selected scope backups =>
      rw [Memory.pruneKeys_prune] at hkey
      exact Or.inr ⟨scope, backups, rfl, rfl, hkey⟩
  | pruned scope pruned rest =>
      rw [Memory.pruneKeys_prune] at hkey
      exact Or.inl (List.mem_cons_of_mem pruned hkey)
  | toReclaim _ _ =>
      rw [Memory.pruneKeys_reclaim] at hkey
      exact absurd hkey List.not_mem_nil
  | reclaimed _ _ _ _ =>
      rw [Memory.pruneKeys_reclaim] at hkey
      exact absurd hkey List.not_mem_nil
  | cleanedUp hgoes | settled hgoes | toExpire hgoes | toExpireNext hgoes | proved _ hgoes =>
      rw [hgoes.pruneKeys] at hkey
      exact absurd hkey List.not_mem_nil
  | @archived id cold manifest rows hinsert =>
      cases cold <;> exact absurd hkey List.not_mem_nil
  | _ => exact absurd hkey List.not_mem_nil

end PruneKeys

/-- The first segment of a job, taken from the memory without it: what the job has read and
written by the time that it first waits, or that it has ended at once. -/
inductive Memory.Started (env : Env Archive) (m : Memory) : Job → Memory × Task Archive → Prop
  | ended (job : Job) : Started env m job (m, .ended)
  | archiving (id : BackupId) (cold : Bool) :
      Started env m (.create id cold) (m, .archiving id cold)
  | verifying (id : BackupId) (filePath : Path) (manifest : BackupManifest) :
      Started env m (.verify id filePath manifest) (m, .verifying id filePath manifest)
  | uploading {id : BackupId} {next : Memory × Task Archive}
      (hgoes : Memory.Goes env (fun other => other = id) (fun _ => False) m next) :
      Started env m (.upload id) next
  | cleaningUp : Started env m .reconcile (m, .cleaningUp)
  | importing {id : BackupId} {existing : Bool}
      (hexisting : ∀ row, m.rows.getRowById id = some row →
        existing = true ∧ row.localPresent = false)
      (hmissing : m.rows.getRowById id = none → existing = false) :
      Started env m (.importRemote id) (m, .importListing id existing)
  | inspecting (id : BackupId) (filePath : Path) :
      Started env m (.restore id filePath) (m, .inspecting id filePath)

theorem Memory.startJob_started {env : Env Archive} {m : Memory} (job : Job) :
    Memory.Started env m job (m.startJob env job) := by
  cases job with
  | create id cold => exact .archiving id cold
  | verify id filePath manifest => exact .verifying id filePath manifest
  | upload id => exact .uploading (Memory.uploadOne_goes (.backup id) id)
  | reconcile =>
      rw [Memory.startJob, Memory.reconcile]
      cases m.destinationProvider env with
      | none => exact .ended .reconcile
      | some destination => exact .cleaningUp
  | importRemote id =>
      rw [Memory.startJob, Memory.importFromRemote]
      cases m.destinationProvider env with
      | none => exact .ended (.importRemote id)
      | some destination =>
          cases hrow : m.rows.getRowById id with
          | none => exact .importing (by simp [hrow]) (fun _ => rfl)
          | some row =>
              by_cases hlocal : row.localPresent = true
              · simp only [hlocal, if_true]
                exact .ended (.importRemote id)
              · simp only [hlocal]
                exact .importing (by simpa [hrow] using hlocal) (by simp [hrow])
  | restore id filePath => exact .inspecting id filePath

/-- A thread that begins, with its first segment: the runner's next job, a sweep of the timer,
or a request of an administrator that is served outside the queue. -/
inductive Panel.Begun (env : Env Archive) (p : Panel Archive) :
    Label Archive → Origin → Memory × Task Archive → Prop
  | job {job : Job} {rest : List Job} {next : Memory × Task Archive}
      (hfree : p.busy = false) (hqueue : p.memory.queue = job :: rest)
      (hstarted : Memory.Started env { p.memory with queue := rest } job next) :
      Begun env p .pump (.job job) next
  | sweep {next : Memory × Task Archive} (hidle : p.idle = true)
      (hsweeping : p.threads.any Thread.sweeping = false)
      (hnext : next = (p.memory, .ended) ∨ next = (p.memory, .cleaningUp) ∨
        p.memory.settings.uploadToRemote = false ∧
          Memory.Goes env (fun _ => False)
            (fun list => p.memory.settings.configured = true ∧
              list = p.memory.expiredRows none) p.memory next) :
      Begun env p .tick .sweep next
  | preflighting {id : BackupId} {row : BackupRow}
      (hrow : p.memory.rows.getRowById id = some row) :
      Begun env p (.restore id) .request (p.memory, .preflighting id)
  | deletePurged {id : BackupId} {row : BackupRow} {outcome : RemotePurgeOutcome}
      (hrow : p.memory.rows.getRowById id = some row)
      (hpurge : p.memory.purgeRemoteCopy env id = .returns outcome) :
      Begun env p (.delete id) .request (p.memory, .deletePurged id row.filePath outcome)
  | deletePurging {id : BackupId} {row : BackupRow} {key : Key} {uploaded : Bool}
      (hrow : p.memory.rows.getRowById id = some row)
      (hpurge : p.memory.purgeRemoteCopy env id = .deletes key uploaded) :
      Begun env p (.delete id) .request (p.memory, .deletePurging id row.filePath key uploaded)

/-- The job that a label puts into the queue, if it puts one there, with what the row says at
that moment. -/
def Panel.enqueued (p : Panel Archive) : Label Archive → Option Job
  | .create id cold =>
      if validBackupId id && decide (id ∉ p.memory.ids) then some (.create id cold) else none
  | .verify id =>
      (p.memory.rows.getRowById id).map fun row => .verify id row.filePath row.manifest
  | .upload id => (p.memory.rows.getRowById id).map fun _ => .upload id
  | .reconcile => some .reconcile
  | .importRemote id => if validBackupId id then some (.importRemote id) else none
  | _ => none

/-- Labels that change nothing but the queue, the ids, the settings or the clock: the rows and
the history stay as they are, ids are only added, and at most one job is queued. -/
structure Memory.Recorded (m : Memory) (enqueued : Option Job) (after : Memory) : Prop where
  rows : after.rows = m.rows
  staged : after.staged = m.staged
  responses : after.responses = m.responses
  proven : after.proven = m.proven
  ids : ∀ id ∈ m.ids, id ∈ after.ids
  queue : ∀ job ∈ after.queue, job ∈ m.queue ∨ enqueued = some job

/-- One step of the machine, as a relation with one case for each kind of step. Every invariant
of the panel is proved against these cases, and none against the code of a step. -/
inductive Panel.Stepped (env : Env Archive) (p : Panel Archive) :
    Label Archive → Panel Archive → Prop
  | kept (label : Label Archive) : Stepped env p label p
  | recorded {label : Label Archive} {memory : Memory}
      (h : p.memory.Recorded (p.enqueued label) memory) :
      Stepped env p label { p with memory := memory }
  | begun {label : Label Archive} {origin : Origin} {next : Memory × Task Archive}
      (h : p.Begun env label origin next) : Stepped env p label (p.start origin next)
  | landed {index : Nat} {origin : Origin} {task : Task Archive} {call : Call Archive}
      {outcome : Outcome Archive} {stores : Stores Archive} {answer : Option (Answer Archive)}
      (hthread : p.threads[index]? = some ⟨origin, task, none⟩)
      (hcall : task.call env = some call)
      (hland : p.stores.Landed env call outcome stores answer) :
      Stepped env p (.land index outcome)
        { p with stores := stores, threads := p.threads.set index ⟨origin, task, answer⟩ }
  | resumed {index : Nat} {origin : Origin} {task : Task Archive} {answer : Answer Archive}
      {next : Memory × Task Archive}
      (hthread : p.threads[index]? = some ⟨origin, task, some answer⟩)
      (hresumed : p.memory.Resumed env task answer next) :
      Stepped env p (.resume index)
        { p with memory := next.1, threads := p.threads.set index ⟨origin, next.2, none⟩ }
  | crashed : Stepped env p .crash
      { p with memory := { p.memory with queue := [] }, threads := [] }
  | foreign (act : ForeignAct Archive) :
      Stepped env p (.foreign act) { p with stores := act.apply p.stores }

/-- One more job at the end of the queue. -/
theorem Memory.Recorded.append {m : Memory} {ids : List BackupId} (job : Job)
    (hids : ∀ id ∈ m.ids, id ∈ ids) :
    m.Recorded (some job) { m with queue := m.queue ++ [job], ids := ids } where
  rows := rfl
  staged := rfl
  responses := rfl
  proven := rfl
  ids := hids
  queue := by
    intro other hother
    rcases List.mem_append.mp hother with hold | hnew
    · exact Or.inl hold
    · exact Or.inr (congrArg some (List.mem_singleton.mp hnew).symm)

theorem Memory.Started.pruneKeys {env : Env Archive} {m : Memory} {job : Job}
    {next : Memory × Task Archive} (hstarted : m.Started env job next) :
    next.2.pruneKeys = [] := by
  cases hstarted with
  | uploading hgoes => exact hgoes.pruneKeys
  | _ => rfl

namespace Panel

variable {env : Env Archive} {p : Panel Archive}

theorem Begun.pruneKeys {label : Label Archive} {origin : Origin}
    {next : Memory × Task Archive} (hbegun : p.Begun env label origin next) :
    next.2.pruneKeys = [] := by
  cases hbegun with
  | job _ _ hstarted => exact hstarted.pruneKeys
  | sweep _ _ hnext =>
      rcases hnext with rfl | rfl | ⟨-, hgoes⟩
      · rfl
      · rfl
      · exact hgoes.pruneKeys
  | _ => rfl

theorem enqueueFor_stepped {label : Label Archive} {id : BackupId} {job : BackupRow → Job}
    (hjob : p.enqueued label = (p.memory.rows.getRowById id).map job) :
    p.Stepped env label (p.enqueueFor id job) := by
  rw [enqueueFor]
  cases hrow : p.memory.rows.getRowById id with
  | none => exact .kept label
  | some row =>
      apply Stepped.recorded
      rw [hjob, hrow]
      exact Memory.Recorded.append (job row) fun _ hid => hid

theorem land_stepped (index : Nat) (outcome : Outcome Archive) :
    p.Stepped env (.land index outcome) (p.land env index outcome) := by
  rw [land]
  cases hthread : p.threads[index]? with
  | none => exact .kept _
  | some thread =>
      obtain ⟨origin, task, answer⟩ := thread
      cases answer with
      | some answer => exact .kept _
      | none =>
          cases hcall : task.call env with
          | none =>
              simp only [hcall]
              exact .kept _
          | some call =>
              cases hland : p.stores.land env call outcome with
              | none =>
                  simp only [hcall, hland]
                  exact .kept _
              | some result =>
                  simp only [hcall, hland]
                  exact .landed hthread hcall (Stores.land_landed hland)

theorem resume_stepped (index : Nat) :
    p.Stepped env (.resume index) (p.resume env index) := by
  rw [resume]
  cases hthread : p.threads[index]? with
  | none => exact .kept _
  | some thread =>
      obtain ⟨origin, task, answer⟩ := thread
      cases answer with
      | none => exact .kept _
      | some answer =>
          by_cases hended : task = .ended
          · subst hended
            exact .resumed hthread (.ended rfl rfl)
          · exact .resumed hthread (Memory.resume_resumed task answer hended)

theorem pump_stepped : p.Stepped env .pump (p.pump env) := by
  rw [pump]
  by_cases hbusy : p.busy = true
  · rw [if_pos hbusy]
    exact .kept _
  · rw [if_neg hbusy]
    cases hqueue : p.memory.queue with
    | nil => exact .kept _
    | cons job rest =>
        exact .begun (.job (by simpa using hbusy) hqueue (Memory.startJob_started job))

theorem tick_stepped : p.Stepped env .tick (p.tick env) := by
  rw [tick]
  by_cases hskip : (p.threads.any Thread.sweeping || !p.idle) = true
  · rw [if_pos hskip]
    exact .kept _
  · rw [if_neg hskip]
    simp only [Bool.or_eq_true, Bool.not_eq_eq_eq_not, Bool.not_true, not_or,
      Bool.not_eq_true, Bool.not_eq_false] at hskip
    apply Stepped.begun
    apply Begun.sweep hskip.2 hskip.1
    by_cases hupload : p.memory.settings.uploadToRemote = true
    · rw [if_pos hupload, Memory.reconcile]
      cases p.memory.destinationProvider env with
      | none => exact Or.inl rfl
      | some destination => exact Or.inr (Or.inl rfl)
    · rw [if_neg hupload]
      exact Or.inr (Or.inr ⟨by simpa using hupload, Memory.applyLocalRetention_goes none⟩)

theorem delete_stepped (id : BackupId) : p.Stepped env (.delete id) (p.step env (.delete id)) := by
  rw [step, Memory.delete]
  cases hrow : p.memory.rows.getRowById id with
  | none => exact .kept _
  | some row =>
      cases hpurge : p.memory.purgeRemoteCopy env id with
      | throws => exact .kept _
      | returns outcome => exact .begun (.deletePurged hrow hpurge)
      | deletes key uploaded => exact .begun (.deletePurging hrow hpurge)

theorem step_stepped (label : Label Archive) : p.Stepped env label (p.step env label) := by
  cases label with
  | create id cold =>
      rw [step]
      by_cases hfresh : (validBackupId id && decide (id ∉ p.memory.ids)) = true
      · rw [if_pos hfresh]
        apply Stepped.recorded
        rw [enqueued, if_pos hfresh]
        exact Memory.Recorded.append _ fun other hother => List.mem_cons_of_mem _ hother
      · rw [if_neg hfresh]
        exact .kept _
  | verify id => exact enqueueFor_stepped rfl
  | upload id => exact enqueueFor_stepped rfl
  | reconcile => exact .recorded (Memory.Recorded.append .reconcile fun _ hid => hid)
  | importRemote id =>
      rw [step]
      by_cases hvalid : validBackupId id = true
      · rw [if_pos hvalid]
        apply Stepped.recorded
        rw [enqueued, if_pos hvalid]
        exact Memory.Recorded.append _ fun other hother => List.mem_cons_of_mem _ hother
      · rw [if_neg hvalid]
        exact .kept _
  | restore id =>
      rw [step]
      cases hrow : p.memory.rows.getRowById id with
      | none => exact .kept _
      | some row => exact .begun (.preflighting hrow)
  | delete id => exact delete_stepped id
  | cancel index =>
      refine .recorded ⟨rfl, rfl, rfl, rfl, fun _ hid => hid, ?_⟩
      exact fun job hjob => Or.inl (List.mem_of_mem_eraseIdx hjob)
  | pump => exact pump_stepped
  | tick => exact tick_stepped
  | land index outcome => exact land_stepped index outcome
  | resume index => exact resume_stepped index
  | crash => exact .crashed
  | configure settings =>
      refine .recorded ⟨rfl, rfl, rfl, rfl, fun _ hid => hid, fun _ hjob => Or.inl hjob⟩
  | elapse milliseconds =>
      refine .recorded ⟨rfl, rfl, rfl, rfl, fun _ hid => hid, fun _ hjob => Or.inl hjob⟩
  | foreign act => exact .foreign act

end Panel

end Backups

end MailPanel

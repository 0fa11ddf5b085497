import MailPanel.BackupsRepository

/-
What lies outside the process: the archives on the disk and the objects and open
multipart uploads of the remote.  Every call the backup code awaits acts here, and
the environment decides how it ends.
-/

namespace MailPanel

namespace Backups

/-- `BackupsService` and the importer name the archive of a backup alike. -/
def archivePath (id : BackupId) : Path :=
  id ++ ".tar"

structure RemoteObject (Archive : Type) where
  key : Key
  content : Archive
  lastModified : Nat
deriving DecidableEq, Repr

structure MultipartUpload where
  key : Key
  uploadId : Nat
deriving DecidableEq, Repr

structure RemoteBackup where
  key : Key
  lastModified : Nat
deriving DecidableEq, Repr

structure Stores (Archive : Type) where
  files : List (Path × Archive)
  objects : List (RemoteObject Archive)
  multiparts : List MultipartUpload
deriving DecidableEq, Repr

/-- The packages the archive code calls, the parsing of a time stamp, and the
destination the operator has entered. -/
structure Env (Archive : Type) where
  tools : BackupArchive.ArchiveTools Archive
  getTime : String → Nat
  destination : Destination

/-- The verdict of `verifyBackupArchive`. -/
def Env.verifies {Archive : Type} (env : Env Archive) (archive : Archive)
    (manifest : BackupManifest) : Bool :=
  (BackupArchive.verifyBackupArchive env.tools archive manifest).ok

/-- A call that is awaited, with its arguments: to the remote store, to the archive directory,
or to the check of an archive. Between the call and its end other threads may run. -/
inductive Call (Archive : Type) where
  | cleanupInterruptedUploads
  | list
  /-- An upload opens the archive before anything is sent. -/
  | openFile (path : Path)
  | upload (key : Key)
  /-- A download to a scratch file that only the caller reads. -/
  | fetch (key : Key)
  | verifyScratch (copy : Archive) (manifest : BackupManifest)
  | download (key : Key) (destPath : Path)
  | delete (key : Key)
  | unlink (path : Path)
  /-- `rm` with `force`. -/
  | remove (path : Path)
  | createArchive (path : Path)
  | verifyFile (path : Path) (manifest : BackupManifest)
  | readManifest (path : Path)
  | extract (path : Path)
  /-- A call to the broker, or the promise of an inner function: nothing here changes. -/
  | wait
deriving DecidableEq, Repr

/-- What an awaited call resolves to: nothing, a listing, a downloaded copy, the verdict of a
check, or the manifest of a new archive. A rejection is an answer too. -/
inductive Answer (Archive : Type) where
  | done
  | failed
  | listed (backups : List RemoteBackup)
  | fetched (copy : Archive)
  | verdict (ok : Bool)
  | manifest (manifest : BackupManifest)
deriving DecidableEq, Repr

/-- How the environment lets a call act and end. Nothing is assumed of it but that the call
itself was made: it may fail with or without an effect, break off, or take effect long before it
answers. -/
inductive Outcome (Archive : Type) where
  | ok
  /-- The call fails, before or after it took effect. -/
  | failed (applied : Bool)
  /-- An upload under way: the object is there, in part or in whole, and no answer yet. -/
  | underway (content : Archive) (lastModified : Nat)
  | stored (content : Archive) (lastModified : Nat) (answered : Bool)
  /-- A multipart upload is open on the remote, and stays open if nobody ends it. -/
  | opened (uploadId : Nat)
  /-- The clean-up of multipart uploads, with those whose abort fails. -/
  | cleaned (kept : List Nat)
  /-- A download breaks off and leaves a part of the file. -/
  | damaged (content : Archive)
  | written (content : Archive) (manifest : BackupManifest)
deriving DecidableEq, Repr

namespace Stores

variable {Archive : Type} (env : Env Archive) (s : Stores Archive)

def file? (path : Path) : Option Archive :=
  (RowTable.lookup Prod.fst path s.files).map Prod.snd

def object? (key : Key) : Option (RemoteObject Archive) :=
  RowTable.lookup RemoteObject.key key s.objects

def putFile (path : Path) (content : Archive) : Stores Archive :=
  { s with files := s.files.filter (fun entry => entry.1 ≠ path) ++ [(path, content)] }

def removeFile (path : Path) : Stores Archive :=
  { s with files := s.files.filter fun entry => entry.1 ≠ path }

def putObject (key : Key) (content : Archive) (lastModified : Nat) : Stores Archive :=
  { s with
    objects := s.objects.filter (fun object => object.key ≠ key) ++
      [⟨key, content, lastModified⟩] }

/-- Every stored version of the key goes. -/
def removeObject (key : Key) : Stores Archive :=
  { s with objects := s.objects.filter fun object => object.key ≠ key }

def openMultipart (key : Key) (uploadId : Nat) : Stores Archive :=
  { s with multiparts := s.multiparts ++ [⟨key, uploadId⟩] }

/-- Every multipart upload of the bucket is aborted, whatever its key. -/
def abortMultiparts (kept : List Nat) : Stores Archive :=
  { s with multiparts := s.multiparts.filter fun upload => upload.uploadId ∈ kept }

/-- The objects that one listing request answers, by key. A provider whose listing has no pages
answers all of them. -/
def page : List (RemoteObject Archive) :=
  let covered := (s.objects.filter fun object => env.destination.covers object.key).insertionSort
    fun a b => a.key ≤ b.key
  match env.destination.pageSize with
  | none => covered
  | some size => covered.take size

/-- The backup objects of a listing, newest first. -/
def listing : List RemoteBackup :=
  (((s.page env).filter fun object => env.destination.lists object.key).map fun object =>
    ⟨object.key, object.lastModified⟩).insertionSort
      fun a b => b.lastModified ≤ a.lastModified

def manifestOf (path : Path) : Option BackupManifest :=
  match s.file? path with
  | none => none
  | some archive =>
      match BackupArchive.readManifestFromArchive env.tools archive with
      | .ok manifest => some manifest
      | .error _ => none

/-- The effect of an awaited call and its answer, if it answers yet.  `none`: the call
cannot end in this way. -/
def land : Call Archive → Outcome Archive → Option (Stores Archive × Option (Answer Archive))
  | .cleanupInterruptedUploads, .cleaned kept => some (s.abortMultiparts kept, some .done)
  | .cleanupInterruptedUploads, .failed _ => some (s, some .done)
  | .list, .ok => some (s, some (.listed (s.listing env)))
  | .list, .failed _ => some (s, some .failed)
  | .openFile path, .ok =>
      match s.file? path with
      | some _ => some (s, some .done)
      | none => some (s, some .failed)
  | .openFile _, .failed _ => some (s, some .failed)
  | .upload key, .underway content lastModified =>
      some (s.putObject key content lastModified, none)
  | .upload key, .stored content lastModified answered =>
      some (s.putObject key content lastModified, some (if answered then .done else .failed))
  | .upload key, .opened uploadId => some (s.openMultipart key uploadId, none)
  | .upload _, .failed _ => some (s, some .failed)
  | .fetch key, .ok =>
      match s.object? key with
      | some object => some (s, some (.fetched object.content))
      | none => some (s, some .failed)
  | .fetch _, .failed _ => some (s, some .failed)
  | .verifyScratch copy manifest, .ok => some (s, some (.verdict (env.verifies copy manifest)))
  | .verifyScratch _ _, .failed _ => some (s, some .failed)
  | .download key destPath, .ok =>
      match s.object? key with
      | some object => some (s.putFile destPath object.content, some .done)
      | none => some (s, some .failed)
  | .download _ destPath, .damaged content => some (s.putFile destPath content, some .failed)
  | .download _ destPath, .failed applied =>
      some (if applied then s.removeFile destPath else s, some .failed)
  | .delete key, .ok => some (s.removeObject key, some .done)
  | .delete key, .failed applied =>
      some (if applied then s.removeObject key else s, some .failed)
  | .unlink path, .ok =>
      match s.file? path with
      | some _ => some (s.removeFile path, some .done)
      | none => some (s, some .failed)
  | .unlink _, .failed _ => some (s, some .failed)
  | .remove path, .ok => some (s.removeFile path, some .done)
  | .remove _, .failed _ => some (s, some .failed)
  | .createArchive path, .written content manifest =>
      some (s.putFile path content, some (.manifest manifest))
  | .createArchive path, .damaged content => some (s.putFile path content, some .failed)
  | .createArchive _, .failed _ => some (s, some .failed)
  | .verifyFile path manifest, .ok =>
      match s.file? path with
      | some archive => some (s, some (.verdict (env.verifies archive manifest)))
      | none => some (s, some (.verdict false))
  | .verifyFile _ _, .failed _ => some (s, some (.verdict false))
  | .readManifest path, .ok =>
      match s.manifestOf env path with
      | some manifest => some (s, some (.manifest manifest))
      | none => some (s, some .failed)
  | .readManifest _, .failed _ => some (s, some .failed)
  | .extract path, .ok =>
      match s.file? path with
      | some _ => some (s, some .done)
      | none => some (s, some .failed)
  | .extract _, .failed _ => some (s, some .failed)
  | .wait, .ok => some (s, some .done)
  | .wait, .failed _ => some (s, some .failed)
  | _, _ => none

section Stored

variable {env s}

@[simp]
theorem file?_putFile (path wanted : Path) (content : Archive) :
    (s.putFile path content).file? wanted =
      if wanted = path then some content else s.file? wanted := by
  simp only [file?, putFile, RowTable.lookup_append, RowTable.lookup_filter_ne]
  by_cases hwanted : wanted = path
  · simp [hwanted]
  · simp [hwanted, Ne.symm hwanted]

@[simp]
theorem file?_removeFile (path wanted : Path) :
    (s.removeFile path).file? wanted = if wanted = path then none else s.file? wanted := by
  simp only [file?, removeFile, RowTable.lookup_filter_ne]
  by_cases hwanted : wanted = path <;> simp [hwanted]

@[simp]
theorem object?_putObject (key wanted : Key) (content : Archive) (lastModified : Nat) :
    (s.putObject key content lastModified).object? wanted =
      if wanted = key then some ⟨key, content, lastModified⟩ else s.object? wanted := by
  simp only [object?, putObject, RowTable.lookup_append, RowTable.lookup_filter_ne]
  by_cases hwanted : wanted = key
  · simp [hwanted]
  · simp [hwanted, Ne.symm hwanted]

@[simp]
theorem object?_removeObject (key wanted : Key) :
    (s.removeObject key).object? wanted =
      if wanted = key then none else s.object? wanted := by
  simp only [object?, removeObject, RowTable.lookup_filter_ne]

@[simp]
theorem file?_putObject (key : Key) (content : Archive) (lastModified : Nat) (path : Path) :
    (s.putObject key content lastModified).file? path = s.file? path :=
  rfl

@[simp]
theorem file?_removeObject (key : Key) (path : Path) :
    (s.removeObject key).file? path = s.file? path :=
  rfl

@[simp]
theorem object?_putFile (path : Path) (content : Archive) (key : Key) :
    (s.putFile path content).object? key = s.object? key :=
  rfl

@[simp]
theorem object?_removeFile (path : Path) (key : Key) :
    (s.removeFile path).object? key = s.object? key :=
  rfl

theorem mem_of_mem_page {object : RemoteObject Archive} (hobject : object ∈ s.page env) :
    object ∈ s.objects := by
  have hcovered : object ∈ (s.objects.filter fun object =>
      env.destination.covers object.key).insertionSort fun a b => a.key ≤ b.key := by
    rw [page] at hobject
    cases hsize : env.destination.pageSize with
    | none => simpa [hsize] using hobject
    | some size =>
        simp only [hsize] at hobject
        exact List.mem_of_mem_take hobject
  exact (List.mem_filter.mp ((List.mem_insertionSort _).mp hcovered)).1

/-- Whatever a listing answers is an object of the bucket that it takes for a backup. -/
theorem exists_of_mem_listing {backup : RemoteBackup} (hbackup : backup ∈ s.listing env) :
    ∃ object ∈ s.objects, env.destination.lists object.key = true ∧
      backup = ⟨object.key, object.lastModified⟩ := by
  rw [listing, List.mem_insertionSort, List.mem_map] at hbackup
  obtain ⟨object, hobject, rfl⟩ := hbackup
  obtain ⟨hpage, hlists⟩ := List.mem_filter.mp hobject
  exact ⟨object, mem_of_mem_page hpage, hlists, rfl⟩

end Stored

end Stores

end Backups

end MailPanel

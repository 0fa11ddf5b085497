import MailPanel.BackupMachine

/-
Backups under a destination that changes: uploads, imports and prunes keep the destination
they have read, and rows are found by their remote key alone.
-/

namespace MailPanel

namespace Backups

/-- A destination as it is configured, with the server that `describe` may leave out. -/
structure Site where
  server : String
  type : DestinationType
  describe : String
  base : String
deriving DecidableEq, Repr

namespace Site

variable (site : Site)

/-- Where a destination keeps the archive of a backup. -/
def keyForBackup (backupId : BackupId) : Key := backupObjectKey site.base backupId

/-- Which keys `list` can answer: those beneath the destination's own base. -/
def lists (key : Key) : Bool :=
  (backupIdFromKey key).isSome &&
    match site.type with
    | .s3 => site.base.toList.isPrefixOf key.toList
    | .ftp =>
        let directory := if site.base = "" then "" else site.base ++ "/"
        decide (key = directory ++ String.ofList (baseName key))

end Site

/-- The packages that the archive code calls, the parsing of a time stamp, and where the
object of a key is stored. -/
structure SiteEnv (Archive Place : Type) where
  tools : BackupArchive.ArchiveTools Archive
  getTime : String → Nat
  place : Site → Key → Place

/-- The check of an archive against a manifest, as the panel makes it of a downloaded copy. -/
def SiteEnv.verifies {Archive Place : Type} (env : SiteEnv Archive Place) (archive : Archive)
    (manifest : BackupManifest) : Bool :=
  (BackupArchive.verifyBackupArchive env.tools archive manifest).ok

/-- A function held at an `await`, with the destination that it has read. What it goes on with
is decided by this old reading, even where the settings have been changed since. -/
inductive Activity (Archive : Type) where
  /-- `uploadOne` at the upload, the download and the check of the copy, and the removal of
  a copy that failed. -/
  | sending (site : Site) (upload : Upload)
  | fetching (site : Site) (upload : Upload)
  | checking (site : Site) (upload : Upload) (copy : Archive)
  | discarding (site : Site) (upload : Upload)
  /-- `reconcile` or `uploadBackup` before it prunes. -/
  | holding (site : Site)
  /-- `applyRemoteRetention`: its listing, a deletion, and the row of the deleted object. -/
  | listing (site : Site)
  | pruning (site : Site) (key : Key) (rest : List Key)
  | forgetting (site : Site) (key : Key) (rest : List Key)
  /-- `importFromRemote` at the download and at the check of what it gave. -/
  | importing (site : Site) (id : BackupId) (existing : Bool)
  | registering (site : Site) (id : BackupId) (existing : Bool) (copy : Archive)
  | ended
deriving DecidableEq, Repr

/-- How an awaited call goes on. A store may have taken an object although its call fails
later. -/
inductive Event (Archive : Type) where
  /-- An upload writes its object, in part or in whole. -/
  | stored (content : Archive)
  | done
  | failed
  /-- The answer to a listing, with the policy and the time at which it is used. -/
  | listed (backups : List RemoteBackup) (policy : RetentionPolicy) (now : Nat)
deriving DecidableEq, Repr

/-- Where a backup was last uploaded to or imported from, and the copy that was verified. -/
structure Home (Archive : Type) where
  site : Site
  copy : Archive
deriving DecidableEq, Repr

/-- What can happen next: a request or a job of the panel, an event of an activity, or what
another program does to the destinations. -/
inductive SiteLabel (Archive Place : Type) where
  | configure (site : Option Site)
  | create (id : BackupId) (manifest : BackupManifest)
  | verify (id : BackupId) (ok : Bool)
  | upload (id : BackupId)
  /-- `reconcile` or `uploadBackup` reads the destination that it will prune. -/
  | hold
  | importRemote (id : BackupId)
  | answer (index : Nat) (event : Event Archive)
  /-- `reclaimLocalStaging`. -/
  | reclaim (id : BackupId)
  /-- A deletion, or local retention, drops a row. -/
  | drop (id : BackupId)
  /-- The purge of a backup, or another program, changes what is stored. -/
  | store (place : Place) (content : Option Archive)
  | crash
deriving DecidableEq, Repr

/-- The rows, the configured destination, what the destinations hold, and the activities under
way. -/
structure SitePanel (Archive Place : Type) where
  rows : BackupTable
  configured : Option Site
  objects : Place → Option Archive
  activities : List (Activity Archive)
  /-- History. -/
  homes : BackupId → Option (Home Archive)

namespace BackupTable

/-- What `applyRemoteRetention` makes of the row of a deleted object. -/
def forgetPruned (rows : BackupTable) (key : Key) : BackupTable :=
  match rows.getRowByRemoteKey key with
  | none => rows
  | some row => if row.localPresent then rows.clearUpload row.id else rows.delete row.id

end BackupTable

namespace SitePanel

section Rows

variable {Archive Place : Type} (env : SiteEnv Archive Place) (p : SitePanel Archive Place)

/-- No backup has been made, and the destinations hold what they held before. -/
def initial (objects : Place → Option Archive) : SitePanel Archive Place where
  rows := []
  configured := none
  objects := objects
  activities := []
  homes := fun _ => none

/-- A further activity runs beside the others. -/
def start (activity : Activity Archive) : SitePanel Archive Place :=
  { p with activities := p.activities ++ [activity] }

/-- `markUploaded`, with the history: from now on the row's copy is at this destination. -/
def markUploaded (site : Site) (id : BackupId) (key : Key) (copy : Archive) :
    SitePanel Archive Place :=
  { p with
    rows := p.rows.markUploaded id site.describe key
    homes := Function.update p.homes id (some ⟨site, copy⟩) }

/-- The row says that its upload has failed, and everything else in it stays. -/
def markUploadFailed (id : BackupId) : SitePanel Archive Place :=
  { p with rows := p.rows.markUploadFailed id }

/-- `uploadOne` up to its call: the destination and the key are those of this moment. -/
def uploadOne (id : BackupId) : SitePanel Archive Place :=
  match p.configured, p.rows.getRowById id with
  | some site, some row =>
      if row.localPresent then
        { p with rows := p.rows.markUploading id }.start
          (.sending site ⟨id, site.keyForBackup id, row.filePath, row.manifest⟩)
      else p
  | _, _ => p

/-- `importFromRemote` up to its download. A row with a local archive needs none. -/
def importFromRemote (id : BackupId) : SitePanel Archive Place :=
  match p.configured with
  | none => p
  | some site =>
      match p.rows.getRowById id with
      | none => p.start (.importing site id false)
      | some row => if row.localPresent then p else p.start (.importing site id true)

/-- The manifest that an import checks against: the panel's own, or else the archive's. -/
def expectedManifest (id : BackupId) (copy : Archive) : Option BackupManifest :=
  match p.rows.getManifestById id with
  | some manifest => some manifest
  | none => (BackupArchive.readManifestFromArchive env.tools copy).toOption

/-- The end of an import. A row that was there gets its local archive back; its copy stays where
the row says it is. -/
def register (site : Site) (id : BackupId) (existing : Bool) (copy : Archive)
    (expected : BackupManifest) : SitePanel Archive Place :=
  if existing then { p with rows := p.rows.markLocalRestored id }
  else
    match p.rows.insert (env.getTime expected.createdAt) ⟨id, archivePath id, expected⟩ with
    | none => p
    | some rows => { p with rows := rows }.markUploaded site id (site.keyForBackup id) copy

/-- The activity for the objects that are still to be deleted. -/
def prune (site : Site) : List Key → Activity Archive
  | [] => .ended
  | key :: rest => .pruning site key rest

/-- What retention takes from a listing: the rule sees the keys and their dates and not the
rows. -/
def selectPruned (site : Site) (backups : List RemoteBackup) (policy : RetentionPolicy)
    (now : Nat) : List Key :=
  selectBackupsForDeletion ((backups.filter fun backup => site.lists backup.key).map
    fun backup => ⟨backup.key, backup.lastModified⟩) policy now none

/-- The verified copy of a row lives at another destination than this one. -/
def LivesElsewhere (site : Site) (row : BackupRow) : Prop :=
  ∃ home, p.homes row.id = some home ∧ home.site ≠ site ∧
    ∃ key, row.remoteKey = some key ∧ p.objects (env.place home.site key) = some home.copy

/-- What a prune at a destination does to the rows: those whose copy is recorded elsewhere, or
lives elsewhere, are all still there. -/
structure Spares (site : Site) (after : SitePanel Archive Place) : Prop where
  recorded : ∀ row ∈ p.rows, row.uploadDestination ≠ some site.describe → row ∈ after.rows
  living : ∀ row ∈ p.rows, p.LivesElsewhere env site row → row ∈ after.rows

end Rows

section Steps

variable {Archive Place : Type} [DecidableEq Place] (env : SiteEnv Archive Place)
  (p : SitePanel Archive Place)

/-- An object appears, changes or disappears, and everything else stays. -/
def setObject (place : Place) (content : Option Archive) : SitePanel Archive Place :=
  { p with objects := Function.update p.objects place content }

/-- An activity after an event of its call. Every case is one point at which the code goes on
after a wait. -/
def settle : Activity Archive → Event Archive → SitePanel Archive Place × Activity Archive
  | .sending site upload, .stored content =>
      (p.setObject (env.place site upload.key) (some content), .sending site upload)
  | .sending site upload, .done => (p, .fetching site upload)
  | .sending site upload, .failed => (p, .discarding site upload)
  | .fetching site upload, .done =>
      match p.objects (env.place site upload.key) with
      | none => (p, .discarding site upload)
      | some copy => (p, .checking site upload copy)
  | .fetching site upload, .failed => (p, .discarding site upload)
  | .checking site upload copy, .done =>
      if env.verifies copy upload.manifest then
        (p.markUploaded site upload.id upload.key copy, .ended)
      else (p, .discarding site upload)
  | .checking site upload _, .failed => (p, .discarding site upload)
  | .discarding site upload, .done =>
      ((p.setObject (env.place site upload.key) none).markUploadFailed upload.id, .ended)
  | .discarding _ upload, .failed => (p.markUploadFailed upload.id, .ended)
  | .holding site, .done => (p, .listing site)
  | .holding _, .failed => (p, .ended)
  | .listing site, .listed backups policy now =>
      (p, prune site (selectPruned site backups policy now))
  | .listing _, .failed => (p, .ended)
  | .pruning site key rest, .done =>
      (p.setObject (env.place site key) none, .forgetting site key rest)
  | .pruning _ _ _, .failed => (p, .ended)
  | .forgetting site key rest, .done =>
      ({ p with rows := p.rows.forgetPruned key }, prune site rest)
  | .importing site id existing, .done =>
      match p.objects (env.place site (site.keyForBackup id)) with
      | none => (p, .ended)
      | some copy => (p, .registering site id existing copy)
  | .importing _ _ _, .failed => (p, .ended)
  | .registering site id existing copy, .done =>
      match p.expectedManifest env id copy with
      | none => (p, .ended)
      | some expected =>
          if env.verifies copy expected then
            (p.register env site id existing copy expected, .ended)
          else (p, .ended)
  | .registering _ _ _ _, .failed => (p, .ended)
  | activity, _ => (p, activity)

/-- An event reaches the activity at this place; the other activities do not move. -/
def answer (index : Nat) (event : Event Archive) : SitePanel Archive Place :=
  match p.activities[index]? with
  | none => p
  | some activity =>
      let next := p.settle env activity event
      { next.1 with activities := next.1.activities.set index next.2 }

/-- One step of the panel or of the world around it. Objects may appear in any store at any
time, and the destination may be configured anew while a function is held at an `await`. -/
def step (label : SiteLabel Archive Place) : SitePanel Archive Place :=
  match label with
  | .configure site => { p with configured := site }
  | .create id manifest =>
      if validBackupId id then
        match p.rows.insert (env.getTime manifest.createdAt) ⟨id, archivePath id, manifest⟩ with
        | none => p
        | some rows => { p with rows := rows }
      else p
  | .verify id ok =>
      { p with rows := if ok then p.rows.markVerified id else p.rows.markVerificationFailed id }
  | .upload id => p.uploadOne id
  | .hold =>
      match p.configured with
      | none => p
      | some site => p.start (.holding site)
  | .importRemote id => if validBackupId id then p.importFromRemote id else p
  | .answer index event => p.answer env index event
  | .reclaim id =>
      match p.rows.getRowById id with
      | none => p
      | some row =>
          if row.uploadStatus = .uploaded then { p with rows := p.rows.markLocalReclaimed id }
          else p
  | .drop id => { p with rows := p.rows.delete id }
  | .store place content => p.setObject place content
  | .crash => { p with activities := [] }

/-- Several steps, one after the other. -/
abbrev run (labels : List (SiteLabel Archive Place)) : SitePanel Archive Place :=
  StepRun.run (step env) p labels

/-- When the object of a key has been pruned, only rows recorded at the pruned destination
are changed, and none whose copy lives at another. -/
def PrunesApart (label : SiteLabel Archive Place) : Prop :=
  ∀ index site key rest, p.activities[index]? = some (.forgetting site key rest) →
    label = .answer index .done → p.Spares env site (p.step env label)

/-- A row that carries the key of a pruned object is of a backup last uploaded to, or imported
from, the pruned destination; or one of the same description, where its copy is no more. -/
def PrunesOwn (label : SiteLabel Archive Place) : Prop :=
  ∀ index site key rest, p.activities[index]? = some (.forgetting site key rest) →
    label = .answer index .done → ∀ row, p.rows.getRowByRemoteKey key = some row →
      ∃ home, p.homes row.id = some home ∧ (home.site = site ∨
        home.site.describe = site.describe ∧
          p.objects (env.place home.site key) ≠ some home.copy)

end Steps

end SitePanel

namespace BackupTable

variable {rows : BackupTable} {key : Key} {found row : BackupRow}

theorem mem_forgetPruned_of_ne (hrow : row ∈ rows)
    (hother : ∀ found, rows.getRowByRemoteKey key = some found → row.id ≠ found.id) :
    row ∈ rows.forgetPruned key := by
  rw [forgetPruned]
  cases hfound : rows.getRowByRemoteKey key with
  | none => exact hrow
  | some found =>
      have hne := hother found hfound
      dsimp only
      split
      · exact mem_setRow.mpr (Or.inl ⟨hrow, hne⟩)
      · exact List.mem_filter.mpr ⟨hrow, decide_eq_true hne⟩

/-- The row that carries the key does not stay as it is. -/
theorem notMem_forgetPruned (hfound : rows.getRowByRemoteKey key = some found) :
    found ∉ rows.forgetPruned key := by
  intro hmem
  obtain ⟨-, hkey⟩ := mem_of_getRowByRemoteKey hfound
  rw [forgetPruned, hfound] at hmem
  dsimp only at hmem
  split at hmem
  · rcases mem_setRow.mp hmem with ⟨-, hne⟩ | ⟨old, -, -, hcleared⟩
    · exact hne rfl
    · rw [hcleared] at hkey
      cases hkey
  · exact id_ne_of_mem_delete hmem rfl

theorem mem_forgetPruned (hrow : row ∈ rows.forgetPruned key) :
    row ∈ rows ∨ row.remoteKey = none ∧ ∃ old ∈ rows, old.id = row.id := by
  rw [forgetPruned] at hrow
  cases hfound : rows.getRowByRemoteKey key with
  | none =>
      rw [hfound] at hrow
      exact Or.inl hrow
  | some found =>
      rw [hfound] at hrow
      dsimp only at hrow
      split at hrow
      · rcases mem_setRow.mp hrow with ⟨hold, -⟩ | ⟨old, hold, -, rfl⟩
        · exact Or.inl hold
        · exact Or.inr ⟨rfl, old, hold, rfl⟩
      · exact Or.inl (mem_delete hrow)

theorem nodup_setRow {id : BackupId} {change : BackupRow → BackupRow}
    (hid : ∀ row, (change row).id = row.id) (hnodup : (rows.map BackupRow.id).Nodup) :
    ((rows.setRow id change).map BackupRow.id).Nodup := by
  rw [map_id_setRow hid]
  exact hnodup

theorem nodup_forgetPruned (hnodup : (rows.map BackupRow.id).Nodup) :
    ((rows.forgetPruned key).map BackupRow.id).Nodup := by
  rw [forgetPruned]
  cases rows.getRowByRemoteKey key with
  | none => exact hnodup
  | some found =>
      dsimp only
      split
      · exact nodup_setRow (fun _ => rfl) hnodup
      · exact nodup_delete hnodup

end BackupTable

/-- A row with a remote key was uploaded to, or imported from, a known destination, as it is
recorded. -/
structure Homed {Archive : Type} (known : Site → Prop) (homes : BackupId → Option (Home Archive))
    (row : BackupRow) : Prop where
  slashFree : SlashFree row.id
  home : ∀ key, row.remoteKey = some key → ∃ home, homes row.id = some home ∧
    known home.site ∧ row.uploadDestination = some home.site.describe ∧
      key = home.site.keyForBackup row.id

/-- The destination that an activity works with is a known one, and its key is the one this
destination has for the backup. -/
def Activity.Sound {Archive : Type} (known : Site → Prop) : Activity Archive → Prop
  | .sending site upload => known site ∧ upload.key = site.keyForBackup upload.id
  | .fetching site upload => known site ∧ upload.key = site.keyForBackup upload.id
  | .checking site upload _ => known site ∧ upload.key = site.keyForBackup upload.id
  | .discarding site upload => known site ∧ upload.key = site.keyForBackup upload.id
  | .holding site => known site
  | .listing site => known site
  | .pruning site key rest => known site ∧ ∀ listed ∈ key :: rest, site.lists listed = true
  | .forgetting site key rest => known site ∧ ∀ listed ∈ key :: rest, site.lists listed = true
  | .importing site id _ => known site ∧ SlashFree id
  | .registering site id _ _ => known site ∧ SlashFree id
  | .ended => True

namespace SitePanel

variable {Archive Place : Type} {p : SitePanel Archive Place}

/-- What holds after every step: ids are unique, and rows and activities only speak of
destinations that were configured. -/
structure Sound (known : Site → Prop) (p : SitePanel Archive Place) : Prop where
  ids : (p.rows.map BackupRow.id).Nodup
  rows : ∀ row ∈ p.rows, Homed known p.homes row
  configured : ∀ site, p.configured = some site → known site
  activities : ∀ activity ∈ p.activities, activity.Sound known

variable {known : Site → Prop}

namespace Sound

/-- A change of a row that keeps its id and where its upload is. -/
theorem setRow (hsound : p.Sound known) (id : BackupId) {change : BackupRow → BackupRow}
    (hid : ∀ row, (change row).id = row.id)
    (hkey : ∀ row, (change row).remoteKey = row.remoteKey)
    (hdestination : ∀ row, (change row).uploadDestination = row.uploadDestination) :
    { p with rows := p.rows.setRow id change }.Sound known where
  ids := BackupTable.nodup_setRow hid hsound.ids
  rows := by
    refine BackupTable.forall_setRow hsound.rows ?_
    intro row _ _ hhomed
    constructor
    · rw [hid row]
      exact hhomed.slashFree
    · rw [hid row, hkey row, hdestination row]
      exact hhomed.home
  configured := hsound.configured
  activities := hsound.activities

theorem ofRows (hsound : p.Sound known) {rows : BackupTable}
    (hids : (rows.map BackupRow.id).Nodup)
    (hrows : ∀ row ∈ rows, row ∈ p.rows ∨
      row.remoteKey = none ∧ SlashFree row.id) : { p with rows := rows }.Sound known where
  ids := hids
  rows := by
    intro row hrow
    rcases hrows row hrow with hold | ⟨hnone, hslash⟩
    · exact hsound.rows row hold
    · refine ⟨hslash, ?_⟩
      intro key hkey
      rw [hnone] at hkey
      cases hkey
  configured := hsound.configured
  activities := hsound.activities

theorem forgetPruned (hsound : p.Sound known) (key : Key) :
    { p with rows := p.rows.forgetPruned key }.Sound known := by
  refine hsound.ofRows (BackupTable.nodup_forgetPruned hsound.ids) ?_
  intro row hrow
  rcases BackupTable.mem_forgetPruned hrow with hold | ⟨hnone, old, hold, hid⟩
  · exact Or.inl hold
  · refine Or.inr ⟨hnone, ?_⟩
    rw [← hid]
    exact (hsound.rows old hold).slashFree

theorem drop (hsound : p.Sound known) (id : BackupId) :
    { p with rows := p.rows.delete id }.Sound known :=
  hsound.ofRows (BackupTable.nodup_delete hsound.ids)
    fun _ hrow => Or.inl (BackupTable.mem_delete hrow)

theorem insert (hsound : p.Sound known) {createdAt : Nat} {params : InsertBackupParams}
    {rows : BackupTable} (hid : SlashFree params.id)
    (hinsert : p.rows.insert createdAt params = some rows) :
    { p with rows := rows }.Sound known := by
  refine hsound.ofRows (BackupTable.nodup_insert hinsert hsound.ids) ?_
  obtain ⟨-, rfl⟩ := BackupTable.insert_eq_some hinsert
  intro row hrow
  rcases List.mem_append.mp hrow with hold | hnew
  · exact Or.inl hold
  · rw [List.mem_singleton.mp hnew]
    exact Or.inr ⟨rfl, hid⟩

theorem markUploaded (hsound : p.Sound known) {site : Site} (hsite : known site)
    (id : BackupId) (copy : Archive) :
    (p.markUploaded site id (site.keyForBackup id) copy).Sound known where
  ids := BackupTable.nodup_setRow (fun _ => rfl) hsound.ids
  rows := by
    intro row hrow
    rcases BackupTable.mem_setRow.mp hrow with ⟨hold, hne⟩ | ⟨old, hold, hid, rfl⟩
    · obtain ⟨hslash, hhome⟩ := hsound.rows row hold
      refine ⟨hslash, ?_⟩
      intro key hkey
      obtain ⟨home, hfound, hrest⟩ := hhome key hkey
      have hsame : (p.markUploaded site id (site.keyForBackup id) copy).homes row.id =
          p.homes row.id := Function.update_of_ne hne _ _
      exact ⟨home, hsame.trans hfound, hrest⟩
    · refine ⟨(hsound.rows old hold).slashFree, ?_⟩
      intro key hkey
      have hnew : (p.markUploaded site id (site.keyForBackup id) copy).homes id =
          some ⟨site, copy⟩ := Function.update_self _ _ _
      dsimp only at hkey ⊢
      rw [hid]
      exact ⟨⟨site, copy⟩, hnew, hsite, rfl, (Option.some.inj hkey).symm⟩
  configured := hsound.configured
  activities := hsound.activities

theorem start (hsound : p.Sound known) {activity : Activity Archive}
    (hactivity : activity.Sound known) : (p.start activity).Sound known where
  ids := hsound.ids
  rows := hsound.rows
  configured := hsound.configured
  activities := by
    intro other hother
    rcases List.mem_append.mp hother with hold | hnew
    · exact hsound.activities other hold
    · rw [List.mem_singleton.mp hnew]
      exact hactivity

theorem setObject [DecidableEq Place] (hsound : p.Sound known) (place : Place)
    (content : Option Archive) :
    (p.setObject place content).Sound known :=
  ⟨hsound.ids, hsound.rows, hsound.configured, hsound.activities⟩

theorem markUploadFailed (hsound : p.Sound known) (id : BackupId) :
    (p.markUploadFailed id).Sound known :=
  hsound.setRow id (fun _ => rfl) (fun _ => rfl) (fun _ => rfl)

theorem register (hsound : p.Sound known) (env : SiteEnv Archive Place) {site : Site} {id : BackupId} (hsite : known site)
    (hid : SlashFree id) (existing : Bool) (copy : Archive) (expected : BackupManifest) :
    (p.register env site id existing copy expected).Sound known := by
  rw [SitePanel.register]
  split
  · exact hsound.setRow id (fun _ => rfl) (fun _ => rfl) (fun _ => rfl)
  · split
    · exact hsound
    · rename_i rows hinsert
      exact Sound.markUploaded (hsound.insert hid hinsert) hsite id copy

end Sound

theorem selectPruned_lists {site : Site} {backups : List RemoteBackup} {policy : RetentionPolicy}
    {now : Nat} {key : Key} (hkey : key ∈ selectPruned site backups policy now) :
    site.lists key = true := by
  have hcandidate := mem_of_mem_selectBackupsForDeletion hkey
  rw [List.map_map] at hcandidate
  obtain ⟨backup, hbackup, rfl⟩ := List.mem_map.mp hcandidate
  exact (List.mem_filter.mp hbackup).2

theorem prune_sound {site : Site} (hsite : known site) {keys : List Key}
    (hkeys : ∀ key ∈ keys, site.lists key = true) :
    (prune site keys : Activity Archive).Sound known := by
  cases keys with
  | nil => trivial
  | cons key rest => exact ⟨hsite, hkeys⟩

theorem Sound.uploadOne (hsound : p.Sound known) (id : BackupId) :
    (p.uploadOne id).Sound known := by
  rw [SitePanel.uploadOne]
  split
  · rename_i site row hconfigured _
    split
    · have hmarked : { p with rows := p.rows.markUploading id }.Sound known :=
        hsound.setRow id (fun _ => rfl) (fun _ => rfl) (fun _ => rfl)
      exact hmarked.start ⟨hsound.configured site hconfigured, rfl⟩
    · exact hsound
  · exact hsound

theorem Sound.importFromRemote (hsound : p.Sound known) {id : BackupId} (hid : SlashFree id) :
    (p.importFromRemote id).Sound known := by
  rw [SitePanel.importFromRemote]
  split
  · exact hsound
  · rename_i site hconfigured
    have hsite := hsound.configured site hconfigured
    split
    · exact hsound.start ⟨hsite, hid⟩
    · split
      · exact hsound
      · exact hsound.start ⟨hsite, hid⟩

theorem Sound.initial (known : Site → Prop) (objects : Place → Option Archive) :
    (SitePanel.initial objects : SitePanel Archive Place).Sound known where
  ids := List.nodup_nil
  rows := fun _ hnone => nomatch hnone
  configured := nofun
  activities := fun _ hnone => nomatch hnone

/-- A row is recorded where its backup went last: the description in the row and the home of the
backup tell the same, up to two destinations of one description. -/
theorem Sound.recorded_iff (hsound : p.Sound known) (env : SiteEnv Archive Place) {key : Key} {row : BackupRow}
    (hrow : p.rows.getRowByRemoteKey key = some row) (site : Site) :
    row.uploadDestination = some site.describe ∧ ¬p.LivesElsewhere env site row ↔
      ∃ home, p.homes row.id = some home ∧ (home.site = site ∨
        home.site.describe = site.describe ∧
          p.objects (env.place home.site key) ≠ some home.copy) := by
  obtain ⟨hmem, hkey⟩ := BackupTable.mem_of_getRowByRemoteKey hrow
  obtain ⟨home, hhome, -, hrecorded, -⟩ := (hsound.rows row hmem).home key hkey
  constructor
  · rintro ⟨hdescribe, hlives⟩
    refine ⟨home, hhome, ?_⟩
    by_cases hsite : home.site = site
    · exact Or.inl hsite
    · refine Or.inr ⟨?_, ?_⟩
      · rw [hrecorded] at hdescribe
        exact Option.some.inj hdescribe
      · exact fun hstored => hlives ⟨home, hhome, hsite, key, hkey, hstored⟩
  · rintro ⟨other, hother, hown⟩
    rw [hhome] at hother
    cases hother
    constructor
    · rcases hown with rfl | ⟨hdescribe, -⟩
      · exact hrecorded
      · rw [hrecorded, hdescribe]
    · rintro ⟨last, hlast, hne, carried, hcarried, hstored⟩
      rw [hhome] at hlast
      cases hlast
      rw [hkey] at hcarried
      cases hcarried
      rcases hown with hsite | ⟨-, hgone⟩
      · exact hne hsite
      · exact hgone hstored

section Steps

variable [DecidableEq Place] (env : SiteEnv Archive Place)

/-- An event keeps the panel sound, and the activity that it goes to. The activity goes on with
the destination that it began with. -/
theorem Sound.settled (hsound : p.Sound known) {activity : Activity Archive}
    (hactivity : activity.Sound known) (event : Event Archive) :
    (p.settle env activity event).1.Sound known ∧
      (p.settle env activity event).2.Sound known := by
  cases activity with
  | sending site upload =>
      cases event with
      | stored content => exact ⟨hsound.setObject _ _, hactivity⟩
      | done => exact ⟨hsound, hactivity⟩
      | failed => exact ⟨hsound, hactivity⟩
      | listed backups policy now => exact ⟨hsound, hactivity⟩
  | fetching site upload =>
      cases event with
      | stored content => exact ⟨hsound, hactivity⟩
      | done =>
          rw [settle]
          split
          · exact ⟨hsound, hactivity⟩
          · exact ⟨hsound, hactivity⟩
      | failed => exact ⟨hsound, hactivity⟩
      | listed backups policy now => exact ⟨hsound, hactivity⟩
  | checking site upload copy =>
      cases event with
      | stored content => exact ⟨hsound, hactivity⟩
      | done =>
          obtain ⟨hsite, hkey⟩ := hactivity
          rw [settle]
          split
          · rw [hkey]
            exact ⟨hsound.markUploaded hsite upload.id copy, trivial⟩
          · exact ⟨hsound, hsite, hkey⟩
      | failed => exact ⟨hsound, hactivity⟩
      | listed backups policy now => exact ⟨hsound, hactivity⟩
  | discarding site upload =>
      cases event with
      | stored content => exact ⟨hsound, hactivity⟩
      | done => exact ⟨(hsound.setObject _ _).markUploadFailed upload.id, trivial⟩
      | failed => exact ⟨hsound.markUploadFailed upload.id, trivial⟩
      | listed backups policy now => exact ⟨hsound, hactivity⟩
  | holding site =>
      cases event with
      | stored content => exact ⟨hsound, hactivity⟩
      | done => exact ⟨hsound, hactivity⟩
      | failed => exact ⟨hsound, trivial⟩
      | listed backups policy now => exact ⟨hsound, hactivity⟩
  | listing site =>
      cases event with
      | stored content => exact ⟨hsound, hactivity⟩
      | done => exact ⟨hsound, hactivity⟩
      | failed => exact ⟨hsound, trivial⟩
      | listed backups policy now =>
          exact ⟨hsound, prune_sound hactivity fun key hkey => selectPruned_lists hkey⟩
  | pruning site key rest =>
      cases event with
      | stored content => exact ⟨hsound, hactivity⟩
      | done => exact ⟨hsound.setObject _ _, hactivity⟩
      | failed => exact ⟨hsound, trivial⟩
      | listed backups policy now => exact ⟨hsound, hactivity⟩
  | forgetting site key rest =>
      cases event with
      | stored content => exact ⟨hsound, hactivity⟩
      | done =>
          refine ⟨hsound.forgetPruned key, prune_sound hactivity.1 ?_⟩
          exact fun listed hlisted => hactivity.2 listed (List.mem_cons_of_mem key hlisted)
      | failed => exact ⟨hsound, hactivity⟩
      | listed backups policy now => exact ⟨hsound, hactivity⟩
  | importing site id existing =>
      cases event with
      | stored content => exact ⟨hsound, hactivity⟩
      | done =>
          rw [settle]
          split
          · exact ⟨hsound, trivial⟩
          · exact ⟨hsound, hactivity⟩
      | failed => exact ⟨hsound, trivial⟩
      | listed backups policy now => exact ⟨hsound, hactivity⟩
  | registering site id existing copy =>
      cases event with
      | stored content => exact ⟨hsound, hactivity⟩
      | done =>
          rw [settle]
          split
          · exact ⟨hsound, trivial⟩
          · split
            · exact ⟨hsound.register env hactivity.1 hactivity.2 existing copy _, trivial⟩
            · exact ⟨hsound, trivial⟩
      | failed => exact ⟨hsound, trivial⟩
      | listed backups policy now => exact ⟨hsound, hactivity⟩
  | ended =>
      rw [settle]
      · exact ⟨hsound, trivial⟩
      all_goals nofun

theorem Sound.answer (hsound : p.Sound known) (index : Nat) (event : Event Archive) :
    (p.answer env index event).Sound known := by
  rw [SitePanel.answer]
  cases hactivity : p.activities[index]? with
  | none => exact hsound
  | some activity =>
      have hmem := List.mem_of_getElem? hactivity
      obtain ⟨hpanel, hnext⟩ := hsound.settled env (hsound.activities activity hmem) event
      refine ⟨hpanel.ids, hpanel.rows, hpanel.configured, ?_⟩
      intro other hother
      rcases List.mem_or_eq_of_mem_set hother with hold | rfl
      · exact hpanel.activities other hold
      · exact hnext

/-- Every step keeps the panel sound, if the destination that it configures is known. -/
theorem Sound.step (hsound : p.Sound known) (label : SiteLabel Archive Place)
    (hknown : ∀ site, label = .configure (some site) → known site) :
    (p.step env label).Sound known := by
  cases label with
  | configure site =>
      refine ⟨hsound.ids, hsound.rows, ?_, hsound.activities⟩
      rintro other rfl
      exact hknown other rfl
  | create id manifest =>
      rw [SitePanel.step]
      split
      · rename_i hvalid
        split
        · exact hsound
        · rename_i rows hinsert
          exact hsound.insert (slashFree_of_valid hvalid) hinsert
      · exact hsound
  | verify id ok =>
      cases ok with
      | true => exact hsound.setRow id (fun _ => rfl) (fun _ => rfl) (fun _ => rfl)
      | false => exact hsound.setRow id (fun _ => rfl) (fun _ => rfl) (fun _ => rfl)
  | upload id => exact hsound.uploadOne id
  | hold =>
      rw [SitePanel.step]
      split
      · exact hsound
      · rename_i site hconfigured
        exact hsound.start (hsound.configured site hconfigured)
  | importRemote id =>
      rw [SitePanel.step]
      split
      · rename_i hvalid
        exact hsound.importFromRemote (slashFree_of_valid hvalid)
      · exact hsound
  | answer index event => exact hsound.answer env index event
  | reclaim id =>
      rw [SitePanel.step]
      split
      · exact hsound
      · split
        · exact hsound.setRow id (fun _ => rfl) (fun _ => rfl) (fun _ => rfl)
        · exact hsound
  | drop id => exact hsound.drop id
  | store place content => exact hsound.setObject place content
  | crash => exact ⟨hsound.ids, hsound.rows, hsound.configured, fun _ hnone => nomatch hnone⟩

theorem rows_forgetting {index : Nat} {site : Site} {key : Key} {rest : List Key}
    (hactivity : p.activities[index]? = some (.forgetting site key rest)) :
    (p.step env (.answer index .done)).rows = p.rows.forgetPruned key := by
  rw [SitePanel.step, SitePanel.answer, hactivity]
  rfl

/-- The row of a pruned object is changed, and no other. The row is found by the key alone, so
it spares the rows of other destinations exactly if that row is recorded at this one. -/
theorem prunesApart_iff_recorded (hids : (p.rows.map BackupRow.id).Nodup) {index : Nat}
    {site : Site} {key : Key} {rest : List Key}
    (hactivity : p.activities[index]? = some (.forgetting site key rest)) :
    p.Spares env site (p.step env (.answer index .done)) ↔
      ∀ row, p.rows.getRowByRemoteKey key = some row →
        row.uploadDestination = some site.describe ∧ ¬p.LivesElsewhere env site row := by
  constructor
  · intro hspares row hrow
    obtain ⟨hmem, -⟩ := BackupTable.mem_of_getRowByRemoteKey hrow
    have hgone : row ∉ (p.step env (.answer index .done)).rows := by
      rw [rows_forgetting env hactivity]
      exact BackupTable.notMem_forgetPruned hrow
    constructor
    · by_contra hother
      exact hgone (hspares.recorded row hmem hother)
    · exact fun hlives => hgone (hspares.living row hmem hlives)
  · intro hfound
    have hkept : ∀ row ∈ p.rows, p.rows.getRowByRemoteKey key ≠ some row →
        row ∈ (p.step env (.answer index .done)).rows := by
      intro row hrow hother
      rw [rows_forgetting env hactivity]
      refine BackupTable.mem_forgetPruned_of_ne hrow ?_
      intro found hcarries hid
      obtain ⟨hmem, -⟩ := BackupTable.mem_of_getRowByRemoteKey hcarries
      rw [List.inj_on_of_nodup_map hids hrow hmem hid] at hother
      exact hother hcarries
    constructor
    · intro row hrow hrecorded
      exact hkept row hrow fun hcarries => hrecorded (hfound row hcarries).1
    · intro row hrow hlives
      exact hkept row hrow fun hcarries => (hfound row hcarries).2 hlives

theorem Sound.apart_iff_own (hsound : p.Sound known) (label : SiteLabel Archive Place) :
    p.PrunesApart env label ↔ p.PrunesOwn env label := by
  constructor
  · rintro hapart index site key rest hactivity rfl row hrow
    have hspares := hapart index site key rest hactivity rfl
    rw [prunesApart_iff_recorded env hsound.ids hactivity] at hspares
    exact (hsound.recorded_iff env hrow site).mp (hspares row hrow)
  · rintro hown index site key rest hactivity rfl
    rw [prunesApart_iff_recorded env hsound.ids hactivity]
    intro row hrow
    exact (hsound.recorded_iff env hrow site).mpr (hown index site key rest hactivity rfl row hrow)

/-- Prunes leave what is stored elsewhere alone exactly where the backups whose objects they
delete went to the pruned destination last. The row that a deleted object leads to is found by
the key alone, and two destinations may use the same keys. -/
theorem prunesApart_iff (objects : Place → Option Archive)
    (labels : List (SiteLabel Archive Place)) :
    StepRun.Meets (step env) (PrunesApart env) (initial objects) labels ↔
      StepRun.Meets (step env) (PrunesOwn env) (initial objects) labels := by
  have hstep : ∀ (panel : SitePanel Archive Place) label, panel.Sound (fun _ => True) →
      (panel.step env label).Sound fun _ => True := fun _ label hsound =>
    hsound.step env label fun _ _ => trivial
  constructor
  · apply StepRun.meets_of_meets (step env) (Sound fun _ => True)
    · intro panel label hsound hapart
      exact ⟨(hsound.apart_iff_own env label).mp hapart, hstep panel label hsound⟩
    · exact Sound.initial _ objects
  · apply StepRun.meets_of_meets (step env) (Sound fun _ => True)
    · intro panel label hsound hown
      exact ⟨(hsound.apart_iff_own env label).mpr hown, hstep panel label hsound⟩
    · exact Sound.initial _ objects

/-- The destinations of a run, in the order in which they were configured. -/
def configuredSites (labels : List (SiteLabel Archive Place)) : List Site :=
  labels.filterMap fun
    | .configure site => site
    | _ => none

/-- Destinations that never list each other's backups are pruned apart. It is the usual case,
two destinations with prefixes of which none lies under the other. -/
theorem prunesApart_of_disjoint (objects : Place → Option Archive)
    {labels : List (SiteLabel Archive Place)}
    (hdisjoint : ∀ site ∈ configuredSites labels, ∀ other ∈ configuredSites labels,
      other ≠ site → ∀ id, SlashFree id → site.lists (other.keyForBackup id) = false) :
    StepRun.Meets (step env) (PrunesApart env) (initial objects) labels := by
  have hknown : StepRun.Meets (step env) (fun _ label => ∀ site,
      label = .configure (some site) → site ∈ configuredSites labels) (initial objects)
      labels := by
    apply StepRun.meets_of_forall
    rintro label hlabel _ site rfl
    exact List.mem_filterMap.mpr ⟨_, hlabel, rfl⟩
  refine StepRun.meets_of_meets (step env) (Sound (· ∈ configuredSites labels)) ?_
    (Sound.initial _ objects) hknown
  intro panel label hsound hconfigured
  refine ⟨(hsound.apart_iff_own env label).mpr ?_, hsound.step env label hconfigured⟩
  intro index site key rest hactivity _ row hrow
  obtain ⟨hmem, hkey⟩ := BackupTable.mem_of_getRowByRemoteKey hrow
  obtain ⟨home, hhome, hlast, -, hsame⟩ := (hsound.rows row hmem).home key hkey
  obtain ⟨hsite, hlisted⟩ := hsound.activities _ (List.mem_of_getElem? hactivity)
  refine ⟨home, hhome, Or.inl ?_⟩
  by_contra hne
  have hlists := hlisted key List.mem_cons_self
  rw [hsame, hdisjoint site hsite home.site hlast hne row.id (hsound.rows row hmem).slashFree]
    at hlists
  cases hlists

end Steps

end SitePanel

namespace Returned

open SitePanel
open Sample (tools manifest)

def near : Site := ⟨"near", .s3, "s3://mail/backups", "backups"⟩
def far : Site := ⟨"far", .s3, "s3://archive/backups", "backups"⟩

def env : SiteEnv Nat (String × Key) where
  tools := tools
  getTime := String.length
  place := fun site key => (site.server, key)

/-- An upload that is verified, at this place among the activities. -/
def uploaded (id : BackupId) (index archive : Nat) : List (SiteLabel Nat (String × Key)) :=
  [.upload id, .answer index (.stored archive), .answer index .done, .answer index .done,
    .answer index .done]

/-- A backup goes to one destination, is fetched back, and goes to another. -/
def moved : List (SiteLabel Nat (String × Key)) :=
  ([.configure (some near), .create "bkp_1" (manifest 1)] : List (SiteLabel Nat (String × Key))) ++
    uploaded "bkp_1" 0 1 ++
    ([.reclaim "bkp_1", .importRemote "bkp_1", .answer 1 .done, .answer 1 .done,
      .configure (some far)] : List (SiteLabel Nat (String × Key))) ++
    uploaded "bkp_1" 2 1 ++ ([.reclaim "bkp_1"] : List (SiteLabel Nat (String × Key)))

/-- The first destination is configured again, and keeps its newest backup only. -/
def returned : List (SiteLabel Nat (String × Key)) :=
  ([.configure (some near), .create "bkp_2" (manifest 2)] : List (SiteLabel Nat (String × Key))) ++
    uploaded "bkp_2" 3 2 ++
    ([.hold, .answer 4 .done,
      .answer 4 (.listed [⟨"backups/bkp_2.tar", 200⟩, ⟨"backups/bkp_1.tar", 100⟩] ⟨1, none⟩ 300),
      .answer 4 .done] : List (SiteLabel Nat (String × Key)))

def before : SitePanel Nat (String × Key) :=
  (initial fun _ => none).run env (moved ++ returned)

/-- The row of the backup at the other destination is dropped: the first destination still held
an older copy under the same key, and pruning that copy forgot the row. -/
theorem far_row_dropped :
    (before.rows.map fun row => (row.id, row.uploadDestination)) =
        [("bkp_1", some "s3://archive/backups"), ("bkp_2", some "s3://mail/backups")] ∧
      before.objects ("far", "backups/bkp_1.tar") = some 1 ∧
      (before.step env (.answer 4 .done)).rows.map BackupRow.id = ["bkp_2"] ∧
      ¬StepRun.Meets (step env) (PrunesApart env) (initial fun _ => none)
        (moved ++ returned ++ [.answer 4 .done]) := by
  have hrows : (before.rows.map fun row => (row.id, row.uploadDestination)) =
      [("bkp_1", some "s3://archive/backups"), ("bkp_2", some "s3://mail/backups")] := by
    decide +kernel
  have hafter : (before.step env (.answer 4 .done)).rows.map BackupRow.id = ["bkp_2"] := by
    decide +kernel
  have hactivity : before.activities[4]? = some (.forgetting near "backups/bkp_1.tar" []) := by
    decide +kernel
  refine ⟨hrows, by decide +kernel, hafter, ?_⟩
  intro hapart
  rw [StepRun.meets_append] at hapart
  have hlast : before.PrunesApart env (.answer 4 .done) := hapart.2.1
  have hspares := hlast 4 near _ _ hactivity rfl
  have hfar : ("bkp_1", some "s3://archive/backups") ∈
      before.rows.map fun row => (row.id, row.uploadDestination) := by
    rw [hrows]
    exact List.mem_cons_self
  obtain ⟨row, hrow, hrecorded⟩ := List.mem_map.mp hfar
  rw [Prod.mk.injEq] at hrecorded
  have hkept := hspares.recorded row hrow (by rw [hrecorded.2]; decide)
  have hid := List.mem_map_of_mem (f := BackupRow.id) hkept
  rw [hafter, hrecorded.1] at hid
  revert hid
  decide

end Returned

end Backups

end MailPanel

import MailPanel.BackupTasks

/-
What a restore is refused on, and what the preflight in front of it reports.
-/

namespace MailPanel

namespace Backups

open RowTable

structure AppError where
  code : String
  message : String
deriving DecidableEq, Repr

/-- A row with what only the gate reads of it; the digest is in the manifest. -/
structure GatedRow extends BackupRow where
  verifiedAt : Option String
  dmsImageDigest : Option String
deriving DecidableEq, Repr

structure ContainerInspection where
  image : Option String
  running : Bool
deriving DecidableEq, Repr

structure RestoreBackupRequest where
  acknowledgeNoRecentBackup : Bool
deriving DecidableEq, Repr

/-- What the panel is told before it restores a backup: the row itself, whether the archive fits
the running mail server, and whether some verified backup is recent enough. -/
structure RestorePreflightResponse where
  backup : GatedRow
  containerRunning : Bool
  currentDmsImageDigest : Option String
  manifestCompatible : Bool
  compatibilityMessage : Option String
  recentVerifiedBackupExists : Bool
  mostRecentVerifiedBackupAt : Option String
deriving DecidableEq, Repr

def buildCompatibilityMessage (manifestDigest currentDigest : Option String) : String :=
  match manifestDigest, currentDigest with
  | some manifestDigest, some currentDigest =>
      "This backup was taken from DMS image " ++ manifestDigest ++
        "; the running container is " ++ currentDigest ++ ". Restoring across a different " ++
        "image is refused — see the update rollback caveat for why DMS state is not safely " ++
        "portable across versions."
  | _, _ =>
      "The backup image digest or the running image digest could not be confirmed, so " ++
        "compatibility cannot be verified. Refusing rather than proceeding hopefully."

def noBackup (id : BackupId) : AppError :=
  ⟨"NOT_FOUND", "No backup with id " ++ id ++ "."⟩

/-- The newest backup that is verified, whichever it is. -/
def mostRecentVerified (rows : List GatedRow) : Option GatedRow :=
  ((rows.filter fun row => row.verificationStatus = .verified).insertionSort
    fun a b => b.createdAt ≤ a.createdAt).head?

section Gate

variable (rows : List GatedRow) (inspection : ContainerInspection) (id : BackupId)
  (request : RestoreBackupRequest)

def findBackup : Option GatedRow :=
  lookup (fun row : GatedRow => row.id) id rows

def manifestCompatible (backup : GatedRow) : Bool :=
  backup.dmsImageDigest.isSome && inspection.image.isSome &&
    decide (backup.dmsImageDigest = inspection.image)

/-- The report about one backup that the panel asks for before it restores it. It looks at the
row, at the container, and at the newest verified backup of all. -/
def preflight : Except AppError RestorePreflightResponse :=
  match findBackup rows id with
  | none => .error (noBackup id)
  | some backup =>
      let compatible := manifestCompatible inspection backup
      let recent := mostRecentVerified rows
      .ok {
        backup := backup
        containerRunning := inspection.running
        currentDmsImageDigest := inspection.image
        manifestCompatible := compatible
        compatibilityMessage :=
          if compatible then none
          else some (buildCompatibilityMessage backup.dmsImageDigest inspection.image)
        recentVerifiedBackupExists := recent.isSome
        mostRecentVerifiedBackupAt := recent.bind GatedRow.verifiedAt }

/-- The job that is put into the queue, or the refusal. The report is made anew for it, so what
the page showed before does not count. -/
def restore : Except AppError Job :=
  match preflight rows inspection id with
  | .error error => .error error
  | .ok report =>
      if report.containerRunning then
        .error ⟨"CONFLICT",
          "The managed container must be stopped before a restore can proceed."⟩
      else if !report.manifestCompatible then
        .error ⟨"CONFLICT", report.compatibilityMessage.getD
          "This backup is not compatible with the running DMS image."⟩
      else if !report.recentVerifiedBackupExists && !request.acknowledgeNoRecentBackup then
        .error ⟨"VALIDATION_FAILED", "No recent verified backup of the current data exists. " ++
          "Acknowledge this explicitly to proceed."⟩
      else
        match findBackup rows id with
        | none => .error (noBackup id)
        | some row => .ok (.restore id row.filePath)

/-- Another backup than this one is verified, and newer. -/
def SafetyNet (backup : GatedRow) : Prop :=
  ∃ other ∈ rows, other.id ≠ backup.id ∧ other.verificationStatus = .verified ∧
    backup.createdAt < other.createdAt

/-- Some backup is verified, be it the one to be restored. -/
def SomeVerified (_backup : GatedRow) : Prop :=
  ∃ row ∈ rows, row.verificationStatus = .verified

def DigestsAgree (backup : GatedRow) : Prop :=
  ∃ digest, backup.dmsImageDigest = some digest ∧ inspection.image = some digest

section Net

/- What counts as a safety net for the restore of a backup. -/
variable (net : GatedRow → Prop)

/-- A restore that has its safety net, or whose risk is accepted. -/
def Admissible : Prop :=
  ∃ backup, findBackup rows id = some backup ∧ inspection.running = false ∧
    DigestsAgree inspection backup ∧
      (request.acknowledgeNoRecentBackup = true ∨ net backup)

/-- Every fact of the report is so. -/
structure RestorePreflightResponse.Faithful (report : RestorePreflightResponse) : Prop where
  backup : findBackup rows id = some report.backup
  running : report.containerRunning = true ↔ inspection.running = true
  compatible : report.manifestCompatible = true ↔ DigestsAgree inspection report.backup
  recent : report.recentVerifiedBackupExists = true ↔ net report.backup

/-- Exactly the admissible restores are queued, and the preflight reports what they are
judged by. -/
structure GateExact : Prop where
  queued : (∃ job, restore rows inspection id request = .ok job) ↔
    Admissible rows inspection id request net
  missing : findBackup rows id = none ↔ preflight rows inspection id = .error (noBackup id)
  reported : ∀ report, preflight rows inspection id = .ok report →
    report.Faithful rows inspection id net

end Net

/-- If any backup is verified, one that is newer than this one is. -/
def VerifiedLater : Prop :=
  ∀ backup, findBackup rows id = some backup →
    (∃ other ∈ rows, other.verificationStatus = .verified) → SafetyNet rows backup

end Gate

section Facts

variable {rows : List GatedRow} {inspection : ContainerInspection} {id : BackupId}
  {request : RestoreBackupRequest} {backup : GatedRow}

theorem mostRecentVerified_isSome :
    (mostRecentVerified rows).isSome = true ↔
      ∃ row ∈ rows, row.verificationStatus = .verified := by
  rw [mostRecentVerified, List.isSome_head?]
  simp only [ne_eq, List.eq_nil_iff_forall_not_mem, List.mem_insertionSort, List.mem_filter,
    decide_eq_true_eq, not_forall, not_not]

theorem manifestCompatible_eq_true :
    manifestCompatible inspection backup = true ↔ DigestsAgree inspection backup := by
  rw [manifestCompatible, Bool.and_eq_true, Bool.and_eq_true, decide_eq_true_eq]
  constructor
  · rintro ⟨⟨hmanifest, -⟩, hsame⟩
    obtain ⟨digest, hdigest⟩ := Option.isSome_iff_exists.mp hmanifest
    exact ⟨digest, hdigest, hsame ▸ hdigest⟩
  · rintro ⟨digest, hmanifest, himage⟩
    rw [hmanifest, himage]
    exact ⟨⟨rfl, rfl⟩, rfl⟩

variable (inspection) in
theorem preflight_of_none (hnone : findBackup rows id = none) :
    preflight rows inspection id = .error (noBackup id) := by
  simp only [preflight, hnone]

variable (inspection) in
/-- The facts of a preflight. -/
theorem preflight_of_some (hbackup : findBackup rows id = some backup) :
    ∃ report, preflight rows inspection id = .ok report ∧ report.backup = backup ∧
      report.containerRunning = inspection.running ∧
      report.manifestCompatible = manifestCompatible inspection backup ∧
      report.recentVerifiedBackupExists = (mostRecentVerified rows).isSome := by
  simp only [preflight, hbackup]
  exact ⟨_, rfl, rfl, rfl, rfl, rfl⟩

/-- What `restore` goes by: the container, the image, and an acknowledgement or some verified
backup. The age of that backup is not looked at. -/
theorem restore_eq_ok (hbackup : findBackup rows id = some backup) :
    (∃ job, restore rows inspection id request = .ok job) ↔
      inspection.running = false ∧ DigestsAgree inspection backup ∧
        (request.acknowledgeNoRecentBackup = true ∨
          ∃ row ∈ rows, row.verificationStatus = .verified) := by
  obtain ⟨report, hreport, -, hrunning, hcompatible, hrecent⟩ :=
    preflight_of_some inspection hbackup
  rw [← manifestCompatible_eq_true, ← mostRecentVerified_isSome, ← hrunning, ← hcompatible,
    ← hrecent]
  simp only [restore, hreport, hbackup]
  cases report.containerRunning with
  | true => simp
  | false =>
      cases report.manifestCompatible with
      | false => simp
      | true =>
          cases report.recentVerifiedBackupExists with
          | true => simp
          | false =>
              cases request.acknowledgeNoRecentBackup with
              | true => simp
              | false => simp

end Facts

/-- The gate goes by its notion of a safety net exactly where that comes to the same as some
backup being verified. -/
theorem gateExact_iff_net (rows : List GatedRow) (inspection : ContainerInspection)
    (id : BackupId) (request : RestoreBackupRequest) (net : GatedRow → Prop) :
    GateExact rows inspection id request net ↔
      ∀ backup, findBackup rows id = some backup → (SomeVerified rows backup ↔ net backup) := by
  constructor
  · intro hexact backup hbackup
    obtain ⟨report, hreport, hsame, -, -, hrecent⟩ :=
      preflight_of_some inspection hbackup
    have hfaithful := hexact.reported report hreport
    rw [← hsame, ← hfaithful.recent, hrecent]
    exact mostRecentVerified_isSome.symm
  · intro hnet
    cases hfind : findBackup rows id with
    | none =>
        have hmissing := preflight_of_none inspection hfind
        refine ⟨⟨?_, ?_⟩, ⟨fun _ => hmissing, fun _ => hfind⟩, ?_⟩
        · rintro ⟨job, hjob⟩
          simp [restore, hmissing] at hjob
        · rintro ⟨backup, hbackup, -⟩
          rw [hfind] at hbackup
          cases hbackup
        · intro report hreport
          rw [hmissing] at hreport
          cases hreport
    | some backup =>
        have hnet : (∃ row ∈ rows, row.verificationStatus = .verified) ↔ net backup :=
          hnet backup hfind
        obtain ⟨report, hreport, hsame, hrunning, hcompatible, hrecent⟩ :=
          preflight_of_some inspection hfind
        refine ⟨?_, ⟨?_, ?_⟩, ?_⟩
        · rw [restore_eq_ok hfind, hnet]
          constructor
          · intro hjudged
            exact ⟨backup, hfind, hjudged⟩
          · rintro ⟨other, hother, hjudged⟩
            obtain rfl := Option.some.inj (hfind.symm.trans hother)
            exact hjudged
        · intro hnone
          rw [hfind] at hnone
          cases hnone
        · intro hmissing
          rw [hreport] at hmissing
          cases hmissing
        · intro other hother
          obtain rfl := Except.ok.inj (hreport.symm.trans hother)
          refine ⟨hsame ▸ hfind, by rw [hrunning], ?_, ?_⟩
          · rw [hcompatible, manifestCompatible_eq_true, hsame]
          · rw [hrecent, mostRecentVerified_isSome, hnet, hsame]

/-- The gate admits exactly the restores of a stopped container from a backup of its own image,
where some backup is verified or the risk is accepted; the preflight reports these facts. The
verified backup may be the very one that is restored. -/
theorem gateExact_someVerified (rows : List GatedRow) (inspection : ContainerInspection)
    (id : BackupId) (request : RestoreBackupRequest) :
    GateExact rows inspection id request (SomeVerified rows) :=
  (gateExact_iff_net rows inspection id request _).mpr fun _ _ => Iff.rfl

/-- Judged by another, newer backup, the gate is exact unless only backups are verified that are
no safety net: the one to be restored, or older ones. -/
theorem gateExact_iff (rows : List GatedRow) (inspection : ContainerInspection)
    (id : BackupId) (request : RestoreBackupRequest) :
    GateExact rows inspection id request (SafetyNet rows) ↔ VerifiedLater rows id := by
  rw [gateExact_iff_net]
  constructor
  · exact fun hnet backup hbackup hverified => (hnet backup hbackup).mp hverified
  · intro hlater backup hbackup
    refine ⟨hlater backup hbackup, ?_⟩
    rintro ⟨other, hother, -, hverified, -⟩
    exact ⟨other, hother, hverified⟩

namespace OnlyBackup

/-- The one backup there is, verified, is to be restored: the state in which the gate is
satisfied by the very backup that will be restored. -/
def backup : GatedRow where
  id := "bkp_1"
  createdAt := 100
  filePath := "bkp_1.tar"
  manifest := ⟨"I", []⟩
  verificationStatus := .verified
  uploadStatus := .pending
  uploadDestination := none
  remoteKey := none
  localPresent := true
  verifiedAt := some "2026-08-18T08:00:00.000Z"
  dmsImageDigest := some "sha256:1"

def stopped : ContainerInspection := ⟨some "sha256:1", false⟩

/-- One verified backup, which is restored without an acknowledgement: there is no other backup
to go back to, and the restore is queued. -/
theorem unacknowledged_queued :
    restore [backup] stopped "bkp_1" ⟨false⟩ = .ok (.restore "bkp_1" "bkp_1.tar") ∧
      ¬ GateExact [backup] stopped "bkp_1" ⟨false⟩ (SafetyNet [backup]) := by
  refine ⟨by decide, ?_⟩
  intro hexact
  obtain ⟨report, hreport, hsame, -, -, hrecent⟩ :=
    preflight_of_some stopped (show findBackup [backup] "bkp_1" = some backup
      by decide)
  have hsome : (mostRecentVerified [backup]).isSome = true := by decide
  have hnet := (hexact.reported report hreport).recent.mp (hrecent.trans hsome)
  obtain ⟨other, hother, hne, -⟩ := hnet
  rw [List.mem_singleton.mp hother, hsame] at hne
  exact hne rfl

end OnlyBackup

end Backups

end MailPanel

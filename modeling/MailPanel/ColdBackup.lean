import MailPanel.BackupArchive
import MailPanel.TryFinally

/-
The job that creates a backup: a cold one stops the mail container before the archive is
written, and starts it when the archive is stored or has failed.
-/

namespace MailPanel

namespace Backups

open TryFinally BackupArchive

inductive BackupMode where
  | warm
  | cold
deriving DecidableEq, Repr

/-- The steps of a cold backup that can fail, in the order in which they are made. A failure is
given by the step that it strikes. -/
inductive CreateStep where
  | containerStop
  | makeDirectory
  | archiveGet (key : BackupVolumeKey)
  | assemble
  | removeDirectory
  | insert
  | containerStart
  | verify
deriving DecidableEq, Repr

structure CreateFailure where
  step : CreateStep
  message : String
deriving DecidableEq, Repr

/-- A call to the container's engine; one that throws may have taken effect. -/
structure LifecycleCall where
  takesEffect : Bool
  error : Option String
deriving DecidableEq, Repr

/-- How the calls of a job end, should they be made: each with the text of what it throws. -/
structure CreateCalls where
  /-- Without it the job goes on. -/
  containerInspect : Except String String
  containerStop : LifecycleCall
  containerStart : LifecycleCall
  makeDirectory : Option String
  /-- Of fetching a volume and reading it through. -/
  archiveGet : BackupVolumeKey → Option String
  /-- Of writing the manifest and the archive around the volumes. -/
  assemble : Option String
  removeDirectory : Option String
  insert : Option String
  verifyBackupArchive : Except String VerifyBackupArchiveResult

/-- What a job leaves behind. -/
structure CreateEnd where
  running : Bool
  /-- The digest that the manifest records. -/
  dmsImageDigest : Option String
  attempt : Attempt CreateFailure

namespace CreateCalls

variable (calls : CreateCalls)

def attempt (step : CreateStep) (error : Option String) : Attempt CreateFailure :=
  Attempt.call (error.map fun message => ⟨step, message⟩)

/-- One volume after the other. -/
def archiveVolumes (keys : List BackupVolumeKey) : Attempt CreateFailure :=
  keys.foldr (fun key rest => (attempt (.archiveGet key) (calls.archiveGet key)).andThen rest)
    (Attempt.call none)

def createBackupArchive : Attempt CreateFailure :=
  (attempt .makeDirectory calls.makeDirectory).andThen
    (((calls.archiveVolumes backupVolumeKeys).andThen (attempt .assemble calls.assemble)).lastly
      (attempt .removeDirectory calls.removeDirectory))

def verificationError : Option String :=
  match calls.verifyBackupArchive with
  | .error message => some message
  | .ok verification =>
      if verification.ok then none
      else some ("The backup was written but failed verification, so it was not uploaded: " ++
        verification.reason.getD "unknown reason")

/-- The part of the job that a cold backup is stopped for. -/
def storeArchive : Attempt CreateFailure :=
  calls.createBackupArchive.andThen (attempt .insert calls.insert)

/-- What is thrown to the job runner: the steps in order, with the start of the mail server as
the `finally` of a cold backup. -/
def attempts : BackupMode → Attempt CreateFailure
  | .warm => calls.storeArchive.andThen (attempt .verify calls.verificationError)
  | .cold =>
      (attempt .containerStop calls.containerStop.error).andThen
        ((calls.storeArchive.lastly (attempt .containerStart calls.containerStart.error)).andThen
          (attempt .verify calls.verificationError))

/-- The container after the calls that the job makes: the one that starts it only follows one
that has stopped it without an error. -/
def runningAfter (running : Bool) : BackupMode → Bool
  | .warm => running
  | .cold =>
      let stopped := if calls.containerStop.takesEffect then false else running
      if calls.containerStop.error.isNone && calls.containerStart.takesEffect then true
      else stopped

def performCreate (mode : BackupMode) (running : Bool) : CreateEnd where
  running := calls.runningAfter running mode
  dmsImageDigest := calls.containerInspect.toOption
  attempt := calls.attempts mode

/-- Each of the lifecycle calls that a cold backup makes takes effect. -/
def TakesEffect : Prop :=
  calls.containerStop.takesEffect = true ∧
    (calls.containerStop.error = none → calls.containerStart.takesEffect = true)

/-- The container is as before, if it did as told, and what is thrown is what failed first. -/
def LeavesAsFound (running : Bool) : Prop :=
  (calls.TakesEffect → (calls.performCreate .cold running).running = running) ∧
    (calls.performCreate .cold running).attempt.ThrowsFirst

/-- The volumes and the archive around them are written. -/
def Archives : Prop := (∀ key, calls.archiveGet key = none) ∧ calls.assemble = none

/-- The archive is written and its row is stored. -/
def Stores : Prop :=
  calls.makeDirectory = none ∧ calls.Archives ∧ calls.removeDirectory = none ∧
    calls.insert = none

instance : Decidable calls.TakesEffect := inferInstanceAs (Decidable (_ ∧ _))

instance (running : Bool) : Decidable (calls.LeavesAsFound running) :=
  inferInstanceAs (Decidable ((_ → _ = _) ∧ (_ = _)))

section Failures

variable {calls} {running : Bool} {step : CreateStep} {error : Option String}
  {keys : List BackupVolumeKey} {failure : CreateFailure}

theorem attempt_thrown_eq_none_iff : (attempt step error).thrown = none ↔ error = none :=
  Option.map_eq_none_iff

theorem attempt_throwsFirst (step : CreateStep) (error : Option String) :
    (attempt step error).ThrowsFirst :=
  Attempt.call_throwsFirst _

theorem step_of_mem_attempt (hmem : failure ∈ (attempt step error).failures) :
    failure.step = step := by
  cases error with
  | none => cases hmem
  | some message => rw [List.mem_singleton.mp hmem]

theorem archiveVolumes_throwsFirst (keys : List BackupVolumeKey) :
    (calls.archiveVolumes keys).ThrowsFirst := by
  induction keys with
  | nil => exact Attempt.call_throwsFirst none
  | cons key keys ih =>
      exact Attempt.andThen_throwsFirst_iff.mpr ⟨attempt_throwsFirst _ _, fun _ => ih⟩

theorem archiveVolumes_thrown_eq_none_iff (keys : List BackupVolumeKey) :
    (calls.archiveVolumes keys).thrown = none ↔ ∀ key ∈ keys, calls.archiveGet key = none := by
  induction keys with
  | nil => exact iff_of_true rfl nofun
  | cons key keys ih =>
      rw [List.forall_mem_cons, ← ih]
      exact Attempt.andThen_thrown_eq_none_iff.trans
        (and_congr_left fun _ => attempt_thrown_eq_none_iff)

theorem step_of_mem_archiveVolumes (keys : List BackupVolumeKey)
    (hmem : failure ∈ (calls.archiveVolumes keys).failures) :
    ∃ key, failure.step = .archiveGet key := by
  induction keys with
  | nil => cases hmem
  | cons key keys ih =>
      rcases Attempt.mem_andThen hmem with hfirst | hlater
      · exact ⟨key, step_of_mem_attempt hfirst⟩
      · exact ih hlater

/-- The body of the archive's own `finally`. -/
theorem archiveBody_thrown_eq_none_iff :
    ((calls.archiveVolumes backupVolumeKeys).andThen (attempt .assemble calls.assemble)).thrown =
      none ↔ calls.Archives := by
  rw [Attempt.andThen_thrown_eq_none_iff, archiveVolumes_thrown_eq_none_iff,
    attempt_thrown_eq_none_iff, Archives]
  simp only [BackupVolumeKey.mem_backupVolumeKeys, true_imp_iff]

theorem archiveBody_throwsFirst :
    ((calls.archiveVolumes backupVolumeKeys).andThen
      (attempt .assemble calls.assemble)).ThrowsFirst :=
  Attempt.andThen_throwsFirst_iff.mpr
    ⟨archiveVolumes_throwsFirst _, fun _ => attempt_throwsFirst _ _⟩

theorem createBackupArchive_thrown_eq_none_iff :
    calls.createBackupArchive.thrown = none ↔
      calls.makeDirectory = none ∧ calls.Archives ∧ calls.removeDirectory = none := by
  rw [createBackupArchive, Attempt.andThen_thrown_eq_none_iff, attempt_thrown_eq_none_iff,
    Attempt.lastly_thrown_eq_none_iff, archiveBody_thrown_eq_none_iff,
    attempt_thrown_eq_none_iff]

/-- Removing the working directory may hide why the archive failed. -/
theorem createBackupArchive_throwsFirst_iff :
    calls.createBackupArchive.ThrowsFirst ↔
      (calls.makeDirectory = none → calls.Archives ∨ calls.removeDirectory = none) := by
  rw [createBackupArchive, Attempt.andThen_throwsFirst_iff,
    and_iff_right (attempt_throwsFirst _ _), attempt_thrown_eq_none_iff,
    Attempt.lastly_throwsFirst_iff (attempt_throwsFirst _ _), archiveBody_thrown_eq_none_iff,
    attempt_thrown_eq_none_iff, and_iff_right fun _ => archiveBody_throwsFirst]
  intro failure hlast hbody
  have hstep := step_of_mem_attempt hlast
  rcases Attempt.mem_andThen hbody with hvolumes | hassemble
  · obtain ⟨key, hkey⟩ := step_of_mem_archiveVolumes _ hvolumes
    rw [hstep] at hkey
    cases hkey
  · rw [step_of_mem_attempt hassemble] at hstep
    cases hstep

theorem step_of_mem_storeArchive (hmem : failure ∈ calls.storeArchive.failures) :
    failure.step ≠ .containerStart := by
  rcases Attempt.mem_andThen hmem with harchive | hinsert
  · rcases Attempt.mem_andThen harchive with hdirectory | hlastly
    · rw [step_of_mem_attempt hdirectory]
      nofun
    · rcases List.mem_append.mp hlastly with hbody | hremove
      · rcases Attempt.mem_andThen hbody with hvolumes | hassemble
        · obtain ⟨key, hkey⟩ := step_of_mem_archiveVolumes _ hvolumes
          rw [hkey]
          nofun
        · rw [step_of_mem_attempt hassemble]
          nofun
      · rw [step_of_mem_attempt hremove]
        nofun
  · rw [step_of_mem_attempt hinsert]
    nofun

theorem storeArchive_thrown_eq_none_iff : calls.storeArchive.thrown = none ↔ calls.Stores := by
  rw [storeArchive, Attempt.andThen_thrown_eq_none_iff, createBackupArchive_thrown_eq_none_iff,
    attempt_thrown_eq_none_iff, Stores]
  simp only [and_assoc]

theorem storeArchive_throwsFirst_iff :
    calls.storeArchive.ThrowsFirst ↔
      (calls.makeDirectory = none → calls.Archives ∨ calls.removeDirectory = none) := by
  rw [← createBackupArchive_throwsFirst_iff, storeArchive, Attempt.andThen_throwsFirst_iff]
  exact and_iff_left fun _ => attempt_throwsFirst _ _

theorem attempts_cold_throwsFirst_iff :
    (calls.attempts .cold).ThrowsFirst ↔
      (calls.containerStop.error = none →
        (calls.containerStart.error = none → calls.makeDirectory = none →
          calls.Archives ∨ calls.removeDirectory = none) ∧
        (calls.Stores ∨ calls.containerStart.error = none)) := by
  rw [attempts, Attempt.andThen_throwsFirst_iff, and_iff_right (attempt_throwsFirst _ _),
    attempt_thrown_eq_none_iff, Attempt.andThen_throwsFirst_iff,
    and_iff_left fun _ => attempt_throwsFirst _ _,
    Attempt.lastly_throwsFirst_iff (attempt_throwsFirst _ _), storeArchive_throwsFirst_iff,
    storeArchive_thrown_eq_none_iff, attempt_thrown_eq_none_iff]
  intro failure hstart hstore
  exact step_of_mem_storeArchive hstore (step_of_mem_attempt hstart)

/-- The container is as it was if it was running and stops without an error, or was stopped
and the call that stops it throws. -/
theorem runningAfter_cold_iff (heffect : calls.TakesEffect) :
    calls.runningAfter running .cold = running ↔
      (running = true ↔ calls.containerStop.error = none) := by
  obtain ⟨hstopped, hstarted⟩ := heffect
  cases hstop : calls.containerStop.error with
  | none => simp [runningAfter, hstop, hstarted hstop, eq_comm]
  | some message => simp [runningAfter, hstop, hstopped, eq_comm]

/-- A cold backup leaves the container as it found it and reports what failed first exactly if
the container was running when its stop does not throw, and not when it does, and nothing fails
in a clean-up after something else has: neither the removal of the working directory nor the
start of the container. Whether it was running is never asked: it is started if the stop did not
throw. -/
theorem leavesAsFound_iff (calls : CreateCalls) (running : Bool) :
    calls.LeavesAsFound running ↔
      (calls.TakesEffect → (running = true ↔ calls.containerStop.error = none)) ∧
      (calls.containerStop.error = none →
        (calls.Stores ∨ calls.containerStart.error = none) ∧
        (calls.makeDirectory = none → calls.Archives ∨ calls.removeDirectory = none)) := by
  refine and_congr (forall_congr' runningAfter_cold_iff)
    (attempts_cold_throwsFirst_iff.trans (forall_congr' fun _ => ?_))
  constructor
  · rintro ⟨hhidden, hstored | hstart⟩
    · exact ⟨Or.inl hstored, fun _ => Or.inl hstored.2.1⟩
    · exact ⟨Or.inr hstart, hhidden hstart⟩
  · rintro ⟨hstart, hhidden⟩
    exact ⟨fun _ => hhidden, hstart⟩

end Failures

end CreateCalls

namespace StoppedContainer

/-- Nothing fails: the calls of a backup for the examples, which then let one of them fail after
the other. -/
def calls : CreateCalls where
  containerInspect := .ok "sha256:0"
  containerStop := ⟨true, none⟩
  containerStart := ⟨true, none⟩
  makeDirectory := none
  archiveGet := fun _ => none
  assemble := none
  removeDirectory := none
  insert := none
  verifyBackupArchive := .ok ⟨true, none⟩

/-- A container that was stopped runs after the backup, and a disk that is full is reported as a
container that does not start, because what a clean-up throws takes the place of the first
error. -/
theorem started_and_hidden :
    ¬calls.LeavesAsFound false ∧
      ¬({ calls with
        assemble := some "ENOSPC: no space left on device"
        containerStart := ⟨true, some "timeout"⟩ } : CreateCalls).LeavesAsFound true := by
  decide

end StoppedContainer

end Backups

end MailPanel

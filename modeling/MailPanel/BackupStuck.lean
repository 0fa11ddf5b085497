import MailPanel.BackupUploads

/-
Whether a backup can get stuck between the disk and the remote: what its row says in an
idle state, against what the next sweep takes up.
-/

namespace MailPanel

namespace Backups

variable {Archive : Type}

/-- A verified copy is on the remote, or the next sweep uploads the backup, or its
verification has failed. -/
def BackupRow.Settled (env : Env Archive) (s : Stores Archive) (row : BackupRow) : Prop :=
  row.uploadStatus = .uploaded ∧ row.copied env s = true ∨ row.isUploadCandidate = true ∨
    row.verificationStatus = .failed

/-- The thread has still to write to this row what became of its object. -/
def Thread.mends (row : BackupRow) (thread : Thread Archive) : Bool :=
  thread.task.uploads row.id ||
    thread.answer.any thread.task.forgets && thread.task.clears row

namespace Panel

variable (env : Env Archive) (p : Panel Archive)

/-- An upload of this backup is under way. -/
def uploads (id : BackupId) : Bool :=
  p.threads.any fun thread => thread.task.uploads id

/-- A local backup counts on the object at this key. -/
def relies (key : Key) : Bool :=
  p.memory.rows.any fun row =>
    row.localPresent && decide (row.uploadStatus = .uploaded) &&
      decide (row.remoteKey = some key) && row.copied env p.stores && !p.uploads row.id

/-- A crash interrupts no upload and falls between no deletion and its row; a deletion of
a copy that takes effect is not reported as failed; and what is marked as uploaded, or
imported, is still on the remote by then. -/
def settlesCopies : Label Archive → Bool
  | .land index (.failed true) =>
      match p.threads[index]? with
      | some ⟨_, task, none⟩ =>
          match task.call env with
          | some (.delete key) =>
              task.upload?.isSome || task.forgets .failed || !p.relies env key
          | _ => true
      | _ => true
  | .resume index =>
      match p.threads[index]? with
      | some ⟨_, .checking _ upload _, some (.verdict true)⟩ =>
          (p.threads.eraseIdx index).any (fun thread => thread.task.uploads upload.id) ||
            (p.memory.rows.getRowById upload.id).all fun row =>
              !row.localPresent || p.stores.holds env upload.key row.manifest
      | some ⟨_, .importVerifying id true _, some (.verdict true)⟩ =>
          p.uploads id || (p.memory.rows.getRowById id).all fun row =>
            decide (row.uploadStatus ≠ .uploaded) || row.copied env p.stores
      | some ⟨_, .importMeasuring id expected, some .done⟩ =>
          p.uploads id || (p.memory.rows.getRowById id).isSome ||
            p.stores.holds env (env.destination.keyForBackup id) expected
      | _ => true
  | .crash =>
      p.memory.rows.all fun row => decide (row.uploadStatus ≠ .uploading) &&
        (!row.localPresent || decide (row.uploadStatus ≠ .uploaded) || row.copied env p.stores)
  | .foreign (.put key _ _) => !p.relies env key
  | .foreign (.remove key) => !p.relies env key
  | _ => true

/-- Whatever a row leaves open, a thread will still write to it. -/
structure Unstuck (env : Env Archive) (p : Panel Archive) : Prop where
  sound : p.Sound env
  uploading : ∀ row ∈ p.memory.rows, row.uploadStatus = .uploading → p.uploads row.id = true
  uploaded : ∀ row ∈ p.memory.rows, row.localPresent = true → row.uploadStatus = .uploaded →
    row.copied env p.stores = true ∨ ∃ thread ∈ p.threads, thread.mends row = true

end Panel

section Mends

variable {row : BackupRow} {origin : Origin} {task : Task Archive}
  {answer : Option (Answer Archive)}

theorem Thread.mends_eq_true {thread : Thread Archive} :
    thread.mends row = true ↔ thread.task.uploads row.id = true ∨
      ∃ answer, thread.answer = some answer ∧ thread.task.forgets answer = true ∧
        thread.task.clears row = true := by
  rw [Thread.mends, Bool.or_eq_true, Bool.and_eq_true, Option.any_eq_true]
  constructor
  · rintro (huploads | ⟨⟨given, hgiven, hforgets⟩, hclears⟩)
    · exact Or.inl huploads
    · exact Or.inr ⟨given, hgiven, hforgets, hclears⟩
  · rintro (huploads | ⟨given, hgiven, hforgets, hclears⟩)
    · exact Or.inl huploads
    · exact Or.inr ⟨⟨given, hgiven, hforgets⟩, hclears⟩

theorem Thread.mends_of_uploads (huploads : task.uploads row.id = true) :
    Thread.mends row ⟨origin, task, answer⟩ = true :=
  Thread.mends_eq_true.mpr (Or.inl huploads)

theorem Thread.mends_of_none (hmends : Thread.mends row ⟨origin, task, none⟩ = true) :
    Thread.mends row ⟨origin, task, answer⟩ = true := by
  rcases Thread.mends_eq_true.mp hmends with huploads | ⟨given, hnone, -⟩
  · exact Thread.mends_of_uploads huploads
  · exact absurd hnone.symm (Option.some_ne_none given)

theorem BackupRow.Keeps.mends {old : BackupRow} (hkeeps : old.Keeps row)
    (thread : Thread Archive) : thread.mends row = thread.mends old := by
  have hclears : thread.task.clears row = thread.task.clears old := by
    cases thread.task <;> simp only [Task.clears, hkeeps.remoteKey, hkeeps.id]
  rw [Thread.mends, Thread.mends, hkeeps.id, hclears]

end Mends

namespace Panel

variable {env : Env Archive} {p : Panel Archive}

theorem uploads_eq_true {id : BackupId} :
    p.uploads id = true ↔ ∃ thread ∈ p.threads, thread.task.uploads id = true := by
  rw [uploads, List.any_eq_true]

/-- A local backup that is marked as uploaded counts on its object, unless an upload of
it goes on. -/
theorem relies_or_uploads {row : BackupRow} (hrow : row ∈ p.memory.rows)
    (hlocal : row.localPresent = true) (huploaded : row.uploadStatus = .uploaded) {key : Key}
    (hkey : row.remoteKey = some key) (hcopied : row.copied env p.stores = true) :
    p.relies env key = true ∨ p.uploads row.id = true := by
  by_cases huploads : p.uploads row.id = true
  · exact Or.inr huploads
  · left
    rw [relies, List.any_eq_true]
    exact ⟨row, hrow, by simp [hlocal, huploaded, hkey, hcopied, huploads]⟩

theorem exists_mends_of_uploads {row : BackupRow} (huploads : p.uploads row.id = true) :
    ∃ thread ∈ p.threads, thread.mends row = true := by
  obtain ⟨thread, hthread, htask⟩ := uploads_eq_true.mp huploads
  exact ⟨thread, hthread, Thread.mends_of_uploads htask⟩

/-- A call that takes the object of an uploaded backup is of a thread that will say so. -/
theorem Unstuck.landed (hunstuck : p.Unstuck env) {index : Nat} {origin : Origin}
    {task : Task Archive} {call : Call Archive} {outcome : Outcome Archive}
    {stores : Stores Archive} {answer : Option (Answer Archive)}
    (hthread : p.threads[index]? = some ⟨origin, task, none⟩)
    (hcall : task.call env = some call)
    (hlanded : p.stores.Landed env call outcome stores answer)
    (hsettles : p.settlesCopies env (.land index outcome) = true) :
    ({ p with
      stores := stores
      threads := p.threads.set index ⟨origin, task, answer⟩ } : Panel Archive).Unstuck env := by
  have hsoundTask : task.Sound env := hunstuck.sound.thread hthread
  obtain ⟨hlength, -⟩ := List.getElem?_eq_some_iff.mp hthread
  have hself : ∀ row, Thread.mends row ⟨origin, task, answer⟩ = true →
      ∃ thread ∈ p.threads.set index ⟨origin, task, answer⟩, thread.mends row = true :=
    fun row hmends => ⟨_, List.mem_set hlength _, hmends⟩
  have hothers : ∀ row, (∃ thread ∈ p.threads, thread.mends row = true) →
      ∃ thread ∈ p.threads.set index ⟨origin, task, answer⟩, thread.mends row = true :=
    fun row hmends => exists_mem_set hthread Thread.mends_of_none hmends
  refine ⟨hunstuck.sound.stepped (.landed hthread hcall hlanded), ?_, ?_⟩
  · intro row hrow huploading
    apply uploads_eq_true.mpr
    have hnew : (⟨origin, task, none⟩ : Thread Archive).task.uploads row.id = true →
        (⟨origin, task, answer⟩ : Thread Archive).task.uploads row.id = true := id
    exact exists_mem_set hthread hnew
      (uploads_eq_true.mp (hunstuck.uploading row hrow huploading))
  · intro row hmem hlocal huploaded
    have hrow : row ∈ p.memory.rows := hmem
    have hsoundRow := hunstuck.sound.memory.rows row hrow
    obtain ⟨hkey, -⟩ := hsoundRow.uploaded huploaded
    rcases hunstuck.uploaded row hrow hlocal huploaded with hcopied | hmends
    · rcases hlanded.object (env.destination.keyForBackup row.id) with
        hsame | rfl | ⟨rfl, -, hanswer⟩
      · exact Or.inl (by rw [BackupRow.copied_of_object hkey hsame]; exact hcopied)
      · right
        obtain ⟨pass, upload, rfl, heq⟩ := Task.sending_of_call hcall
        rw [hsoundTask.key, Destination.keyForBackup_inj] at heq
        exact hself row (Thread.mends_of_uploads (Task.uploads_eq_true.mpr ⟨upload, rfl, heq⟩))
      · right
        rcases Task.deletes_row hsoundTask hcall hkey with huploads | ⟨hclears, hdone⟩
        · exact hself row (Thread.mends_of_uploads huploads)
        · rcases hanswer with ⟨-, rfl⟩ | ⟨rfl, rfl⟩
          · exact hself row (Thread.mends_eq_true.mpr (Or.inr ⟨.done, rfl, hdone, hclears⟩))
          · by_cases hforgets : task.forgets .failed = true
            · exact hself row
                (Thread.mends_eq_true.mpr (Or.inr ⟨.failed, rfl, hforgets, hclears⟩))
            · rcases relies_or_uploads hrow hlocal huploaded hkey hcopied with
                hrelies | huploads
              · have hupload : task.upload? = none := Task.upload?_of_forgets hdone
                simp [settlesCopies, hthread, hcall, hupload, hforgets, hrelies] at hsettles
              · exact hothers row (exists_mends_of_uploads huploads)
    · exact Or.inr (hothers row hmends)

/-- A segment that leaves a row uploaded has not just lost its object. The cases in which it has
are the ones that the condition on the step excludes. -/
theorem Unstuck.resumed (hunstuck : p.Unstuck env) {index : Nat} {origin : Origin}
    {task : Task Archive} {answer : Answer Archive} {next : Memory × Task Archive}
    (hthread : p.threads[index]? = some ⟨origin, task, some answer⟩)
    (hresumed : p.memory.Resumed env task answer next)
    (hsettles : p.settlesCopies env (.resume index) = true) :
    ({ p with
      memory := next.1
      threads := p.threads.set index ⟨origin, next.2, none⟩ } : Panel Archive).Unstuck env := by
  obtain ⟨hlength, -⟩ := List.getElem?_eq_some_iff.mp hthread
  have hothers : ∀ id, task.uploads id = false → p.uploads id = true →
      ∃ thread ∈ p.threads.set index ⟨origin, next.2, none⟩, thread.task.uploads id = true := by
    intro id hnot huploads
    refine exists_mem_set hthread (fun h => ?_) (uploads_eq_true.mp huploads)
    exact absurd (h.symm.trans hnot) (by simp)
  have hmended : ∀ row : BackupRow, (∃ thread ∈ p.threads.set index ⟨origin, next.2, none⟩,
      thread.task.uploads row.id = true) →
        ∃ thread ∈ p.threads.set index ⟨origin, next.2, none⟩, thread.mends row = true := by
    rintro row ⟨thread, hmem, huploads⟩
    exact ⟨thread, hmem, Thread.mends_of_uploads huploads⟩
  refine ⟨hunstuck.sound.stepped (.resumed hthread hresumed), ?_, ?_⟩
  · intro row hrow huploading
    apply uploads_eq_true.mpr
    rcases hresumed.uploading_row hrow huploading with huploads | ⟨hnot, old, hold, hid, hbefore⟩
    · exact ⟨_, List.mem_set hlength _, huploads⟩
    · have huploads := hunstuck.uploading old hold hbefore
      rw [hid] at huploads
      exact hothers row.id hnot huploads
  · intro row hrow hlocal huploaded
    cases hresumed.uploaded_row hunstuck.sound.memory hrow huploaded with
    | @kept old hold hkeeps hlocalOld hforgets huploads =>
        rcases hlocalOld hlocal with hwas | ⟨expected, rfl, rfl⟩
        · rcases hunstuck.uploaded old hold hwas hkeeps.uploaded with hcopied | hmends
          · exact Or.inl (hkeeps.copied.trans hcopied)
          · right
            simp only [← hkeeps.mends] at hmends
            refine exists_mem_set hthread ?_ hmends
            intro hmends
            rw [hkeeps.mends] at hmends
            rcases Thread.mends_eq_true.mp hmends with huploading | ⟨given, hgiven, hdone, hclears⟩
            · rw [hkeeps.id] at huploading
              exact Thread.mends_of_uploads (huploads huploading)
            · obtain rfl := Option.some.inj hgiven
              rw [hforgets hdone] at hclears
              exact absurd hclears Bool.false_ne_true
        · have hfound := BackupTable.getRowById_of_mem hunstuck.sound.memory.nodup hold
          rw [hkeeps.id] at hfound
          simp only [settlesCopies, hthread, hfound, Option.all_some, Bool.or_eq_true,
            decide_eq_true_eq] at hsettles
          rcases hsettles with huploading | hnot | hcopied
          · exact Or.inr (hmended row (hothers row.id rfl huploading))
          · exact absurd hkeeps.uploaded hnot
          · exact Or.inl (hkeeps.copied.trans hcopied)
    | @uploaded pass upload copy old htask hanswer hold hid heq =>
        subst htask hanswer heq
        have hfound := BackupTable.getRowById_of_mem hunstuck.sound.memory.nodup hold
        rw [hid] at hfound
        simp only [settlesCopies, hthread, hfound, Option.all_some, Bool.or_eq_true,
          Bool.not_eq_true', List.any_eq_true] at hsettles
        rcases hsettles with ⟨thread, hother, huploading⟩ | hnot | hholds
        · right
          apply hmended
          obtain ⟨place, hne, hplace⟩ := List.mem_eraseIdx_iff_getElem?.mp hother
          refine ⟨thread, List.mem_iff_getElem?.mpr ⟨place, ?_⟩, ?_⟩
          · rw [List.getElem?_set_ne hne.symm]
            exact hplace
          · rw [← hid] at huploading
            exact huploading
        · exact absurd (hlocal.symm.trans hnot) (by simp)
        · exact Or.inl hholds
    | @imported expected htask hanswer hmanifest hkey hnew =>
        subst htask hanswer
        simp only [settlesCopies, hthread, hnew, Bool.or_eq_true] at hsettles
        rcases hsettles with (huploading | hsome) | hholds
        · exact Or.inr (hmended row (hothers row.id rfl huploading))
        · exact absurd hsome (by simp)
        · left
          change row.copied env p.stores = true
          rw [BackupRow.copied_of_key hkey, hmanifest]
          exact hholds

theorem Unstuck.foreign (hunstuck : p.Unstuck env) {act : ForeignAct Archive}
    (hsettles : p.settlesCopies env (.foreign act) = true) :
    ({ p with stores := act.apply p.stores } : Panel Archive).Unstuck env := by
  refine ⟨hunstuck.sound.stepped (.foreign act), hunstuck.uploading, ?_⟩
  intro row hmem hlocal huploaded
  have hrow : row ∈ p.memory.rows := hmem
  obtain ⟨hkey, -⟩ := (hunstuck.sound.memory.rows row hrow).uploaded huploaded
  rcases hunstuck.uploaded row hrow hlocal huploaded with hcopied | hmends
  · have hsame : (act.apply p.stores).object? (env.destination.keyForBackup row.id) =
        p.stores.object? (env.destination.keyForBackup row.id) ∨ p.uploads row.id = true := by
      have hrelies := relies_or_uploads hrow hlocal huploaded hkey hcopied
      cases act with
      | put key content lastModified =>
          by_cases heq : env.destination.keyForBackup row.id = key
          · rw [heq] at hrelies
            simp only [settlesCopies, Bool.not_eq_true'] at hsettles
            exact Or.inr (hrelies.resolve_left (by simp [hsettles]))
          · exact Or.inl (by rw [ForeignAct.apply, Stores.object?_putObject, if_neg heq])
      | remove key =>
          by_cases heq : env.destination.keyForBackup row.id = key
          · rw [heq] at hrelies
            simp only [settlesCopies, Bool.not_eq_true'] at hsettles
            exact Or.inr (hrelies.resolve_left (by simp [hsettles]))
          · exact Or.inl (by rw [ForeignAct.apply, Stores.object?_removeObject, if_neg heq])
      | openMultipart key uploadId => exact Or.inl rfl
      | closeMultipart uploadId => exact Or.inl rfl
    rcases hsame with hsame | huploads
    · exact Or.inl ((BackupRow.copied_of_object hkey hsame).trans hcopied)
    · exact Or.inr (exists_mends_of_uploads huploads)
  · exact Or.inr hmends

theorem Unstuck.stepped (hunstuck : p.Unstuck env) {label : Label Archive}
    {after : Panel Archive} (hstep : p.Stepped env label after)
    (hsettles : p.settlesCopies env label = true) : after.Unstuck env := by
  have hsound := hunstuck.sound.stepped hstep
  cases hstep with
  | kept label => exact hunstuck
  | recorded hrecorded =>
      refine ⟨hsound, ?_, ?_⟩
      · intro row hrow
        rw [hrecorded.rows] at hrow
        exact hunstuck.uploading row hrow
      · intro row hrow
        rw [hrecorded.rows] at hrow
        exact hunstuck.uploaded row hrow
  | @begun _ origin next hbegun =>
      refine ⟨hsound, ?_, ?_⟩
      · intro row hrow huploading
        apply uploads_eq_true.mpr
        rcases hbegun.mem_row hrow with hold | ⟨-, huploads⟩
        · obtain ⟨thread, hthread, htask⟩ :=
            uploads_eq_true.mp (hunstuck.uploading row hold huploading)
          exact ⟨thread, List.mem_append_left _ hthread, htask⟩
        · exact ⟨_, List.mem_append_right _ (List.mem_singleton.mpr rfl), huploads⟩
      · intro row hrow hlocal huploaded
        rcases hbegun.mem_row hrow with hold | ⟨huploading, -⟩
        · rcases hunstuck.uploaded row hold hlocal huploaded with hcopied |
            ⟨thread, hthread, hmends⟩
          · exact Or.inl hcopied
          · exact Or.inr ⟨thread, List.mem_append_left _ hthread, hmends⟩
        · rw [huploaded] at huploading
          exact absurd huploading (by simp)
  | landed hthread hcall hlanded => exact hunstuck.landed hthread hcall hlanded hsettles
  | resumed hthread hresumed => exact hunstuck.resumed hthread hresumed hsettles
  | crashed =>
      simp only [settlesCopies, List.all_eq_true, Bool.and_eq_true, Bool.or_eq_true,
        Bool.not_eq_true', decide_eq_true_eq] at hsettles
      refine ⟨hsound, ?_, ?_⟩
      · intro row hrow huploading
        exact absurd huploading (hsettles row hrow).1
      · intro row hrow hlocal huploaded
        rcases (hsettles row hrow).2 with (hnot | hnot) | hcopied
        · exact absurd (hlocal.symm.trans hnot) (by simp)
        · exact absurd huploaded hnot
        · exact Or.inl hcopied
  | foreign act => exact hunstuck.foreign hsettles

theorem Unstuck.settled (hunstuck : p.Unstuck env) (hquiescent : p.quiescent = true)
    {row : BackupRow} (hrow : row ∈ p.memory.rows) (hlocal : row.localPresent = true) :
    row.Settled env p.stores := by
  simp only [quiescent, Bool.and_eq_true, List.all_eq_true, Bool.not_eq_true'] at hquiescent
  have hended : ∀ thread ∈ p.threads, thread.task = .ended := by
    intro thread hthread
    have hactive := hquiescent.2 thread hthread
    cases htask : thread.task <;> rw [htask] at hactive <;> first
      | rfl
      | exact absurd hactive (by simp [Task.active])
  by_cases hfailed : row.verificationStatus = .failed
  · exact Or.inr (Or.inr hfailed)
  · have hcandidate : row.uploadStatus = .pending ∨ row.uploadStatus = .failed →
        row.isUploadCandidate = true := by
      intro hstatus
      simpa [BackupRow.isUploadCandidate, hlocal, hfailed] using hstatus
    cases hstatus : row.uploadStatus with
    | pending => exact Or.inr (Or.inl (hcandidate (Or.inl hstatus)))
    | failed => exact Or.inr (Or.inl (hcandidate (Or.inr hstatus)))
    | uploading =>
        obtain ⟨thread, hthread, huploads⟩ :=
          uploads_eq_true.mp (hunstuck.uploading row hrow hstatus)
        rw [hended thread hthread] at huploads
        exact absurd huploads Bool.false_ne_true
    | uploaded =>
        rcases hunstuck.uploaded row hrow hlocal hstatus with hcopied | ⟨thread, hthread, hmends⟩
        · exact Or.inl ⟨hstatus, hcopied⟩
        · rcases Thread.mends_eq_true.mp hmends with huploads | ⟨given, -, hforgets, -⟩
          · rw [hended thread hthread] at huploads
            exact absurd huploads Bool.false_ne_true
          · rw [hended thread hthread] at hforgets
            exact absurd hforgets Bool.false_ne_true

/-- Where crashes fall between uploads and between a deletion and its row, and copies do not
vanish unnoticed, an upload leaves its state when it ends, and in every idle state every local
backup is settled: it is on the remote, or its row says why not and a later sweep will try
again. -/
theorem settled_of_settlesCopies (env : Env Archive) (stores : Stores Archive)
    (settings : Settings) (labels : List (Label Archive))
    (hsettles : StepRun.Meets (step env) (fun p label => p.settlesCopies env label = true)
      (initial stores settings) labels) :
    (∀ row ∈ ((initial stores settings).run env labels).memory.rows,
      row.uploadStatus = .uploading →
        ((initial stores settings).run env labels).uploads row.id = true) ∧
    (((initial stores settings).run env labels).quiescent = true →
      ∀ row ∈ ((initial stores settings).run env labels).memory.rows,
        row.localPresent = true →
          row.Settled env ((initial stores settings).run env labels).stores) := by
  have hstart : (initial stores settings : Panel Archive).Unstuck env :=
    ⟨Sound.initial stores settings, by simp [initial], by simp [initial]⟩
  have hunstuck : ((initial stores settings).run env labels).Unstuck env :=
    StepRun.invariant_of_meets (step env) (Unstuck env)
      (fun p label hunstuck hnow => hunstuck.stepped (step_stepped label) hnow) hstart hsettles
  exact ⟨hunstuck.uploading, fun hquiescent row hrow hlocal =>
    hunstuck.settled hquiescent hrow hlocal⟩

end Panel

namespace CrashDuringUpload

open Sample

/-- The panel goes down while the archive is sent. The row still says that it is being uploaded,
and no sweep of the next start takes such a row. -/
theorem crash_leaves_uploading :
    let after := (Panel.initial empty settings).run env (created ++ [.crash])
    after.quiescent = true ∧ after.uploads "bkp_1" = false ∧
      ∃ row ∈ after.memory.rows, row.id = "bkp_1" ∧ row.localPresent = true ∧
        row.uploadStatus = .uploading ∧ ¬ row.Settled env after.stores := by
  intro after
  have hended : after.quiescent = true := by decide +kernel
  have huploads : after.uploads "bkp_1" = false := by decide +kernel
  have hrow : (after.memory.rows.getRowById "bkp_1").map (fun row =>
      (row.localPresent, row.uploadStatus, row.verificationStatus)) =
        some (true, .uploading, .verified) := by decide +kernel
  refine ⟨hended, huploads, ?_⟩
  obtain ⟨row, hfound, hcolumns⟩ := Option.map_eq_some_iff.mp hrow
  rw [Prod.mk.injEq, Prod.mk.injEq] at hcolumns
  obtain ⟨hlocal, hstatus, hverified⟩ := hcolumns
  refine ⟨row, BackupTable.mem_of_getRowById hfound, BackupTable.id_of_getRowById hfound,
    hlocal, hstatus, ?_⟩
  rintro (⟨huploaded, -⟩ | hcandidate | hfailed)
  · rw [hstatus] at huploaded
    exact absurd huploaded (by simp)
  · rw [BackupRow.isUploadCandidate, hstatus] at hcandidate
    exact absurd hcandidate (by simp)
  · rw [hverified] at hfailed
    exact absurd hfailed (by simp)

/-- The upload breaks off and its clean-up fails; then the panel goes down. -/
def brokenOff : List (Label Nat) :=
  [.land 0 (.stored 0 100 false), .resume 0, .land 0 (.failed false), .resume 0, .crash]

/-- The upload breaks off and its clean-up fails. Its row has left the state of an upload by the
time the panel goes down, and every local backup is settled. -/
theorem brokenOff_candidate :
    let after := (Panel.initial empty settings).run env (created ++ brokenOff)
    after.quiescent = true ∧ (after.memory.rows.map BackupRow.id) = ["bkp_1"] ∧
      ∀ row ∈ after.memory.rows, row.localPresent = true → row.Settled env after.stores := by
  intro after
  have hended : after.quiescent = true := by decide +kernel
  have hsettles : StepRun.Meets (Panel.step env)
      (fun p label => p.settlesCopies env label = true) (.initial empty settings)
      (created ++ brokenOff) := by decide +kernel
  exact ⟨hended, by decide +kernel,
    (Panel.settled_of_settlesCopies env empty settings _ hsettles).2 hended⟩

end CrashDuringUpload

end Backups

end MailPanel

import MailPanel.BackupInvariants

/-
The permanent deletion of a backup, against uploads of it at the same time: once a
delete has reported the remote copy as deleted, nothing of the backup comes back.
-/

namespace MailPanel

namespace Backups

variable {Archive : Type}

/-- The archive of every id has its own path. -/
theorem archivePath_inj {left right : BackupId} :
    archivePath left = archivePath right ↔ left = right := by
  constructor
  · intro heq
    have hlist := congrArg String.toList heq
    simp only [archivePath, String.toList_append, List.append_left_inj] at hlist
    exact String.toList_inj.mp hlist
  · rintro rfl
    rfl

/-- The delete of this backup has dropped the row, after the remote copy was deleted. -/
def Task.erases (id : BackupId) : Task Archive → Bool
  | .deleteUnlinking other _ .deleted => decide (other = id)
  | _ => false

/-- The remote deletion of a delete of this backup has succeeded. -/
def Thread.purges (id : BackupId) (thread : Thread Archive) : Bool :=
  match thread with
  | ⟨_, .deletePurging other _ _ _, some .done⟩ => decide (other = id)
  | ⟨_, task, _⟩ => task.erases id

/-- The delete of this backup has tried to unlink the archive too. -/
def Thread.finishes (id : BackupId) (thread : Thread Archive) : Bool :=
  thread.task.erases id && thread.answer.isSome

namespace Panel

variable (env : Env Archive) (p : Panel Archive) (id : BackupId)

/-- A delete of this backup has reported the remote copy as deleted. -/
def reportedDeleted : Bool :=
  decide ((id, RemotePurgeOutcome.deleted) ∈ p.memory.responses)

def purged : Bool :=
  p.threads.any (Thread.purges id) || p.reportedDeleted id

def erased : Bool :=
  p.threads.any (fun thread => thread.task.erases id) || p.reportedDeleted id

def finished : Bool :=
  p.threads.any (Thread.finishes id) || p.reportedDeleted id

/-- No row, no local archive and no object. -/
structure Without : Prop where
  row : p.memory.rows.getRowById id = none
  file : p.stores.file? (archivePath id) = none
  object : p.stores.object? (env.destination.keyForBackup id) = none

/-- A call that would bring something of a deleted backup back does not land so late, and
the unlink of a delete does not fail on an archive that is there. -/
def landsInTime (task : Task Archive) (outcome : Outcome Archive) : Bool :=
  match task, outcome with
  | .sending _ upload, .underway _ _ => !p.purged upload.id
  | .sending _ upload, .stored _ _ _ => !p.purged upload.id
  | .deleteUnlinking _ _ .deleted, .ok => true
  | .deleteUnlinking _ filePath .deleted, _ => (p.stores.file? filePath).isNone
  | .importDownloading id _, _ => !p.finished id
  | .archiving id _, _ => !p.finished id
  | _, _ => true

/-- No upload of a backup stores its object once a delete has deleted the remote copy,
the delete's unlink works, and the id is not imported or drawn again. -/
def uploadsInTime (p : Panel Archive) : Label Archive → Bool
  | .land index outcome =>
      match p.threads[index]? with
      | some ⟨_, task, none⟩ => p.landsInTime task outcome
      | _ => true
  | .resume index =>
      match p.threads[index]? with
      | some ⟨_, .importMeasuring id _, some _⟩ => !p.erased id
      | some ⟨_, .archiving id _, some _⟩ => !p.erased id
      | _ => true
  | .foreign (.put key _ _) => !p.purged (Destination.idOf key)
  | _ => true

/-- What a delete has done so far is undone by nothing: of an id whose copy is purged, whose row
is erased or whose delete has finished, no later step brings back the remote object, the row or
the file. -/
structure Deletes (env : Env Archive) (p : Panel Archive) : Prop where
  sound : p.Sound env
  slashFree : ∀ id, p.purged id = true → SlashFree id
  objects : ∀ id, p.purged id = true →
    p.stores.object? (env.destination.keyForBackup id) = none
  rows : ∀ id, p.erased id = true → p.memory.rows.getRowById id = none
  files : ∀ id, p.finished id = true → p.stores.file? (archivePath id) = none

end Panel

theorem Task.erases_eq_true {id : BackupId} {task : Task Archive} :
    task.erases id = true ↔ ∃ filePath, task = .deleteUnlinking id filePath .deleted := by
  constructor
  · intro herases
    cases task with
    | deleteUnlinking other filePath outcome =>
        cases outcome with
        | deleted =>
            rw [Task.erases, decide_eq_true_eq] at herases
            exact ⟨filePath, by rw [herases]⟩
        | _ => simp [Task.erases] at herases
    | _ => simp [Task.erases] at herases
  · rintro ⟨filePath, rfl⟩
    simp [Task.erases]

theorem Thread.purges_eq_true {id : BackupId} {thread : Thread Archive} :
    thread.purges id = true ↔
      (∃ filePath key uploaded, thread.task = .deletePurging id filePath key uploaded ∧
        thread.answer = some .done) ∨ thread.task.erases id = true := by
  obtain ⟨origin, task, answer⟩ := thread
  cases task with
  | deletePurging other filePath key uploaded =>
      cases answer with
      | none => simp [Thread.purges, Task.erases]
      | some answer => cases answer <;> simp [Thread.purges, Task.erases]
  | _ => simp [Thread.purges]

section Calls

variable {env : Env Archive} {task : Task Archive} {key : Key} {id : BackupId}

theorem Task.importDownloading_of_call
    (hcall : task.call env = some (.download key (archivePath id))) :
    ∃ existing, task = .importDownloading id existing := by
  cases task <;> simp only [Task.call, Option.some.injEq, Call.download.injEq,
    reduceCtorEq] at hcall
  case importDownloading other existing =>
      exact ⟨existing, by rw [archivePath_inj.mp hcall.2]⟩

theorem Task.archiving_of_call
    (hcall : task.call env = some (.createArchive (archivePath id))) :
    ∃ cold, task = .archiving id cold := by
  cases task <;> simp only [Task.call, Option.some.injEq, Call.createArchive.injEq,
    reduceCtorEq] at hcall
  case archiving other cold => exact ⟨cold, by rw [archivePath_inj.mp hcall]⟩

end Calls

namespace Memory

variable {env : Env Archive} {m : Memory} {id : BackupId} {next : Memory × Task Archive}

theorem Goes.erases {opens : BackupId → Prop} {worklist : List BackupRow → Prop}
    (hgoes : m.Goes env opens worklist next) :
    next.2.erases id = false := by
  cases hgoes <;> rfl

theorem Goes.responses {opens : BackupId → Prop} {worklist : List BackupRow → Prop}
    (hgoes : m.Goes env opens worklist next) :
    next.1.responses = m.responses := by
  cases hgoes <;> rfl

theorem Goes.row_none {opens : BackupId → Prop} {worklist : List BackupRow → Prop}
    (hgoes : m.Goes env opens worklist next)
    (hnone : m.rows.getRowById id = none) : next.1.rows.getRowById id = none := by
  cases hgoes with
  | opening pass _ hrow _ => exact BackupTable.none_setRow (by intro row; rfl) hnone
  | _ => exact hnone

/-- Only a delete whose remote deletion succeeded goes on to erase, and by then the row is gone:
the segment that goes on has taken it away. -/
theorem Resumed.erases {task : Task Archive} (hsound : task.Sound env)
    {answer : Answer Archive} (hresumed : m.Resumed env task answer next)
    (herases : next.2.erases id = true) :
    (∃ filePath key uploaded, task = .deletePurging id filePath key uploaded ∧
      answer = .done) ∧ next.1.rows.getRowById id = none := by
  cases hresumed with
  | @deletePurged other filePath outcome task answer hof =>
      obtain ⟨path, htask⟩ := Task.erases_eq_true.mp herases
      injection htask with hid _ houtcome
      subst hid houtcome
      have hgone : (m.deleteRow other).rows.getRowById other = none := by
        rw [deleteRow, BackupTable.getRowById_delete, if_pos rfl]
      rcases hof with rfl | ⟨key, uploaded, rfl, ⟨hdone, -⟩ | ⟨-, -, hnone⟩⟩
      · exact absurd rfl hsound.2
      · exact ⟨⟨filePath, key, uploaded, rfl, hdone⟩, hgone⟩
      · exact absurd hnone (by simp)
  | cleanedUp hgoes | settled hgoes | toExpire hgoes | toExpireNext hgoes | proved _ hgoes =>
      rw [hgoes.erases] at herases
      exact absurd herases (by simp)
  | selected scope backups =>
      cases hselected : m.selectPruned backups <;> simp [hselected, prune, Task.erases] at herases
  | pruned scope key rest => cases rest <;> simp [prune, Task.erases] at herases
  | toReclaim scope answer =>
      cases hrows : m.reclaimable <;> simp [hrows, reclaim, Task.erases] at herases
  | reclaimed scope row rest answer => cases rest <;> simp [reclaim, Task.erases] at herases
  | @archived id cold manifest rows hinsert => cases cold <;> simp [Task.erases] at herases
  | _ => exact absurd herases Bool.false_ne_true

theorem Resumed.responses {task : Task Archive} {answer : Answer Archive}
    (hresumed : m.Resumed env task answer next)
    {response : BackupId × RemotePurgeOutcome} (hresponse : response ∈ next.1.responses) :
    response ∈ m.responses ∨
      ∃ filePath, task = .deleteUnlinking response.1 filePath response.2 := by
  cases hresumed with
  | deleteAnswered other filePath outcome answer =>
      rcases List.mem_cons.mp hresponse with rfl | hold
      · exact Or.inr ⟨filePath, rfl⟩
      · exact Or.inl hold
  | pruned scope key rest =>
      left
      rcases m.forgetPruned_cases key with ⟨hkept, -⟩ | ⟨row, -, ⟨-, hclear⟩ | ⟨-, hdelete⟩⟩
      · rwa [hkept] at hresponse
      · rwa [hclear] at hresponse
      · rwa [hdelete] at hresponse
  | cleanedUp hgoes | settled hgoes | toExpire hgoes | toExpireNext hgoes | proved _ hgoes =>
      rw [hgoes.responses] at hresponse
      exact Or.inl hresponse
  | _ => exact Or.inl hresponse

/-- A backup without a row gets one from an import or a create job only. Every other segment
changes rows that are there, or takes rows away. -/
theorem Resumed.row_none {task : Task Archive} {answer : Answer Archive}
    (hresumed : m.Resumed env task answer next) (hnone : m.rows.getRowById id = none)
    (himport : ∀ expected, task ≠ .importMeasuring id expected)
    (hcreate : ∀ cold, task ≠ .archiving id cold) : next.1.rows.getRowById id = none := by
  cases hresumed with
  | cleanedUp hgoes | settled hgoes | toExpire hgoes | toExpireNext hgoes =>
      exact hgoes.row_none hnone
  | proved _ hgoes =>
      exact hgoes.row_none (BackupTable.none_setRow (by intro row; rfl) hnone)
  | pruned scope key rest =>
      rcases m.forgetPruned_cases key with ⟨hkept, -⟩ | ⟨row, -, ⟨-, hclear⟩ | ⟨-, hdelete⟩⟩
      · rw [hkept]
        exact hnone
      · rw [hclear]
        exact BackupTable.none_setRow (by intro row; rfl) hnone
      · rw [hdelete]
        exact BackupTable.none_delete hnone
  | uploaded _ _ _ | uploadFailed _ _ _ | reclaimed _ _ _ _ | importRestored _ _
  | disproved _ _ => exact BackupTable.none_setRow (by intro row; rfl) hnone
  | expired _ | deletePurged _ => exact BackupTable.none_delete hnone
  | verified other filePath manifest ok =>
      rw [Memory.verified]
      cases ok <;> exact BackupTable.none_setRow (by intro row; rfl) hnone
  | @importRegistered other expected rows hinsert =>
      have hne : id ≠ other := fun heq => himport expected (by rw [heq])
      apply BackupTable.none_setRow (by intro row; rfl)
      rw [BackupTable.getRowById_insert hinsert, if_neg hne]
      exact hnone
  | @archived other cold manifest rows hinsert =>
      have hne : id ≠ other := fun heq => hcreate cold (by rw [heq])
      change rows.getRowById id = none
      rw [BackupTable.getRowById_insert hinsert, if_neg hne]
      exact hnone
  | _ => exact hnone

end Memory

namespace Panel

variable {env : Env Archive} {p : Panel Archive} {id : BackupId}

theorem reportedDeleted_eq_true :
    p.reportedDeleted id = true ↔ (id, RemotePurgeOutcome.deleted) ∈ p.memory.responses := by
  simp [reportedDeleted]

theorem purged_eq_true : p.purged id = true ↔
    (∃ thread ∈ p.threads, thread.purges id = true) ∨ p.reportedDeleted id = true := by
  simp [purged]

theorem erased_eq_true : p.erased id = true ↔
    (∃ thread ∈ p.threads, thread.task.erases id = true) ∨ p.reportedDeleted id = true := by
  simp [erased]

theorem finished_eq_true : p.finished id = true ↔
    (∃ thread ∈ p.threads, thread.task.erases id = true ∧ thread.answer.isSome = true) ∨
      p.reportedDeleted id = true := by
  simp [finished, Thread.finishes]

theorem purged_of_erased (herased : p.erased id = true) : p.purged id = true := by
  rcases erased_eq_true.mp herased with ⟨thread, hthread, herases⟩ | hreported
  · exact purged_eq_true.mpr
      (Or.inl ⟨thread, hthread, Thread.purges_eq_true.mpr (Or.inr herases)⟩)
  · exact purged_eq_true.mpr (Or.inr hreported)

/-- What was purged, erased and finished before a step that starts no new stage. -/
structure KeepsDeletes (before after : Panel Archive) : Prop where
  purged : ∀ id, after.purged id = true → before.purged id = true
  erased : ∀ id, after.erased id = true → before.erased id = true
  finished : ∀ id, after.finished id = true → before.finished id = true

/-- The same responses, and threads that are old or purge nothing. It covers every step that
neither answers a delete nor starts one. -/
theorem keepsDeletes_of_threads {after : Panel Archive}
    (hresponses : after.memory.responses = p.memory.responses)
    (hthreads : ∀ thread ∈ after.threads, thread ∈ p.threads ∨
      ∀ id, thread.purges id = false) : p.KeepsDeletes after := by
  have hreported : ∀ id, after.reportedDeleted id = p.reportedDeleted id := by
    intro id
    rw [reportedDeleted, reportedDeleted, hresponses]
  have hidle : ∀ {thread : Thread Archive} {id}, thread.purges id = false →
      ¬ thread.task.erases id = true := by
    intro thread id hpurges herases
    rw [Thread.purges_eq_true.mpr (Or.inr herases)] at hpurges
    exact absurd hpurges (by simp)
  constructor
  · intro id hpurged
    rw [purged_eq_true, hreported] at hpurged
    rcases hpurged with ⟨thread, hthread, hpurges⟩ | hreported
    · rcases hthreads thread hthread with hold | hnone
      · exact purged_eq_true.mpr (Or.inl ⟨thread, hold, hpurges⟩)
      · rw [hnone id] at hpurges
        exact absurd hpurges (by simp)
    · exact purged_eq_true.mpr (Or.inr hreported)
  · intro id herased
    rw [erased_eq_true, hreported] at herased
    rcases herased with ⟨thread, hthread, herases⟩ | hreported
    · rcases hthreads thread hthread with hold | hnone
      · exact erased_eq_true.mpr (Or.inl ⟨thread, hold, herases⟩)
      · exact absurd herases (hidle (hnone id))
    · exact erased_eq_true.mpr (Or.inr hreported)
  · intro id hfinished
    rw [finished_eq_true, hreported] at hfinished
    rcases hfinished with ⟨thread, hthread, herases, hanswer⟩ | hreported
    · rcases hthreads thread hthread with hold | hnone
      · exact finished_eq_true.mpr (Or.inl ⟨thread, hold, herases, hanswer⟩)
      · exact absurd herases (hidle (hnone id))
    · exact finished_eq_true.mpr (Or.inr hreported)

theorem Deletes.kept (hdeletes : p.Deletes env) {after : Panel Archive}
    (hsound : after.Sound env) (hkeeps : p.KeepsDeletes after)
    (hobjects : ∀ id, p.purged id = true →
      p.stores.object? (env.destination.keyForBackup id) = none →
        after.stores.object? (env.destination.keyForBackup id) = none)
    (hrows : ∀ id, p.erased id = true → p.memory.rows.getRowById id = none →
      after.memory.rows.getRowById id = none)
    (hfiles : ∀ id, p.finished id = true → p.stores.file? (archivePath id) = none →
      after.stores.file? (archivePath id) = none) : after.Deletes env where
  sound := hsound
  slashFree := fun id hpurged => hdeletes.slashFree id (hkeeps.purged id hpurged)
  objects := fun id hpurged =>
    hobjects id (hkeeps.purged id hpurged) (hdeletes.objects id (hkeeps.purged id hpurged))
  rows := fun id herased =>
    hrows id (hkeeps.erased id herased) (hdeletes.rows id (hkeeps.erased id herased))
  files := fun id hfinished =>
    hfiles id (hkeeps.finished id hfinished) (hdeletes.files id (hkeeps.finished id hfinished))

/-- A call that acts: it may be the remote deletion of a delete, or its unlink. -/
theorem Deletes.landed (hdeletes : p.Deletes env) {index : Nat} {origin : Origin}
    {task : Task Archive} {call : Call Archive} {outcome : Outcome Archive}
    {stores : Stores Archive} {answer : Option (Answer Archive)}
    (hthread : p.threads[index]? = some ⟨origin, task, none⟩)
    (hcall : task.call env = some call)
    (hlanded : p.stores.Landed env call outcome stores answer)
    (hintime : p.landsInTime task outcome = true) :
    ({ p with
      stores := stores
      threads := p.threads.set index ⟨origin, task, answer⟩ } : Panel Archive).Deletes env := by
  have hmem := List.mem_of_getElem? hthread
  have htask : task.Sound env := hdeletes.sound.threads _ hmem
  have herased : ∀ id, task.erases id = true → p.erased id = true := by
    intro id herases
    exact erased_eq_true.mpr (Or.inl ⟨_, hmem, herases⟩)
  constructor
  · exact hdeletes.sound.stepped (.landed hthread hcall hlanded)
  · intro id hpurged
    rcases purged_eq_true.mp hpurged with ⟨thread, hset, hpurges⟩ | hreported
    · rcases List.mem_or_eq_of_mem_set hset with hold | rfl
      · exact hdeletes.slashFree id (purged_eq_true.mpr (Or.inl ⟨thread, hold, hpurges⟩))
      · rcases Thread.purges_eq_true.mp hpurges with ⟨path, key, uploaded, rfl, -⟩ | herases
        · exact htask.2.2
        · exact hdeletes.slashFree id (purged_of_erased (herased id herases))
    · exact hdeletes.slashFree id (purged_eq_true.mpr (Or.inr hreported))
  · intro id hpurged
    have hkept : p.purged id = true →
        stores.object? (env.destination.keyForBackup id) = none := by
      intro hbefore
      apply hlanded.object_none (hdeletes.objects id hbefore)
      rintro rfl
      obtain ⟨pass, upload, rfl, hkey⟩ := Task.sending_of_call hcall
      have hid : upload.id = id := by
        rw [← env.destination.keyForBackup_inj, ← htask.key, hkey]
      rw [← hid] at hbefore
      constructor
      · rintro content lastModified rfl
        simp [landsInTime, hbefore] at hintime
      · rintro content lastModified answered rfl
        simp [landsInTime, hbefore] at hintime
    rcases purged_eq_true.mp hpurged with ⟨thread, hset, hpurges⟩ | hreported
    · rcases List.mem_or_eq_of_mem_set hset with hold | rfl
      · exact hkept (purged_eq_true.mpr (Or.inl ⟨thread, hold, hpurges⟩))
      · rcases Thread.purges_eq_true.mp hpurges with ⟨path, key, uploaded, rfl, rfl⟩ | herases
        · rw [Task.call, Option.some.injEq] at hcall
          rw [← htask.2.1]
          exact Stores.Landed.object_deleted (hcall ▸ hlanded)
        · exact hkept (purged_of_erased (herased id herases))
    · exact hkept (purged_eq_true.mpr (Or.inr hreported))
  · intro id hafter
    apply hdeletes.rows id
    rcases erased_eq_true.mp hafter with ⟨thread, hset, herases⟩ | hreported
    · rcases List.mem_or_eq_of_mem_set hset with hold | rfl
      · exact erased_eq_true.mpr (Or.inl ⟨thread, hold, herases⟩)
      · exact herased id herases
    · exact erased_eq_true.mpr (Or.inr hreported)
  · intro id hafter
    have hkept : p.finished id = true → stores.file? (archivePath id) = none := by
      intro hbefore
      apply hlanded.file_none (hdeletes.files id hbefore)
      · rintro key rfl
        obtain ⟨existing, rfl⟩ := Task.importDownloading_of_call hcall
        simp [landsInTime, hbefore] at hintime
      · rintro rfl
        obtain ⟨cold, rfl⟩ := Task.archiving_of_call hcall
        simp [landsInTime, hbefore] at hintime
    rcases finished_eq_true.mp hafter with ⟨thread, hset, herases, hanswer⟩ | hreported
    · rcases List.mem_or_eq_of_mem_set hset with hold | rfl
      · exact hkept (finished_eq_true.mpr (Or.inl ⟨thread, hold, herases, hanswer⟩))
      · obtain ⟨path, rfl⟩ := Task.erases_eq_true.mp herases
        obtain ⟨given, rfl⟩ := Option.isSome_iff_exists.mp hanswer
        rw [Task.call, Option.some.injEq] at hcall
        subst hcall
        rw [← htask]
        apply hlanded.file_unlinked
        cases outcome <;> simp_all [landsInTime]
    · exact hkept (finished_eq_true.mpr (Or.inr hreported))

/-- A segment: it drops the row of a delete that has purged, or it answers one. -/
theorem Deletes.resumed (hdeletes : p.Deletes env) {index : Nat} {origin : Origin}
    {task : Task Archive} {answer : Answer Archive} {next : Memory × Task Archive}
    (hthread : p.threads[index]? = some ⟨origin, task, some answer⟩)
    (hresumed : p.memory.Resumed env task answer next)
    (hintime : p.uploadsInTime (.resume index) = true) :
    ({ p with
      memory := next.1
      threads := p.threads.set index ⟨origin, next.2, none⟩ } : Panel Archive).Deletes env := by
  have hmem := List.mem_of_getElem? hthread
  have htask : task.Sound env := hdeletes.sound.threads _ hmem
  have hreported : ∀ id, (id, RemotePurgeOutcome.deleted) ∈ next.1.responses →
      p.finished id = true ∧ p.erased id = true := by
    intro id hresponse
    rcases hresumed.responses hresponse with hold | ⟨path, rfl⟩
    · have hbefore := reportedDeleted_eq_true.mpr hold
      exact ⟨finished_eq_true.mpr (Or.inr hbefore), erased_eq_true.mpr (Or.inr hbefore)⟩
    · have herases : (Task.deleteUnlinking id path .deleted : Task Archive).erases id = true :=
        Task.erases_eq_true.mpr ⟨path, rfl⟩
      exact ⟨finished_eq_true.mpr (Or.inl ⟨_, hmem, herases, rfl⟩),
        erased_eq_true.mpr (Or.inl ⟨_, hmem, herases⟩)⟩
  have hnew : ∀ id, next.2.erases id = true →
      p.purged id = true ∧ next.1.rows.getRowById id = none := by
    intro id herases
    obtain ⟨⟨path, key, uploaded, rfl, rfl⟩, hgone⟩ := hresumed.erases htask herases
    exact ⟨purged_eq_true.mpr (Or.inl ⟨_, hmem, Thread.purges_eq_true.mpr
      (Or.inl ⟨path, key, uploaded, rfl, rfl⟩)⟩), hgone⟩
  have hpurged : ∀ id, ({ p with
      memory := next.1
      threads := p.threads.set index ⟨origin, next.2, none⟩ } : Panel Archive).purged id = true →
        p.purged id = true := by
    intro id hafter
    rcases purged_eq_true.mp hafter with ⟨thread, hset, hpurges⟩ | hafter
    · rcases List.mem_or_eq_of_mem_set hset with hold | rfl
      · exact purged_eq_true.mpr (Or.inl ⟨thread, hold, hpurges⟩)
      · rcases Thread.purges_eq_true.mp hpurges with ⟨-, -, -, -, hnone⟩ | herases
        · exact absurd hnone (by simp)
        · exact (hnew id herases).1
    · exact purged_of_erased (hreported id (reportedDeleted_eq_true.mp hafter)).2
  constructor
  · exact hdeletes.sound.stepped (.resumed hthread hresumed)
  · exact fun id hafter => hdeletes.slashFree id (hpurged id hafter)
  · exact fun id hafter => hdeletes.objects id (hpurged id hafter)
  · intro id hafter
    have hkept : p.erased id = true → next.1.rows.getRowById id = none := by
      intro hbefore
      apply hresumed.row_none (hdeletes.rows id hbefore)
      · rintro expected rfl
        simp [uploadsInTime, hthread, hbefore] at hintime
      · rintro cold rfl
        simp [uploadsInTime, hthread, hbefore] at hintime
    rcases erased_eq_true.mp hafter with ⟨thread, hset, herases⟩ | hafter
    · rcases List.mem_or_eq_of_mem_set hset with hold | rfl
      · exact hkept (erased_eq_true.mpr (Or.inl ⟨thread, hold, herases⟩))
      · exact (hnew id herases).2
    · exact hkept (hreported id (reportedDeleted_eq_true.mp hafter)).2
  · intro id hafter
    apply hdeletes.files id
    rcases finished_eq_true.mp hafter with ⟨thread, hset, herases, hanswer⟩ | hafter
    · rcases List.mem_or_eq_of_mem_set hset with hold | rfl
      · exact finished_eq_true.mpr (Or.inl ⟨thread, hold, herases, hanswer⟩)
      · exact absurd hanswer (by simp)
    · exact (hreported id (reportedDeleted_eq_true.mp hafter)).1

theorem Begun.purges {label : Label Archive} {next : Memory × Task Archive}
    {origin : Origin} (hbegun : p.Begun env label origin next) (id : BackupId) :
    Thread.purges id ⟨origin, next.2, none⟩ = false := by
  cases hbegun with
  | job _ _ hstarted =>
      cases hstarted with
      | uploading hgoes => cases hgoes <;> rfl
      | _ => rfl
  | sweep _ _ hnext =>
      rcases hnext with rfl | rfl | ⟨-, hgoes⟩
      · rfl
      · rfl
      · cases hgoes <;> rfl
  | _ => rfl

theorem Begun.responses {label : Label Archive} {next : Memory × Task Archive}
    {origin : Origin} (hbegun : p.Begun env label origin next) :
    next.1.responses = p.memory.responses := by
  cases hbegun with
  | job _ _ hstarted =>
      cases hstarted with
      | uploading hgoes => exact hgoes.responses
      | _ => rfl
  | sweep _ _ hnext =>
      rcases hnext with rfl | rfl | ⟨-, hgoes⟩
      · rfl
      · rfl
      · exact hgoes.responses
  | _ => rfl

theorem Begun.row_none {label : Label Archive} {next : Memory × Task Archive}
    {origin : Origin} (hbegun : p.Begun env label origin next)
    (hnone : p.memory.rows.getRowById id = none) : next.1.rows.getRowById id = none := by
  cases hbegun with
  | job _ _ hstarted =>
      cases hstarted with
      | uploading hgoes => exact hgoes.row_none hnone
      | _ => exact hnone
  | sweep _ _ hnext =>
      rcases hnext with rfl | rfl | ⟨-, hgoes⟩
      · exact hnone
      · exact hnone
      · exact hgoes.row_none hnone
  | _ => exact hnone

theorem Deletes.stepped (hdeletes : p.Deletes env) {label : Label Archive}
    {after : Panel Archive} (hstep : p.Stepped env label after)
    (hintime : p.uploadsInTime label = true) : after.Deletes env := by
  have hsound := hdeletes.sound.stepped hstep
  cases hstep with
  | kept label => exact hdeletes
  | recorded hrecorded =>
      apply hdeletes.kept hsound
      · exact keepsDeletes_of_threads hrecorded.responses fun thread hthread => Or.inl hthread
      · exact fun _ _ hnone => hnone
      · intro id _ hnone
        rw [hrecorded.rows]
        exact hnone
      · exact fun _ _ hnone => hnone
  | @begun _ origin next hbegun =>
      apply hdeletes.kept hsound
      · apply keepsDeletes_of_threads hbegun.responses
        intro thread hthread
        rcases List.mem_append.mp hthread with hold | hnew
        · exact Or.inl hold
        · rw [List.mem_singleton.mp hnew]
          exact Or.inr hbegun.purges
      · exact fun _ _ hnone => hnone
      · exact fun _ _ hnone => hbegun.row_none hnone
      · exact fun _ _ hnone => hnone
  | landed hthread hcall hlanded =>
      simp only [uploadsInTime, hthread] at hintime
      exact hdeletes.landed hthread hcall hlanded hintime
  | resumed hthread hresumed => exact hdeletes.resumed hthread hresumed hintime
  | crashed =>
      apply hdeletes.kept hsound
      · exact keepsDeletes_of_threads rfl fun thread hthread => absurd hthread List.not_mem_nil
      · exact fun _ _ hnone => hnone
      · exact fun _ _ hnone => hnone
      · exact fun _ _ hnone => hnone
  | foreign act =>
      apply hdeletes.kept hsound
      · exact keepsDeletes_of_threads rfl fun thread hthread => Or.inl hthread
      · intro id hpurged hnone
        cases act with
        | put key content lastModified =>
            change (p.stores.putObject key content lastModified).object? _ = none
            have hne : env.destination.keyForBackup id ≠ key := by
              rintro rfl
              rw [uploadsInTime, Destination.idOf_keyForBackup _
                (hdeletes.slashFree id hpurged), hpurged] at hintime
              exact absurd hintime (by simp)
            rw [Stores.object?_putObject, if_neg hne]
            exact hnone
        | remove key =>
            change (p.stores.removeObject key).object? _ = none
            rw [Stores.object?_removeObject, hnone]
            exact ite_self none
        | openMultipart key uploadId => exact hnone
        | closeMultipart uploadId => exact hnone
      · exact fun _ _ hnone => hnone
      · intro id _ hnone
        cases act <;> exact hnone

/-- A delete that has not purged leaves the row, the archive and the state of the upload
as they are, and ends there when the remote copy of an uploaded backup stays. -/
def FailedPurgeKeeps (env : Env Archive) (p : Panel Archive) (label : Label Archive) : Prop :=
  (∀ id, label = .delete id →
    (p.step env label).memory.rows = p.memory.rows ∧
      (p.step env label).stores = p.stores) ∧
  ∀ index origin id filePath key uploaded answer,
    p.threads[index]? = some ⟨origin, .deletePurging id filePath key uploaded, answer⟩ →
      (∀ outcome, label = .land index outcome →
        (p.step env label).memory.rows = p.memory.rows ∧
          (p.step env label).stores.files = p.stores.files) ∧
      (label = .resume index → uploaded = true → answer = some .failed →
        (p.step env label).memory = p.memory ∧ (p.step env label).stores = p.stores ∧
          (p.step env label).threads[index]? = some ⟨origin, .ended, none⟩)

theorem failedPurge_keeps (env : Env Archive) (p : Panel Archive) (label : Label Archive) :
    p.FailedPurgeKeeps env label := by
  constructor
  · rintro id rfl
    rw [step]
    cases p.memory.delete env id with
    | none => exact ⟨rfl, rfl⟩
    | some task => exact ⟨rfl, rfl⟩
  · intro index origin id filePath key uploaded answer hthread
    constructor
    · rintro outcome rfl
      rw [step, land, hthread]
      cases answer with
      | some answer => exact ⟨rfl, rfl⟩
      | none =>
          cases hland : p.stores.land env (.delete key) outcome with
          | none => exact ⟨by simp only [Task.call, hland], by simp only [Task.call, hland]⟩
          | some result =>
              obtain ⟨after, given⟩ := result
              refine ⟨by simp only [Task.call, hland], ?_⟩
              simp only [Task.call, hland]
              have hlanded := Stores.land_landed hland
              cases hlanded <;> rfl
    · rintro rfl rfl rfl
      have hlength : index < p.threads.length := by
        by_contra hge
        rw [List.getElem?_eq_none (by omega)] at hthread
        exact absurd hthread (by simp)
      rw [step, resume, hthread]
      exact ⟨rfl, rfl, List.getElem?_set_self hlength⟩

/-- Where uploads do not reach the remote after a delete of their backup has, a delete that
reports the remote copy as deleted leaves nothing behind for good, and in every run a failed
remote deletion leaves everything as it was. The first half needs its condition because an
upload under way is not stopped by a deletion. -/
theorem deleted_forGood (env : Env Archive) (stores : Stores Archive) (settings : Settings)
    (labels : List (Label Archive))
    (hintime : StepRun.Meets (step env) (fun p label => p.uploadsInTime label = true)
      (initial stores settings) labels) :
    (∀ id, (id, RemotePurgeOutcome.deleted) ∈
        ((initial stores settings).run env labels).memory.responses →
      ((initial stores settings).run env labels).Without env id) ∧
    StepRun.Meets (step env) (FailedPurgeKeeps env) (initial stores settings) labels := by
  constructor
  · intro id hresponse
    have hstart : (initial stores settings : Panel Archive).Deletes env := by
      refine ⟨Sound.initial stores settings, ?_, ?_, ?_, ?_⟩ <;>
        simp [initial, purged, erased, finished, reportedDeleted]
    have hdeletes : ((initial stores settings).run env labels).Deletes env :=
      StepRun.invariant_of_meets (step env) (Deletes env)
        (fun p label hdeletes hnow => hdeletes.stepped (step_stepped label) hnow) hstart hintime
    have hreported := reportedDeleted_eq_true.mpr hresponse
    exact ⟨hdeletes.rows id (erased_eq_true.mpr (Or.inr hreported)),
      hdeletes.files id (finished_eq_true.mpr (Or.inr hreported)),
      hdeletes.objects id (purged_eq_true.mpr (Or.inr hreported))⟩
  · apply StepRun.meets_of_forall
    intro label _ p
    exact failedPurge_keeps env p label

end Panel

namespace DeleteDuringUpload

open Sample

/-- A delete from its purge to its answer. -/
def deleted : List (Label Nat) :=
  [.delete "bkp_1", .land 1 .ok, .resume 1, .land 1 .ok, .resume 1]

/-- The object of the deleted backup stays on the remote, without a row that could lead to it:
the upload was under way while the delete removed what was there. -/
theorem upload_outlives_delete :
    let after := (Panel.initial empty settings).run env (created ++ deleted ++ uploaded)
    after.quiescent = true ∧ ("bkp_1", RemotePurgeOutcome.deleted) ∈ after.memory.responses ∧
      ¬ after.Without env "bkp_1" := by
  intro after
  have hended : after.quiescent = true := by decide +kernel
  have hresponse : ("bkp_1", RemotePurgeOutcome.deleted) ∈ after.memory.responses := by
    decide +kernel
  have hobject : after.stores.object? "backups/bkp_1.tar" =
      some ⟨"backups/bkp_1.tar", 1, 100⟩ := by decide +kernel
  refine ⟨hended, hresponse, ?_⟩
  intro hwithout
  have hnone := hwithout.object
  change after.stores.object? "backups/bkp_1.tar" = none at hnone
  rw [hobject] at hnone
  exact absurd hnone (by simp)

/-- The delete follows the upload instead, and finds the object that the upload has left. -/
theorem delete_after_upload :
    (((Panel.initial empty settings).run env (created ++ uploaded ++ deleted)).Without env
        "bkp_1") ∧
      StepRun.Meets (Panel.step env) (Panel.FailedPurgeKeeps env)
        (.initial empty settings) (created ++ uploaded ++ deleted) := by
  have hintime : StepRun.Meets (Panel.step env) (fun p label => p.uploadsInTime label = true)
      (.initial empty settings) (created ++ uploaded ++ deleted) := by decide
  have hresponse : ("bkp_1", RemotePurgeOutcome.deleted) ∈
      ((Panel.initial empty settings).run env
        (created ++ uploaded ++ deleted)).memory.responses := by decide
  have hforGood := Panel.deleted_forGood env empty settings (created ++ uploaded ++ deleted)
    hintime
  exact ⟨hforGood.1 "bkp_1" hresponse, hforGood.2⟩

end DeleteDuringUpload

end Backups

end MailPanel

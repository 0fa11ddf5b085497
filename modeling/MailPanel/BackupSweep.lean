import MailPanel.BackupInvariants

/-
The periodic sweep against the jobs: which archives a queued or running job reads, or
an import has staged, and which archive a sweep is about to unlink.
-/

namespace MailPanel

namespace Backups

variable {Archive : Type}

/-- The local archive that a job is enqueued to read. A clean-up of the remote reads none, and
an import brings its own. -/
def Job.reads : Job → Option Path
  | .create id _ => some (archivePath id)
  | .verify _ filePath _ => some filePath
  | .upload id => some (archivePath id)
  | .reconcile => none
  | .importRemote _ => none
  | .restore _ filePath => some filePath

def Origin.reads : Origin → Option Path
  | .job work => work.reads
  | _ => none

/-- The uploader's own tasks, which are the tasks of a sweep. A thread of a sweep never comes to
any other, and that is how sweeps are kept apart from jobs. -/
def Task.sweeps : Task Archive → Bool
  | .cleaningUp => true
  | .opening _ _ => true
  | .sending _ _ => true
  | .fetching _ _ => true
  | .checking _ _ _ => true
  | .discarding _ _ => true
  | .settled _ _ => true
  | .listing _ => true
  | .pruning _ _ _ => true
  | .pruned _ => true
  | .reclaiming _ _ _ => true
  | .reclaimed _ => true
  | .purging _ _ _ _ => true
  | .purged _ _ => true
  | .unlinking _ _ => true
  | .ended => true
  | _ => false

/-- The row whose archive a reclaim or a local retention is about to unlink. -/
def Task.takes : Task Archive → Option BackupRow
  | .reclaiming _ row _ => some row
  | .purging row _ _ _ => some row
  | .purged row _ => some row
  | .unlinking row _ => some row
  | _ => none

/-- The row that local retention starts with. -/
def Memory.expiresFirst (m : Memory) (scope : Option BackupId) : Option BackupRow :=
  if m.settings.configured then (m.expiredRows scope).head? else none

/-- The row that a task turns to next, when it goes on to reclaim or to expire local archives.
Other tasks turn to none. -/
def Memory.turnsTo (m : Memory) : Task Archive → Option BackupRow
  | .settled (.backup id) _ => m.expiresFirst (some id)
  | .pruned _ => m.reclaimable.head?
  | .reclaiming _ _ rest => rest.head?
  | .reclaimed scope => m.expiresFirst scope
  | .unlinking _ rest => rest.head?
  | _ => none

namespace Panel

variable (env : Env Archive) (p : Panel Archive)

/-- A queued or running job reads this archive, or it is staged for a restore. -/
def needed (path : Path) : Bool :=
  p.memory.queue.any (fun job => decide (job.reads = some path)) ||
    p.threads.any (fun thread =>
      thread.task.active && decide (thread.origin.reads = some path)) ||
    p.memory.staged.any fun id => decide (archivePath id = path)

/-- A sweep is about to unlink this archive. -/
def taken (path : Path) : Bool :=
  p.threads.any fun thread =>
    decide (thread.origin = .sweep) &&
      decide (thread.task.takes.map BackupRow.filePath = some path)

/-- The archive that this step gives to a job, or stages. From then on a sweep must leave it
alone. -/
def asksFor (label : Label Archive) : Option Path :=
  match label with
  | .resume index =>
      match p.threads[index]? with
      | some ⟨_, .preflighting id, some .done⟩ =>
          (p.memory.rows.getRowById id).map BackupRow.filePath
      | some ⟨_, .importVerifying id true _, some (.verdict true)⟩ => some (archivePath id)
      | some ⟨_, .importMeasuring id _, some .done⟩ => some (archivePath id)
      | _ => none
  | _ => (p.enqueued label).bind Job.reads

/-- The archive of the row that a sweep turns to in this step. The timer's own sweep turns to
one at once where nothing is uploaded. -/
def turnsTo : Label Archive → Option Path
  | .tick =>
      if p.threads.any Thread.sweeping || !p.idle || p.memory.settings.uploadToRemote then none
      else (p.memory.expiresFirst none).map BackupRow.filePath
  | .resume index =>
      match p.threads[index]? with
      | some ⟨.sweep, task, some _⟩ => (p.memory.turnsTo task).map BackupRow.filePath
      | _ => none
  | _ => none

/-- No sweep turns to an archive that is needed, and none that a sweep has turned to
comes to be needed. -/
def keepsApart (label : Label Archive) : Bool :=
  (p.turnsTo label).all (fun path => !p.needed path) &&
    (p.asksFor label).all fun path => !p.taken path

/-- A sweep neither unlinks an archive that is needed nor drops the backup of one. -/
def SparesNeeded (env : Env Archive) (p : Panel Archive) (label : Label Archive) : Prop :=
  ∀ index task answer, p.threads[index]? = some ⟨.sweep, task, answer⟩ →
    (∀ outcome path, label = .land index outcome → p.needed path = true →
      p.stores.file? path ≠ none → (p.step env label).stores.file? path ≠ none) ∧
    ∀ row rest, label = .resume index → p.needed row.filePath = true →
      (p.step env label).threads[index]? ≠ some ⟨.sweep, .unlinking row rest, none⟩

/-- What a sweep is about to unlink nobody needs. -/
structure Apart (p : Panel Archive) : Prop where
  sweeps : ∀ thread ∈ p.threads, thread.origin = .sweep → thread.task.sweeps = true
  free : ∀ path, p.taken path = true → p.needed path = false

end Panel

section Calls

variable {env : Env Archive} {task : Task Archive}

/-- A sweep removes a file by the unlink of the row it has turned to, and in no other way. -/
theorem Stores.Landed.file_swept {s after : Stores Archive} {call : Call Archive}
    {outcome : Outcome Archive} {answer : Option (Answer Archive)}
    (hlanded : s.Landed env call outcome after answer) (hsweeps : task.sweeps = true)
    (hcall : task.call env = some call) {path : Path} (hfile : s.file? path ≠ none)
    (hgone : after.file? path = none) :
    task.takes.map BackupRow.filePath = some path := by
  have hremoved : ∀ other, after = s.removeFile other → path = other := by
    rintro other rfl
    by_contra hne
    rw [Stores.file?_removeFile, if_neg hne] at hgone
    exact hfile hgone
  cases hlanded with
  | @downloaded key destPath object hobject | @damaged key destPath content
  | @undone key destPath =>
      cases task <;> simp only [Task.call, Option.some.injEq, reduceCtorEq] at hcall
      exact absurd hsweeps Bool.false_ne_true
  | unlinked other =>
      rw [hremoved other rfl]
      cases task <;> simp only [Task.call, Option.some.injEq, Call.unlink.injEq,
        reduceCtorEq] at hcall
      case reclaiming scope row rest => rw [← hcall]; rfl
      case unlinking row rest => rw [← hcall]; rfl
      case deleteUnlinking id filePath outcome => exact absurd hsweeps Bool.false_ne_true
  | removed other =>
      cases task <;> simp only [Task.call, Option.some.injEq, reduceCtorEq] at hcall
      exact absurd hsweeps Bool.false_ne_true
  | @written destPath content manifest | @halfWritten destPath content =>
      cases task <;> simp only [Task.call, Option.some.injEq, reduceCtorEq] at hcall
      exact absurd hsweeps Bool.false_ne_true
  | _ => exact absurd hgone hfile

end Calls

namespace Memory

variable {env : Env Archive} {m : Memory} {next : Memory × Task Archive}
  {task : Task Archive} {answer : Answer Archive}

theorem Goes.sweeps {opens : BackupId → Prop} {worklist : List BackupRow → Prop}
    (hgoes : m.Goes env opens worklist next) :
    next.2.sweeps = true := by
  cases hgoes <;> rfl

theorem Goes.takes {opens : BackupId → Prop} {worklist : List BackupRow → Prop}
    (hgoes : m.Goes env opens worklist next)
    {row : BackupRow} (htakes : next.2.takes = some row) :
    ∃ rest, worklist (row :: rest) := by
  cases hgoes with
  | @purged first rest hworklist _ _ | @purging first rest hworklist _ _ _ =>
      obtain rfl := Option.some.inj htakes
      exact ⟨rest, hworklist⟩
  | _ => exact absurd htakes.symm (Option.some_ne_none row)

theorem prune_sweeps (scope : Option BackupId) (keys : List Key) :
    (prune scope keys : Task Archive).sweeps = true := by
  cases keys <;> rfl

theorem reclaim_sweeps (scope : Option BackupId) (rows : List BackupRow) :
    (reclaim scope rows : Task Archive).sweeps = true := by
  cases rows <;> rfl

/-- A sweep goes on as a sweep: no segment of one comes to a task of a job or of a request. -/
theorem Resumed.sweeps (hresumed : m.Resumed env task answer next)
    (hsweeps : task.sweeps = true) : next.2.sweeps = true := by
  cases hresumed with
  | cleanedUp hgoes | settled hgoes | toExpire hgoes | toExpireNext hgoes => exact hgoes.sweeps
  | selected scope backups => exact prune_sweeps scope _
  | pruned scope key rest => exact prune_sweeps scope rest
  | toReclaim scope answer => exact reclaim_sweeps scope _
  | reclaimed scope row rest answer => exact reclaim_sweeps scope rest
  | importToVerify expected hof =>
      rcases hof with ⟨rfl, -⟩ | ⟨rfl, -⟩ <;> exact absurd hsweeps Bool.false_ne_true
  | importDiscarded hof =>
      rcases hof with ⟨existing, rfl⟩ | ⟨existing, expected, rfl⟩ | ⟨expected, rfl⟩ <;>
        exact absurd hsweeps Bool.false_ne_true
  | deletePurged hof =>
      rcases hof with rfl | ⟨key, uploaded, rfl, -⟩ <;>
        exact absurd hsweeps Bool.false_ne_true
  | ended _ _ | opened _ _ | sent _ _ | fetched _ _ _ | refused _ _ _ | uploaded _ _ _
  | uploadFailed _ _ _ | expired _ => rfl
  | _ => exact absurd hsweeps Bool.false_ne_true

theorem head?_of_expired {scope : Option BackupId} {row : BackupRow} {rest : List BackupRow}
    (hconfigured : m.settings.configured = true) (hrows : row :: rest = m.expiredRows scope) :
    m.expiresFirst scope = some row := by
  rw [expiresFirst, if_pos hconfigured, ← hrows]
  rfl

theorem prune_takes (scope : Option BackupId) (keys : List Key) :
    (prune scope keys : Task Archive).takes = none := by
  cases keys <;> rfl

theorem reclaim_takes (scope : Option BackupId) (rows : List BackupRow) :
    (reclaim scope rows : Task Archive).takes = rows.head? := by
  cases rows <;> rfl

/-- A row that is about to lose its archive was so before, or the task turns to it. -/
theorem Resumed.takes (hresumed : m.Resumed env task answer next) {row : BackupRow}
    (htakes : next.2.takes = some row) :
    task.takes = some row ∨ m.turnsTo task = some row := by
  cases hresumed with
  | cleanedUp hgoes | proved _ hgoes =>
      obtain ⟨-, hfalse⟩ := hgoes.takes htakes
      exact hfalse.elim
  | settled hgoes =>
      obtain ⟨rest, id, rfl, hconfigured, hrows⟩ := hgoes.takes htakes
      exact Or.inr (head?_of_expired hconfigured hrows)
  | selected scope backups =>
      rw [prune_takes] at htakes
      exact absurd htakes (by simp)
  | pruned scope key rest =>
      rw [prune_takes] at htakes
      exact absurd htakes (by simp)
  | toReclaim scope answer =>
      rw [reclaim_takes] at htakes
      exact Or.inr htakes
  | reclaimed scope first rest answer =>
      rw [reclaim_takes] at htakes
      exact Or.inr htakes
  | @toExpire scope answer next hgoes =>
      obtain ⟨rest, hconfigured, hrows⟩ := hgoes.takes htakes
      exact Or.inr (head?_of_expired hconfigured hrows)
  | expired hof =>
      rcases hof with rfl | ⟨key, uploaded, rfl, -⟩ <;> exact Or.inl htakes
  | toExpireNext hgoes =>
      obtain ⟨rest, rfl⟩ := hgoes.takes htakes
      exact Or.inr rfl
  | @archived id cold manifest rows hinsert =>
      cases cold <;> exact absurd htakes.symm (Option.some_ne_none row)
  | _ => exact absurd htakes.symm (Option.some_ne_none row)

theorem Resumed.active (hresumed : m.Resumed env task answer next)
    (hactive : next.2.active = true) : task.active = true := by
  by_cases hended : task = .ended
  · subst hended
    cases hresumed with
    | ended _ _ => exact hactive
    | refused _ hupload _ => exact absurd hupload (by simp [Task.upload?])
    | expired hof => simp at hof
    | importToVerify _ hof => simp at hof
    | importDiscarded hof => simp at hof
    | deletePurged hof => simp at hof
  · cases task <;> first | rfl | exact absurd rfl hended

theorem Goes.queue {opens : BackupId → Prop} {worklist : List BackupRow → Prop}
    (hgoes : m.Goes env opens worklist next) :
    next.1.queue = m.queue ∧ next.1.staged = m.staged := by
  cases hgoes <;> exact ⟨rfl, rfl⟩

theorem forgetPruned_queue (key : Key) :
    (m.forgetPruned key).queue = m.queue ∧
      ∀ id ∈ (m.forgetPruned key).staged, id ∈ m.staged := by
  rcases m.forgetPruned_cases key with ⟨hkept, -⟩ | ⟨row, -, ⟨-, hclear⟩ | ⟨-, hdelete⟩⟩
  · rw [hkept]
    exact ⟨rfl, fun _ hid => hid⟩
  · rw [hclear]
    exact ⟨rfl, fun _ hid => hid⟩
  · rw [hdelete]
    exact ⟨rfl, fun id hid => (List.mem_filter.mp hid).1⟩

/-- Only a restore request queues a job. -/
theorem Resumed.queue (hresumed : m.Resumed env task answer next) {job : Job}
    (hjob : job ∈ next.1.queue) :
    job ∈ m.queue ∨ ∃ id row, task = .preflighting id ∧ answer = .done ∧
      m.rows.getRowById id = some row ∧ job = .restore id row.filePath := by
  cases hresumed with
  | cleanedUp hgoes | settled hgoes | toExpire hgoes | toExpireNext hgoes | proved _ hgoes =>
      rw [hgoes.queue.1] at hjob
      exact Or.inl hjob
  | pruned scope key rest =>
      rw [(forgetPruned_queue key).1] at hjob
      exact Or.inl hjob
  | @restoreQueued id row hrow =>
      rcases List.mem_append.mp hjob with hold | hnew
      · exact Or.inl hold
      · exact Or.inr ⟨id, row, rfl, rfl, hrow, List.mem_singleton.mp hnew⟩
  | _ => exact Or.inl hjob

/-- Only an import stages an archive, and it does so in the segment that registers the row or
finds the archive good. -/
theorem Resumed.staged (hresumed : m.Resumed env task answer next) {id : BackupId}
    (hid : id ∈ next.1.staged) :
    id ∈ m.staged ∨
      (∃ expected, task = .importVerifying id true expected ∧ answer = .verdict true) ∨
      ∃ expected, task = .importMeasuring id expected ∧ answer = .done := by
  cases hresumed with
  | cleanedUp hgoes | settled hgoes | toExpire hgoes | toExpireNext hgoes | proved _ hgoes =>
      rw [hgoes.queue.2] at hid
      exact Or.inl hid
  | pruned scope key rest => exact Or.inl ((forgetPruned_queue key).2 id hid)
  | expired _ | deletePurged _ | restored _ _ _ => exact Or.inl (List.mem_filter.mp hid).1
  | importRestored other expected =>
      rcases List.mem_cons.mp hid with rfl | hold
      · exact Or.inr (Or.inl ⟨expected, rfl, rfl⟩)
      · exact Or.inl hold
  | @importRegistered other expected rows hinsert =>
      rcases List.mem_cons.mp hid with rfl | hold
      · exact Or.inr (Or.inr ⟨expected, rfl, rfl⟩)
      · exact Or.inl hold
  | _ => exact Or.inl hid

theorem Started.queue {job : Job} (hstarted : m.Started env job next) :
    next.1.queue = m.queue ∧ next.1.staged = m.staged := by
  cases hstarted with
  | uploading hgoes => exact hgoes.queue
  | _ => exact ⟨rfl, rfl⟩

end Memory

namespace Panel

variable {env : Env Archive} {p : Panel Archive}

theorem needed_eq_true {path : Path} :
    p.needed path = true ↔ (∃ job ∈ p.memory.queue, job.reads = some path) ∨
      (∃ thread ∈ p.threads, thread.task.active = true ∧ thread.origin.reads = some path) ∨
      ∃ id ∈ p.memory.staged, archivePath id = path := by
  simp [needed, or_assoc]

theorem taken_eq_true {path : Path} :
    p.taken path = true ↔ ∃ thread ∈ p.threads, thread.origin = .sweep ∧
      thread.task.takes.map BackupRow.filePath = some path := by
  simp [taken]

/-- What a thread that begins needs was needed by its job in the queue, so nothing becomes
needed at the moment at which the job is taken. -/
theorem Begun.needed {label : Label Archive} {origin : Origin} {next : Memory × Task Archive}
    (hbegun : p.Begun env label origin next) {path : Path}
    (hneeded : (p.start origin next).needed path = true) : p.needed path = true := by
  have hkept : next.1.staged = p.memory.staged ∧
      (∀ job ∈ next.1.queue, job ∈ p.memory.queue) ∧
      ∀ job, origin = .job job → job ∈ p.memory.queue := by
    cases hbegun with
    | @job job rest next hfree hqueue hstarted =>
        rw [hstarted.queue.1, hstarted.queue.2, hqueue]
        refine ⟨rfl, fun other hother => List.mem_cons_of_mem job hother, ?_⟩
        rintro other hother
        injection hother with hother
        rw [← hother]
        exact List.mem_cons_self
    | sweep _ _ hnext =>
        rcases hnext with rfl | rfl | ⟨-, hgoes⟩
        · exact ⟨rfl, fun _ hjob => hjob, by simp⟩
        · exact ⟨rfl, fun _ hjob => hjob, by simp⟩
        · exact ⟨hgoes.queue.2, fun _ hjob => hgoes.queue.1 ▸ hjob, by simp⟩
    | _ => exact ⟨rfl, fun _ hjob => hjob, by simp⟩
  obtain ⟨hstaged, hqueue, horigin⟩ := hkept
  apply needed_eq_true.mpr
  rcases needed_eq_true.mp hneeded with ⟨job, hjob, hreads⟩ | ⟨thread, hthread, hactive, hreads⟩ |
    ⟨id, hid, hpath⟩
  · exact Or.inl ⟨job, hqueue job hjob, hreads⟩
  · rcases List.mem_append.mp hthread with hold | hnew
    · exact Or.inr (Or.inl ⟨thread, hold, hactive, hreads⟩)
    · obtain rfl := List.mem_singleton.mp hnew
      cases origin with
      | job work => exact Or.inl ⟨work, horigin work rfl, hreads⟩
      | _ => exact absurd hreads.symm (Option.some_ne_none path)
  · exact Or.inr (Or.inr ⟨id, hstaged ▸ hid, hpath⟩)

/-- An archive is needed from the step that asks for it, and no other step makes it so. With
this the claim about needed files is one about the steps that ask. -/
theorem Stepped.needed {label : Label Archive} {after : Panel Archive}
    (hstep : p.Stepped env label after) {path : Path} (hneeded : after.needed path = true) :
    p.needed path = true ∨ p.asksFor label = some path := by
  cases hstep with
  | kept label => exact Or.inl hneeded
  | @recorded label memory hrecorded =>
      rcases needed_eq_true.mp hneeded with ⟨job, hjob, hreads⟩ | hthread | ⟨id, hid, hpath⟩
      · rcases hrecorded.queue job hjob with hold | hnew
        · exact Or.inl (needed_eq_true.mpr (Or.inl ⟨job, hold, hreads⟩))
        · right
          cases label <;> first
            | exact absurd hnew.symm (Option.some_ne_none job)
            | simp only [asksFor, hnew, Option.bind_some, hreads]
      · exact Or.inl (needed_eq_true.mpr (Or.inr (Or.inl hthread)))
      · exact Or.inl (needed_eq_true.mpr (Or.inr (Or.inr ⟨id, hrecorded.staged ▸ hid, hpath⟩)))
  | begun hbegun => exact Or.inl (hbegun.needed hneeded)
  | @landed index origin task call outcome stores answer hthread hcall hland =>
      left
      apply needed_eq_true.mpr
      rcases needed_eq_true.mp hneeded with hjob | ⟨thread, hset, hactive, hreads⟩ | hstaged
      · exact Or.inl hjob
      · rcases List.mem_or_eq_of_mem_set hset with hold | rfl
        · exact Or.inr (Or.inl ⟨thread, hold, hactive, hreads⟩)
        · exact Or.inr (Or.inl ⟨_, List.mem_of_getElem? hthread, hactive, hreads⟩)
      · exact Or.inr (Or.inr hstaged)
  | @resumed index origin task answer next hthread hresumed =>
      rcases needed_eq_true.mp hneeded with ⟨job, hjob, hreads⟩ | ⟨thread, hset, hactive, hreads⟩ |
        ⟨id, hid, hpath⟩
      · rcases hresumed.queue hjob with hold | ⟨id, row, rfl, rfl, hrow, rfl⟩
        · exact Or.inl (needed_eq_true.mpr (Or.inl ⟨job, hold, hreads⟩))
        · right
          simp only [asksFor, hthread, hrow, Option.map_some]
          exact hreads
      · left
        apply needed_eq_true.mpr
        rcases List.mem_or_eq_of_mem_set hset with hold | rfl
        · exact Or.inr (Or.inl ⟨thread, hold, hactive, hreads⟩)
        · exact Or.inr (Or.inl ⟨_, List.mem_of_getElem? hthread, hresumed.active hactive, hreads⟩)
      · rcases hresumed.staged hid with hold | ⟨expected, rfl, rfl⟩ | ⟨expected, rfl, rfl⟩
        · exact Or.inl (needed_eq_true.mpr (Or.inr (Or.inr ⟨id, hold, hpath⟩)))
        · right
          simp only [asksFor, hthread, hpath]
        · right
          simp only [asksFor, hthread, hpath]
  | crashed =>
      left
      apply needed_eq_true.mpr
      rcases needed_eq_true.mp hneeded with ⟨job, hjob, -⟩ | ⟨thread, hthread, -⟩ | hstaged
      · exact absurd hjob List.not_mem_nil
      · exact absurd hthread List.not_mem_nil
      · exact Or.inr (Or.inr hstaged)
  | foreign act => exact Or.inl hneeded

/-- A sweep is about to unlink an archive from the step that turns to it. -/
theorem Stepped.taken {label : Label Archive} {after : Panel Archive}
    (hstep : p.Stepped env label after) {path : Path} (htaken : after.taken path = true) :
    p.taken path = true ∨ p.turnsTo label = some path := by
  cases hstep with
  | kept label => exact Or.inl htaken
  | recorded _ => exact Or.inl htaken
  | begun hbegun =>
      obtain ⟨thread, hthread, horigin, htakes⟩ := taken_eq_true.mp htaken
      rcases List.mem_append.mp hthread with hold | hnew
      · exact Or.inl (taken_eq_true.mpr ⟨thread, hold, horigin, htakes⟩)
      · obtain rfl := List.mem_singleton.mp hnew
        obtain ⟨row, hrow, rfl⟩ := Option.map_eq_some_iff.mp htakes
        cases hbegun with
        | sweep hidle hsweeping hnext =>
            rcases hnext with rfl | rfl | ⟨hupload, hgoes⟩
            · exact absurd hrow.symm (Option.some_ne_none row)
            · exact absurd hrow.symm (Option.some_ne_none row)
            · obtain ⟨rest, hconfigured, hrows⟩ := hgoes.takes hrow
              right
              rw [turnsTo, hsweeping, hidle, hupload,
                Memory.head?_of_expired hconfigured hrows]
              rfl
        | _ => exact absurd horigin (by simp)
  | landed hthread _ _ =>
      left
      obtain ⟨thread, hset, horigin, htakes⟩ := taken_eq_true.mp htaken
      apply taken_eq_true.mpr
      rcases List.mem_or_eq_of_mem_set hset with hold | rfl
      · exact ⟨thread, hold, horigin, htakes⟩
      · exact ⟨_, List.mem_of_getElem? hthread, horigin, htakes⟩
  | @resumed index origin task answer next hthread hresumed =>
      obtain ⟨thread, hset, horigin, htakes⟩ := taken_eq_true.mp htaken
      rcases List.mem_or_eq_of_mem_set hset with hold | rfl
      · exact Or.inl (taken_eq_true.mpr ⟨thread, hold, horigin, htakes⟩)
      · obtain ⟨row, hrow, rfl⟩ := Option.map_eq_some_iff.mp htakes
        obtain rfl : origin = .sweep := horigin
        rcases hresumed.takes hrow with hbefore | hturns
        · left
          apply taken_eq_true.mpr
          exact ⟨_, List.mem_of_getElem? hthread, rfl, by rw [hbefore]; rfl⟩
        · right
          simp only [turnsTo, hthread, hturns, Option.map_some]
  | crashed => exact absurd htaken Bool.false_ne_true
  | foreign act => exact Or.inl htaken

/-- The step of a sweep asks for nothing: a sweep turns to a file to unlink it, and needs none
itself. -/
theorem Apart.asksFor_of_turnsTo (hapart : p.Apart) {label : Label Archive} {path : Path}
    (hturns : p.turnsTo label = some path) : p.asksFor label = none := by
  cases label with
  | tick => rfl
  | resume index =>
      rw [turnsTo] at hturns
      cases hthread : p.threads[index]? with
      | none => simp only [asksFor, hthread]
      | some thread =>
          obtain ⟨origin, task, answer⟩ := thread
          have hsweeps := hapart.sweeps _ (List.mem_of_getElem? hthread)
          cases origin with
          | sweep =>
              have htask := hsweeps rfl
              simp only [asksFor, hthread]
              cases task <;> first | rfl | exact absurd htask Bool.false_ne_true
          | _ => simp [hthread] at hturns
  | _ => exact absurd hturns.symm (Option.some_ne_none path)

/-- What a sweep has turned to, now or before, nobody needs. -/
theorem Apart.free_of_stepped (hapart : p.Apart) {label : Label Archive}
    {after : Panel Archive} (hstep : p.Stepped env label after)
    (hkeeps : p.keepsApart label = true) {path : Path} (htaken : after.taken path = true) :
    p.needed path = false ∧ p.asksFor label ≠ some path := by
  rw [keepsApart, Bool.and_eq_true, Option.all_eq_true, Option.all_eq_true] at hkeeps
  rcases hstep.taken htaken with hbefore | hturns
  · refine ⟨hapart.free path hbefore, ?_⟩
    intro hasks
    have hfree := hkeeps.2 path hasks
    rw [hbefore] at hfree
    exact absurd hfree Bool.false_ne_true
  · refine ⟨by simpa using hkeeps.1 path hturns, ?_⟩
    rw [hapart.asksFor_of_turnsTo hturns]
    exact (Option.some_ne_none path).symm

theorem Begun.sweeps {label : Label Archive} {origin : Origin} {next : Memory × Task Archive}
    (hbegun : p.Begun env label origin next) (horigin : origin = .sweep) :
    next.2.sweeps = true := by
  cases hbegun with
  | sweep _ _ hnext =>
      rcases hnext with rfl | rfl | ⟨-, hgoes⟩
      · rfl
      · rfl
      · exact hgoes.sweeps
  | _ => exact absurd horigin (by simp)

theorem Apart.stepped (hapart : p.Apart) {label : Label Archive} {after : Panel Archive}
    (hstep : p.Stepped env label after) (hkeeps : p.keepsApart label = true) :
    after.Apart := by
  have hfree : ∀ path, after.taken path = true → after.needed path = false := by
    intro path htaken
    obtain ⟨hbefore, hasks⟩ := hapart.free_of_stepped hstep hkeeps htaken
    by_contra hneeded
    rcases hstep.needed (by simpa using hneeded) with hold | hnew
    · rw [hbefore] at hold
      exact absurd hold Bool.false_ne_true
    · exact hasks hnew
  refine ⟨?_, hfree⟩
  clear hfree
  cases hstep with
  | kept label => exact hapart.sweeps
  | recorded _ => exact hapart.sweeps
  | begun hbegun =>
      intro thread hthread
      rcases List.mem_append.mp hthread with hold | hnew
      · exact hapart.sweeps thread hold
      · obtain rfl := List.mem_singleton.mp hnew
        exact hbegun.sweeps
  | landed hthread _ _ =>
      intro thread hset
      rcases List.mem_or_eq_of_mem_set hset with hold | rfl
      · exact hapart.sweeps thread hold
      · have hold := hapart.sweeps _ (List.mem_of_getElem? hthread)
        exact hold
  | resumed hthread hresumed =>
      intro thread hset horigin
      rcases List.mem_or_eq_of_mem_set hset with hold | rfl
      · exact hapart.sweeps thread hold horigin
      · exact hresumed.sweeps (hapart.sweeps _ (List.mem_of_getElem? hthread) horigin)
  | crashed => exact fun thread hthread => absurd hthread List.not_mem_nil
  | foreign act => exact hapart.sweeps

theorem Apart.file_kept (hapart : p.Apart) {index : Nat} {outcome : Outcome Archive}
    {task : Task Archive} {answer : Option (Answer Archive)} {after : Panel Archive}
    (hthread : p.threads[index]? = some ⟨.sweep, task, answer⟩)
    (hstep : p.Stepped env (.land index outcome) after) {path : Path}
    (hneeded : p.needed path = true) (hfile : p.stores.file? path ≠ none) :
    after.stores.file? path ≠ none := by
  cases hstep with
  | kept _ => exact hfile
  | recorded _ => exact hfile
  | begun hbegun => exact hfile
  | landed hother hcall hland =>
      rw [hthread, Option.some.injEq, Thread.mk.injEq] at hother
      obtain ⟨rfl, rfl, rfl⟩ := hother
      have hmem := List.mem_of_getElem? hthread
      intro hgone
      have htakes := hland.file_swept (hapart.sweeps _ hmem rfl) hcall hfile hgone
      have hfree := hapart.free path (taken_eq_true.mpr ⟨_, hmem, rfl, htakes⟩)
      rw [hfree] at hneeded
      exact absurd hneeded Bool.false_ne_true

/-- Where a sweep turns to no archive that is needed, and nothing comes to need one that it has
turned to, no sweep takes an archive from a job or from an import. The sweep asks once whether
the panel is idle and then goes on for as long as its list lasts. -/
theorem sparesNeeded_of_keepsApart (env : Env Archive) (stores : Stores Archive)
    (settings : Settings) (labels : List (Label Archive))
    (hkeeps : StepRun.Meets (step env) (fun p label => p.keepsApart label = true)
      (initial stores settings) labels) :
    StepRun.Meets (step env) (SparesNeeded env) (initial stores settings) labels := by
  refine StepRun.meets_of_meets (step env) Apart ?_ ?_ hkeeps
  · intro p label hapart hkeeps
    have hstep : p.Stepped env label (p.step env label) := step_stepped label
    refine ⟨?_, hapart.stepped hstep hkeeps⟩
    intro index task answer hthread
    constructor
    · rintro outcome path rfl hneeded hfile
      exact hapart.file_kept hthread hstep hneeded hfile
    · rintro row rest - hneeded hunlinking
      have htaken : (p.step env label).taken row.filePath = true :=
        taken_eq_true.mpr ⟨_, List.mem_of_getElem? hunlinking, rfl, rfl⟩
      rw [(hapart.free_of_stepped hstep hkeeps htaken).1] at hneeded
      exact absurd hneeded Bool.false_ne_true
  · exact ⟨by simp [initial], by simp [initial, taken]⟩

end Panel

namespace RestoreDuringSweep

open Sample

/-- The create job ends.  The archive, which only the remote holds by now, is imported
for a restore. -/
def imported : List (Label Nat) :=
  [.land 0 .ok, .resume 0, .importRemote "bkp_1", .pump, .land 1 .ok, .resume 1, .land 1 .ok,
    .resume 1, .land 1 .ok, .resume 1]

/-- A sweep has started when the restore is requested, queued and begun. -/
def requested : List (Label Nat) :=
  [.tick, .restore "bkp_1", .land 3 .ok, .resume 3, .pump]

/-- The sweep cleans up, lists, prunes nothing and reclaims. -/
def swept : List (Label Nat) :=
  [.land 2 (.cleaned []), .resume 2, .land 2 .ok, .resume 2, .land 2 .ok, .resume 2]

/-- A sweep had started when the restore was requested, queued and begun: it unlinks the archive
that the restore is about to extract, since it does not look at the queue again. -/
theorem sweep_unlinks_restored :
    let before := (Panel.initial empty settings).run env
      (created ++ uploaded ++ imported ++ requested ++ swept)
    before.needed "bkp_1.tar" = true ∧ before.stores.file? "bkp_1.tar" = some 1 ∧
      (before.step env (.land 2 .ok)).stores.file? "bkp_1.tar" = none ∧
      ¬ StepRun.Meets (Panel.step env) (Panel.SparesNeeded env) (.initial empty settings)
        (created ++ uploaded ++ imported ++ requested ++ swept ++ [.land 2 .ok]) := by
  intro before
  have hneeded : before.needed "bkp_1.tar" = true := by decide +kernel
  have hfile : before.stores.file? "bkp_1.tar" = some 1 := by decide +kernel
  have hgone : (before.step env (.land 2 .ok)).stores.file? "bkp_1.tar" = none := by
    decide +kernel
  have hthread : (before.threads[2]?).map (fun thread => (thread.origin, thread.answer)) =
      some (.sweep, none) := by decide +kernel
  refine ⟨hneeded, hfile, hgone, ?_⟩
  intro hspares
  rw [StepRun.meets_append] at hspares
  have hlast : before.SparesNeeded env (.land 2 .ok) := hspares.2.1
  obtain ⟨⟨origin, task, answer⟩, hsweep, hsame⟩ := Option.map_eq_some_iff.mp hthread
  rw [Prod.mk.injEq] at hsame
  obtain ⟨rfl, rfl⟩ := hsame
  refine (hlast 2 task none hsweep).1 .ok "bkp_1.tar" rfl hneeded ?_ hgone
  rw [hfile]
  exact Option.some_ne_none 1

/-- The sweep uploads and reclaims an archive that no job reads any more. -/
def alone : List (Label Nat) :=
  [.verify "bkp_1", .pump, .land 1 .ok, .resume 1, .configure settings, .tick,
    .land 2 (.cleaned []), .resume 2, .land 2 .ok, .resume 2, .land 2 (.stored 1 100 true),
    .resume 2, .land 2 .ok, .resume 2, .land 2 .ok, .resume 2, .land 2 .ok, .resume 2,
    .land 2 .ok, .resume 2, .land 2 .ok, .resume 2, .land 2 .ok]

/-- The sweep uploads and reclaims an archive that no job reads any more: the file goes, and the
run meets the condition at every step. -/
theorem sweep_alone_spares :
    let start : Panel Nat := .initial empty { settings with uploadToRemote := false }
    (start.run env (created ++ alone)).stores.file? "bkp_1.tar" = none ∧
      StepRun.Meets (Panel.step env) (Panel.SparesNeeded env) start (created ++ alone) := by
  intro start
  refine ⟨by decide +kernel, ?_⟩
  apply Panel.sparesNeeded_of_keepsApart
  decide

end RestoreDuringSweep

end Backups

end MailPanel

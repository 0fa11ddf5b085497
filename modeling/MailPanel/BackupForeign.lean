import MailPanel.BackupInvariants

/-
What the panel does to data of other programs in its bucket: deletions and aborted
multipart uploads, against the keys that the destination gives to backups.
-/

namespace MailPanel

namespace Backups

variable {Archive : Type}

/-- Objects and multipart uploads under keys that no backup has are still there. -/
structure Stores.LeavesForeign (env : Env Archive) (before after : Stores Archive) : Prop where
  objects : ∀ object ∈ before.objects, ¬ env.destination.Owns object.key →
    object ∈ after.objects
  multiparts : ∀ upload ∈ before.multiparts, ¬ env.destination.Owns upload.key →
    upload ∈ after.multiparts

/-- The next step of the panel touches nothing foreign.  What another program does is
not the panel's step. -/
def Panel.SparesForeign (env : Env Archive) (p : Panel Archive) (label : Label Archive) :
    Prop :=
  (∀ act, label ≠ .foreign act) → p.stores.LeavesForeign env (p.step env label).stores

/-- A clean-up finds no multipart upload of another program that it can abort, and
remote retention selects no object of another program. -/
def Panel.selectsOwn (env : Env Archive) (p : Panel Archive) : Label Archive → Bool
  | .land index (.cleaned kept) =>
      match p.threads[index]? with
      | some ⟨_, .cleaningUp, none⟩ =>
          p.stores.multiparts.all fun upload =>
            decide (upload.uploadId ∈ kept) || decide (env.destination.Owns upload.key)
      | _ => true
  | .resume index =>
      match p.threads[index]? with
      | some ⟨_, .listing _, some (.listed backups)⟩ =>
          (p.memory.selectPruned backups).all fun key => decide (env.destination.Owns key)
      | _ => true
  | _ => true

/-- Every key that is up for deletion is the panel's own. -/
structure Panel.DeletesOwn (env : Env Archive) (p : Panel Archive) : Prop where
  sound : p.Sound env
  pruneKeys : ∀ thread ∈ p.threads, ∀ key ∈ thread.task.pruneKeys, env.destination.Owns key

section LeavesForeign

variable {env : Env Archive} {s : Stores Archive}

theorem Stores.LeavesForeign.refl (s : Stores Archive) : s.LeavesForeign env s where
  objects := fun _ hobject _ => hobject
  multiparts := fun _ hupload _ => hupload

theorem Stores.leavesForeign_removeObject {key : Key} (hkey : env.destination.Owns key) :
    s.LeavesForeign env (s.removeObject key) where
  objects := by
    intro object hobject hforeign
    apply List.mem_filter.mpr
    refine ⟨hobject, ?_⟩
    have hne : object.key ≠ key := fun heq => hforeign (heq ▸ hkey)
    simpa using hne
  multiparts := fun _ hupload _ => hupload

theorem Stores.leavesForeign_putObject {key : Key} (hkey : env.destination.Owns key)
    (content : Archive) (lastModified : Nat) :
    s.LeavesForeign env (s.putObject key content lastModified) where
  objects := by
    intro object hobject hforeign
    have hremoved := (Stores.leavesForeign_removeObject hkey).objects object hobject hforeign
    exact List.mem_append_left _ hremoved
  multiparts := fun _ hupload _ => hupload

theorem Stores.leavesForeign_openMultipart (key : Key) (uploadId : Nat) :
    s.LeavesForeign env (s.openMultipart key uploadId) where
  objects := fun _ hobject _ => hobject
  multiparts := fun _ hupload _ => List.mem_append_left _ hupload

theorem Stores.leavesForeign_abortMultiparts {kept : List Nat}
    (hkept : ∀ upload ∈ s.multiparts, upload.uploadId ∉ kept →
      env.destination.Owns upload.key) : s.LeavesForeign env (s.abortMultiparts kept) where
  objects := fun _ hobject _ => hobject
  multiparts := by
    intro upload hupload hforeign
    apply List.mem_filter.mpr
    refine ⟨hupload, ?_⟩
    by_cases hid : upload.uploadId ∈ kept
    · simpa using hid
    · exact absurd (hkept upload hupload hid) hforeign

/-- Every call spares what is foreign if the keys it deletes and stores under, and the
multipart uploads it aborts, are the panel's own. -/
theorem Stores.Landed.leavesForeign {call : Call Archive} {outcome : Outcome Archive}
    {after : Stores Archive} {answer : Option (Answer Archive)}
    (hlanded : s.Landed env call outcome after answer)
    (hdelete : ∀ key, call = .delete key → env.destination.Owns key)
    (hupload : ∀ key, call = .upload key → env.destination.Owns key)
    (hclean : ∀ kept, call = .cleanupInterruptedUploads → outcome = .cleaned kept →
      ∀ upload ∈ s.multiparts, upload.uploadId ∉ kept → env.destination.Owns upload.key) :
    s.LeavesForeign env after := by
  cases hlanded with
  | cleaned kept => exact Stores.leavesForeign_abortMultiparts (hclean kept rfl rfl)
  | underway content lastModified =>
      exact Stores.leavesForeign_putObject (hupload _ rfl) content lastModified
  | stored content lastModified _ =>
      exact Stores.leavesForeign_putObject (hupload _ rfl) content lastModified
  | @opened key uploadId => exact Stores.leavesForeign_openMultipart key uploadId
  | deleted key => exact Stores.leavesForeign_removeObject (hdelete key rfl)
  | lost key => exact Stores.leavesForeign_removeObject (hdelete key rfl)
  | _ => exact ⟨fun _ hobject _ => hobject, fun _ hopen _ => hopen⟩

end LeavesForeign

section Calls

variable {env : Env Archive} {task : Task Archive} {key : Key}

theorem Task.Sound.delete_owned (hsound : task.Sound env)
    (hprune : ∀ key ∈ task.pruneKeys, env.destination.Owns key)
    (hcall : task.call env = some (.delete key)) : env.destination.Owns key := by
  cases task <;> simp only [Task.call, Option.some.injEq, Call.delete.injEq,
    reduceCtorEq] at hcall
  case discarding pass upload => exact hcall ▸ ⟨upload.id, hsound.slashFree, hsound.key⟩
  case pruning scope first rest => exact hcall ▸ hprune first List.mem_cons_self
  case purging row rest other uploaded => exact hcall ▸ ⟨row.id, hsound.2.1, hsound.1⟩
  case deletePurging id filePath other uploaded => exact hcall ▸ ⟨id, hsound.2.2, hsound.2.1⟩

theorem Task.cleaningUp_of_call (hcall : task.call env = some .cleanupInterruptedUploads) :
    task = .cleaningUp := by
  cases task <;> simp only [Task.call, Option.some.injEq, reduceCtorEq] at hcall
  rfl

theorem Task.Sound.upload_owned (hsound : task.Sound env)
    (hcall : task.call env = some (.upload key)) : env.destination.Owns key := by
  cases task <;> simp only [Task.call, Option.some.injEq, Call.upload.injEq,
    reduceCtorEq] at hcall
  case sending pass upload => exact hcall ▸ ⟨upload.id, hsound.slashFree, hsound.key⟩

end Calls

namespace Panel

variable {env : Env Archive} {p : Panel Archive}

theorem DeletesOwn.stepped (howns : p.DeletesOwn env) {label : Label Archive}
    {after : Panel Archive} (hstep : p.Stepped env label after)
    (hselects : p.selectsOwn env label = true) : after.DeletesOwn env := by
  have hsound := howns.sound.stepped hstep
  cases hstep with
  | kept label => exact howns
  | recorded _ => exact ⟨hsound, howns.pruneKeys⟩
  | begun hbegun =>
      refine ⟨hsound, ?_⟩
      intro thread hthread
      rcases List.mem_append.mp hthread with hold | hnew
      · exact howns.pruneKeys thread hold
      · rw [List.mem_singleton.mp hnew, hbegun.pruneKeys]
        exact fun key hkey => absurd hkey List.not_mem_nil
  | landed hthread _ _ =>
      refine ⟨hsound, ?_⟩
      intro thread hset
      rcases List.mem_or_eq_of_mem_set hset with hold | rfl
      · exact howns.pruneKeys thread hold
      · have hold := howns.pruneKeys _ (List.mem_of_getElem? hthread)
        exact hold
  | resumed hthread hresumed =>
      refine ⟨hsound, ?_⟩
      intro thread hset
      rcases List.mem_or_eq_of_mem_set hset with hold | rfl
      · exact howns.pruneKeys thread hold
      · intro key hkey
        rcases hresumed.pruneKeys hkey with hbefore | ⟨scope, backups, rfl, rfl, hselected⟩
        · exact howns.pruneKeys _ (List.mem_of_getElem? hthread) key hbefore
        · simp only [selectsOwn, hthread, List.all_eq_true, decide_eq_true_eq] at hselects
          exact hselects key hselected
  | crashed => exact ⟨hsound, by simp⟩
  | foreign act => exact ⟨hsound, howns.pruneKeys⟩

theorem DeletesOwn.leavesForeign (howns : p.DeletesOwn env) {label : Label Archive}
    {after : Panel Archive} (hstep : p.Stepped env label after)
    (hpanel : ∀ act, label ≠ .foreign act) (hselects : p.selectsOwn env label = true) :
    p.stores.LeavesForeign env after.stores := by
  cases hstep with
  | @landed index origin task call outcome stores answer hthread hcall hlanded =>
      have hmem := List.mem_of_getElem? hthread
      have htask : task.Sound env := howns.sound.threads _ hmem
      have hprune : ∀ key ∈ task.pruneKeys, env.destination.Owns key :=
        howns.pruneKeys _ hmem
      apply hlanded.leavesForeign
      · rintro key rfl
        exact htask.delete_owned hprune hcall
      · rintro key rfl
        exact htask.upload_owned hcall
      · rintro kept rfl rfl upload hupload hkept
        have hclean := Task.cleaningUp_of_call hcall
        subst hclean
        simp only [selectsOwn, hthread, List.all_eq_true, Bool.or_eq_true,
          decide_eq_true_eq] at hselects
        exact (hselects upload hupload).resolve_left hkept
  | foreign act => exact absurd rfl (hpanel act)
  | _ => exact Stores.LeavesForeign.refl p.stores

/-- Where clean-ups find only the panel's own multipart uploads and retention selects only the
panel's own objects, no step of the panel touches anything foreign. Both conditions are about
what the bucket holds, since neither listing is limited to names that the panel gives. -/
theorem sparesForeign_of_selectsOwn (env : Env Archive) (stores : Stores Archive)
    (settings : Settings) (labels : List (Label Archive))
    (hselects : StepRun.Meets (step env) (fun p label => p.selectsOwn env label = true)
      (initial stores settings) labels) :
    StepRun.Meets (step env) (SparesForeign env) (initial stores settings) labels := by
  refine StepRun.meets_of_meets (step env) (DeletesOwn env) ?_ ?_ hselects
  · intro p label howns hselects
    have hstep : p.Stepped env label (p.step env label) := step_stepped label
    refine ⟨?_, howns.stepped hstep hselects⟩
    intro hpanel
    exact howns.leavesForeign hstep hpanel hselects
  · exact ⟨Sound.initial stores settings, by simp [initial]⟩

end Panel

namespace SharedBucket

open Sample

/-- Another program keeps its dumps under `backups-db/`, and has an upload open. -/
def stores : Stores Nat where
  files := []
  objects := [⟨"backups-db/may.tar", 1, 100⟩, ⟨"backups-db/june.tar", 2, 200⟩]
  multiparts := [⟨"films/trip.mkv", 7⟩]

def panel : Panel Nat :=
  .initial stores settings

/-- One sweep: clean-up, listing, and one prune. -/
def sweep : List (Label Nat) :=
  [.tick, .land 0 (.cleaned []), .resume 0, .land 0 .ok, .resume 0, .land 0 .ok]

/-- The sweep deletes the older dump of another program, whose keys begin with the same letters
as the panel's, and aborts an upload of that program that has nothing to do with backups. -/
theorem sweep_removes_foreign :
    ¬ env.destination.Owns "backups-db/may.tar" ∧ ¬ env.destination.Owns "films/trip.mkv" ∧
      (panel.run env sweep).stores.objects = [⟨"backups-db/june.tar", 2, 200⟩] ∧
      (panel.run env sweep).stores.multiparts = [] ∧
      ¬ StepRun.Meets (Panel.step env) (Panel.SparesForeign env) panel sweep := by
  have hdump : ¬ env.destination.Owns "backups-db/may.tar" := by decide
  have hfilm : ¬ env.destination.Owns "films/trip.mkv" := by decide
  have hobjects : (panel.run env sweep).stores.objects =
      [⟨"backups-db/june.tar", 2, 200⟩] := by decide
  have hmultiparts : (panel.run env sweep).stores.multiparts = [] := by decide
  refine ⟨hdump, hfilm, hobjects, hmultiparts, ?_⟩
  intro hspares
  have habort := hspares.2.1 (by simp)
  have hopen : ⟨"films/trip.mkv", 7⟩ ∈ (panel.step env .tick).stores.multiparts := by
    decide
  have hclosed : ((panel.step env .tick).step env (.land 0 (.cleaned []))).stores.multiparts =
      [] := by decide
  have hkept := habort.multiparts _ hopen hfilm
  rw [hclosed] at hkept
  exact absurd hkept List.not_mem_nil

/-- The same sweep on a bucket with the panel's own objects only. -/
def ownStores : Stores Nat where
  files := []
  objects := [⟨"backups/bkp_1.tar", 1, 100⟩, ⟨"backups/bkp_2.tar", 2, 200⟩]
  multiparts := [⟨"backups/bkp_2.tar", 7⟩]

/-- On a bucket with the panel's own objects only, the same sweep prunes the older backup,
aborts the panel's own upload and meets the condition. -/
theorem ownSweep_sparesForeign :
    ((Panel.initial ownStores settings).run env sweep).stores.objects =
        [⟨"backups/bkp_2.tar", 2, 200⟩] ∧
      StepRun.Meets (Panel.step env) (Panel.SparesForeign env) (.initial ownStores settings)
        sweep := by
  refine ⟨by decide, ?_⟩
  apply Panel.sparesForeign_of_selectsOwn
  decide

end SharedBucket

end Backups

end MailPanel

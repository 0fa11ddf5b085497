import MailPanel.BackupUploads

/-
Remote retention: what a prune counts, and whether a verified copy is left when it has
deleted what it selected, while uploads and other prunes go on.
-/

namespace MailPanel

namespace Backups

variable {Archive : Type}

namespace Panel

variable (env : Env Archive) (p : Panel Archive)

/-- A verified copy: its row is marked as uploaded, and the object verifies. -/
def verifiedAt (key : Key) : Bool :=
  p.memory.rows.any fun row =>
    decide (row.uploadStatus = .uploaded) && decide (row.remoteKey = some key) &&
      row.copied env p.stores

/-- An upload to this key is under way. -/
def sends (key : Key) : Bool :=
  p.threads.any fun thread => thread.task.sends key

/-- A prune has still to delete this key. -/
def prunes (key : Key) : Bool :=
  p.threads.any fun thread => decide (key ∈ thread.task.pruneKeys)

def pruning : Bool :=
  p.threads.any fun thread => !thread.task.pruneKeys.isEmpty

/-- A verified copy that no prune deletes and no upload replaces. -/
def lasts (key : Key) : Bool :=
  p.verifiedAt env key && !p.prunes key && !p.sends key

/-- While something is being pruned, another copy than this one lasts. -/
def spares (key : Key) : Bool :=
  !p.pruning || p.memory.rows.any fun row => row.remoteKey.any fun other =>
    decide (other ≠ key) && p.lasts env other

/-- The uploads under way have no object yet, or a verified one. -/
def unseen : Bool :=
  p.threads.all fun thread => thread.task.upload?.all fun upload =>
    (p.stores.object? upload.key).isNone || p.verifiedAt env upload.key

/-- When the thread at this index is done with the key, no object is left there, or
another upload still minds it. -/
def leaves (index : Nat) (key : Key) : Bool :=
  (p.stores.object? key).isNone ||
    (p.threads.eraseIdx index).any fun thread => thread.task.sends key

/-- No upload begins for a key that is to be pruned, or for the one copy that lasts. -/
def beginsApart (label : Label Archive) : Bool :=
  (p.begins label).all fun id =>
    !p.prunes (env.destination.keyForBackup id) && p.spares env (env.destination.keyForBackup id)

/-- What retention spares first of a listing. -/
def newestOf (backups : List RemoteBackup) : Option Key :=
  (newest? (backups.map fun backup => ⟨backup.key, backup.lastModified⟩)).map
    RetentionCandidate.id

/-- No listing of a prune and no crash falls into an upload that has an object already;
an upload that ends leaves a verified copy or nothing, as does the drop of a row; and the
newest backup of a prune's listing is a copy that lasts until the prune is done. -/
def keepsVerified (label : Label Archive) : Bool :=
  p.beginsApart env label &&
    match label with
    | .land _ (.failed false) => true
    | .land index _ =>
        match p.threads[index]? with
        | some ⟨_, .listing _, none⟩ => p.unseen env
        | some ⟨_, .purging _ _ key _, none⟩ => p.spares env key
        | some ⟨_, .deletePurging _ _ key _, none⟩ => p.spares env key
        | _ => true
    | .resume index =>
        match p.threads[index]? with
        | some ⟨_, .checking _ upload _, some (.verdict true)⟩ =>
            p.leaves index upload.key || (p.memory.rows.getRowById upload.id).any fun row =>
              p.stores.holds env upload.key row.manifest
        | some ⟨_, .discarding _ upload, some _⟩ => p.leaves index upload.key
        | some ⟨_, .listing _, some (.listed backups)⟩ =>
            (p.memory.selectPruned backups).isEmpty ||
              (newestOf backups).any (fun key => p.lasts env key) &&
                (p.memory.selectPruned backups).all fun key => !p.sends key
        | some ⟨_, task, some answer⟩ =>
            (task.drops answer).all fun id => p.leaves index (env.destination.keyForBackup id)
        | _ => true
    | .crash => p.unseen env
    | .foreign (.put key _ _) =>
        !env.destination.lists key && !p.prunes key && !p.verifiedAt env key
    | .foreign (.remove key) =>
        !env.destination.lists key && !p.prunes key && !p.verifiedAt env key
    | _ => true

/-- A prune counts verified copies only, and no deletion of it takes the last one. -/
def PrunesSafely (env : Env Archive) (p : Panel Archive) (label : Label Archive) : Prop :=
  ∀ index origin task, p.threads[index]? = some ⟨origin, task, none⟩ →
    (∀ scope, task = .listing scope → label = .land index .ok →
      ∀ backup ∈ p.stores.listing env, p.verifiedAt env backup.key = true) ∧
    ∀ scope key rest outcome, task = .pruning scope key rest → label = .land index outcome →
      (∃ other, p.verifiedAt env other = true) →
        ∃ other, (p.step env label).verifiedAt env other = true

/-- Every listed object is a verified copy or belongs to an upload; what is to be pruned
is apart from uploads, and leaves a copy. -/
structure Counted (env : Env Archive) (p : Panel Archive) : Prop where
  sound : p.Sound env
  seen : ∀ key, (p.stores.object? key).isSome = true → env.destination.lists key = true →
    p.verifiedAt env key = true ∨ p.sends key = true
  gone : ∀ thread ∈ p.threads, ∀ scope key rest, thread.task = .pruning scope key rest →
    thread.answer = some .done → p.stores.object? key = none
  apart : ∀ key, p.prunes key = true → p.sends key = false
  spared : p.pruning = true → ∃ key, p.lasts env key = true

end Panel

namespace Panel

variable {env : Env Archive} {p : Panel Archive}

theorem verifiedAt_eq_true {key : Key} :
    p.verifiedAt env key = true ↔ ∃ row ∈ p.memory.rows, row.uploadStatus = .uploaded ∧
      row.remoteKey = some key ∧ row.copied env p.stores = true := by
  simp [verifiedAt, and_assoc]

theorem sends_eq_true {key : Key} :
    p.sends key = true ↔ ∃ thread ∈ p.threads, thread.task.sends key = true := by
  rw [sends, List.any_eq_true]

theorem prunes_eq_true {key : Key} :
    p.prunes key = true ↔ ∃ thread ∈ p.threads, key ∈ thread.task.pruneKeys := by
  simp [prunes]

theorem pruning_eq_true : p.pruning = true ↔ ∃ key, p.prunes key = true := by
  simp only [prunes_eq_true, pruning, List.any_eq_true, Bool.not_eq_true',
    List.isEmpty_eq_false_iff_exists_mem]
  constructor
  · rintro ⟨thread, hthread, key, hkey⟩
    exact ⟨key, thread, hthread, hkey⟩
  · rintro ⟨key, thread, hthread, hkey⟩
    exact ⟨thread, hthread, key, hkey⟩

theorem lasts_eq_true {key : Key} :
    p.lasts env key = true ↔
      p.verifiedAt env key = true ∧ p.prunes key = false ∧ p.sends key = false := by
  simp [lasts, and_assoc]

theorem isSome_of_verifiedAt {key : Key} (hverified : p.verifiedAt env key = true) :
    (p.stores.object? key).isSome = true := by
  obtain ⟨row, -, -, hkey, hcopied⟩ := verifiedAt_eq_true.mp hverified
  rw [BackupRow.copied_of_key hkey, Stores.holds, Option.any_eq_true] at hcopied
  obtain ⟨object, hobject, -⟩ := hcopied
  rw [hobject]
  rfl

/-- A copy lasts that is not this one. -/
theorem exists_of_spares (hpruning : p.pruning = true) {key : Key}
    (hspares : p.spares env key = true) : ∃ other, other ≠ key ∧ p.lasts env other = true := by
  rw [spares, hpruning, Bool.not_true, Bool.false_or, List.any_eq_true] at hspares
  obtain ⟨row, -, hother⟩ := hspares
  obtain ⟨other, -, hlasts⟩ := Option.any_eq_true _ _ |>.mp hother
  rw [Bool.and_eq_true, decide_eq_true_eq] at hlasts
  exact ⟨other, hlasts⟩

theorem mem_listing_isSome {backup : RemoteBackup} (hbackup : backup ∈ p.stores.listing env) :
    (p.stores.object? backup.key).isSome = true ∧
      env.destination.lists backup.key = true := by
  obtain ⟨object, hobject, hlists, rfl⟩ := Stores.exists_of_mem_listing hbackup
  refine ⟨?_, hlists⟩
  rw [Option.isSome_iff_ne_none]
  exact fun hnone => RowTable.lookup_eq_none hnone hobject rfl

end Panel

section Landed

variable {env : Env Archive} {p : Panel Archive} {index : Nat} {origin : Origin}
  {task : Task Archive} {call : Call Archive} {outcome : Outcome Archive}
  {stores : Stores Archive} {answer : Option (Answer Archive)}

/-- An answer changes no task. -/
theorem any_set_answer {threads : List (Thread Archive)}
    (hthread : threads[index]? = some ⟨origin, task, none⟩) (happens : Task Archive → Bool) :
    ((threads.set index ⟨origin, task, answer⟩).any fun thread => happens thread.task) =
      threads.any fun thread => happens thread.task := by
  have hiff : (threads.set index ⟨origin, task, answer⟩).map Thread.task =
      threads.map Thread.task := by
    apply List.ext_getElem?
    intro place
    rw [List.getElem?_map, List.getElem?_map]
    by_cases heq : index = place
    · subst heq
      obtain ⟨hlength, -⟩ := List.getElem?_eq_some_iff.mp hthread
      rw [List.getElem?_set_self hlength, hthread]
      rfl
    · rw [List.getElem?_set_ne heq]
  have hany := congrArg (List.any · happens) hiff
  simpa only [List.any_map, Function.comp_def] using hany

theorem Panel.verifiedAt_of_object {after : Panel Archive} {key : Key}
    (hverified : p.verifiedAt env key = true) (hrows : after.memory.rows = p.memory.rows)
    (hobject : after.stores.object? key = p.stores.object? key) :
    after.verifiedAt env key = true := by
  obtain ⟨row, hrow, huploaded, hkey, hcopied⟩ := Panel.verifiedAt_eq_true.mp hverified
  apply Panel.verifiedAt_eq_true.mpr
  refine ⟨row, hrows ▸ hrow, huploaded, hkey, ?_⟩
  rw [BackupRow.copied_of_object hkey hobject]
  exact hcopied

/-- Whatever call lands while a prune is under way, a copy that lasts is left alone. -/
theorem Panel.Counted.exists_untouched (hcounted : p.Counted env)
    (hthread : p.threads[index]? = some ⟨origin, task, none⟩)
    (hcall : task.call env = some call)
    (hlanded : p.stores.Landed env call outcome stores answer)
    (hkeeps : p.keepsVerified env (.land index outcome) = true) (hpruning : p.pruning = true) :
    ∃ key, p.lasts env key = true ∧ stores.object? key = p.stores.object? key := by
  have hmem := List.mem_of_getElem? hthread
  obtain ⟨key, hlasts⟩ := hcounted.spared hpruning
  obtain ⟨hverified, hprunes, hsends⟩ := Panel.lasts_eq_true.mp hlasts
  have hnotSends : task.sends key = false := by
    by_contra htask
    rw [Panel.sends_eq_true.mpr ⟨_, hmem, by simpa using htask⟩] at hsends
    exact absurd hsends (by simp)
  have hother : p.spares env key = true → call = .delete key →
      ∃ other, p.lasts env other = true ∧ stores.object? other = p.stores.object? other := by
    rintro hspares rfl
    obtain ⟨other, hne, hlastsOther⟩ := Panel.exists_of_spares hpruning hspares
    refine ⟨other, hlastsOther, ?_⟩
    rcases hlanded.object other with hsame | hupload | ⟨hdelete, -⟩
    · exact hsame
    · exact absurd hupload (by simp)
    · injection hdelete with hkey
      exact absurd hkey.symm hne
  rcases hlanded.object key with hsame | rfl | ⟨rfl, -, houtcome⟩
  · exact ⟨key, hlasts, hsame⟩
  · obtain ⟨pass, upload, rfl, hkey⟩ := Task.sending_of_call hcall
    rw [Task.sends_eq_true.mpr ⟨upload, rfl, hkey⟩] at hnotSends
    exact absurd hnotSends (by simp)
  · have happlied : outcome ≠ .failed false := by
      rcases houtcome with ⟨rfl, -⟩ | ⟨rfl, -⟩ <;> simp
    cases task <;> simp only [Task.call, Option.some.injEq, Call.delete.injEq,
      reduceCtorEq] at hcall
    case discarding pass upload =>
        rw [Task.sends_eq_true.mpr ⟨upload, rfl, hcall⟩] at hnotSends
        exact absurd hnotSends (by simp)
    case pruning scope other rest =>
        subst hcall
        rw [Panel.prunes_eq_true.mpr ⟨_, hmem, List.mem_cons_self⟩] at hprunes
        exact absurd hprunes (by simp)
    case purging row rest other uploaded =>
        subst hcall
        refine hother ?_ rfl
        rcases houtcome with ⟨rfl, -⟩ | ⟨rfl, -⟩ <;>
          simp only [Panel.keepsVerified, hthread, Bool.and_eq_true] at hkeeps <;>
          exact hkeeps.2
    case deletePurging id filePath other uploaded =>
        subst hcall
        refine hother ?_ rfl
        rcases houtcome with ⟨rfl, -⟩ | ⟨rfl, -⟩ <;>
          simp only [Panel.keepsVerified, hthread, Bool.and_eq_true] at hkeeps <;>
          exact hkeeps.2

/-- What a thread has sent or has still to prune no call changes. -/
theorem Panel.sends_landed (hthread : p.threads[index]? = some ⟨origin, task, none⟩) (key : Key) :
    ({ p with
      stores := stores
      threads := p.threads.set index ⟨origin, task, answer⟩ } : Panel Archive).sends key =
        p.sends key :=
  any_set_answer hthread fun task => task.sends key

theorem Panel.prunes_landed (hthread : p.threads[index]? = some ⟨origin, task, none⟩) (key : Key) :
    ({ p with
      stores := stores
      threads := p.threads.set index ⟨origin, task, answer⟩ } : Panel Archive).prunes key =
        p.prunes key :=
  any_set_answer hthread fun task => decide (key ∈ task.pruneKeys)

theorem Panel.pruning_landed (hthread : p.threads[index]? = some ⟨origin, task, none⟩) :
    ({ p with
      stores := stores
      threads := p.threads.set index ⟨origin, task, answer⟩ } : Panel Archive).pruning =
        p.pruning :=
  any_set_answer hthread fun task => !task.pruneKeys.isEmpty

theorem Panel.Counted.landed (hcounted : p.Counted env)
    (hthread : p.threads[index]? = some ⟨origin, task, none⟩)
    (hcall : task.call env = some call)
    (hlanded : p.stores.Landed env call outcome stores answer)
    (hkeeps : p.keepsVerified env (.land index outcome) = true) :
    ({ p with
      stores := stores
      threads := p.threads.set index ⟨origin, task, answer⟩ } : Panel Archive).Counted env := by
  have hmem := List.mem_of_getElem? hthread
  constructor
  · exact hcounted.sound.stepped (.landed hthread hcall hlanded)
  · intro key hsome hlists
    rw [Panel.sends_landed hthread]
    rcases hlanded.object key with hsame | rfl | ⟨-, hnone, -⟩
    · change (stores.object? key).isSome = true at hsome
      rw [hsame] at hsome
      rcases hcounted.seen key hsome hlists with hverified | hsends
      · exact Or.inl (Panel.verifiedAt_of_object hverified rfl hsame)
      · exact Or.inr hsends
    · obtain ⟨pass, upload, rfl, hkey⟩ := Task.sending_of_call hcall
      exact Or.inr (Panel.sends_eq_true.mpr
        ⟨_, hmem, Task.sends_eq_true.mpr ⟨upload, rfl, hkey⟩⟩)
    · change (stores.object? key).isSome = true at hsome
      rw [hnone] at hsome
      exact absurd hsome (by simp)
  · intro thread hset scope key rest htask hanswer
    change stores.object? key = none
    rcases List.mem_or_eq_of_mem_set hset with hold | rfl
    · have hnone := hcounted.gone thread hold scope key rest htask hanswer
      rcases hlanded.object key with hsame | rfl | ⟨-, hgone, -⟩
      · rw [hsame]
        exact hnone
      · obtain ⟨pass, upload, rfl, hkey⟩ := Task.sending_of_call hcall
        have hprunes : p.prunes key = true :=
          Panel.prunes_eq_true.mpr ⟨thread, hold, by rw [htask]; exact List.mem_cons_self⟩
        have hsends : p.sends key = true := Panel.sends_eq_true.mpr
          ⟨_, hmem, Task.sends_eq_true.mpr ⟨upload, rfl, hkey⟩⟩
        rw [hcounted.apart key hprunes] at hsends
        exact absurd hsends Bool.false_ne_true
      · exact hgone
    · subst htask hanswer
      obtain rfl := Option.some.inj hcall
      exact hlanded.object_deleted
  · intro key hprunes
    rw [Panel.prunes_landed hthread] at hprunes
    rw [Panel.sends_landed hthread]
    exact hcounted.apart key hprunes
  · intro hpruning
    rw [Panel.pruning_landed hthread] at hpruning
    obtain ⟨key, hlasts, hsame⟩ :=
      hcounted.exists_untouched hthread hcall hlanded hkeeps hpruning
    obtain ⟨hverified, hprunes, hsends⟩ := Panel.lasts_eq_true.mp hlasts
    refine ⟨key, Panel.lasts_eq_true.mpr ⟨Panel.verifiedAt_of_object hverified rfl hsame, ?_, ?_⟩⟩
    · rw [Panel.prunes_landed hthread]
      exact hprunes
    · rw [Panel.sends_landed hthread]
      exact hsends

end Landed

section Resumed

variable {env : Env Archive} {p : Panel Archive} {index : Nat} {origin : Origin}
  {task : Task Archive} {answer : Answer Archive} {next : Memory × Task Archive}

/-- An upload of a row of the table goes to the key of the row. -/
theorem Panel.sends_of_uploads (hsound : p.Sound env)
    (hthread : p.threads[index]? = some ⟨origin, task, some answer⟩)
    (hresumed : p.memory.Resumed env task answer next) {id : BackupId}
    (huploads : next.2.uploads id = true) :
    next.2.sends (env.destination.keyForBackup id) = true := by
  obtain ⟨upload, hupload, rfl⟩ := Task.uploads_eq_true.mp huploads
  apply Task.sends_eq_true.mpr
  refine ⟨upload, hupload, ?_⟩
  rcases hresumed.begins hupload with hold | ⟨-, hkey⟩
  · exact (Task.upload_sound (hsound.thread hthread) hold).key
  · exact hkey

theorem Panel.sends_of_leaves {key : Key} (hleaves : p.leaves index key = true)
    (hsome : (p.stores.object? key).isSome = true) {thread : Thread Archive} :
    ∃ other ∈ p.threads.set index thread, other.task.sends key = true := by
  rw [Panel.leaves, Bool.or_eq_true, List.any_eq_true] at hleaves
  rcases hleaves with hnone | ⟨other, hmem, hsends⟩
  · rw [Option.isNone_iff_eq_none] at hnone
    rw [hnone] at hsome
    exact absurd hsome Bool.false_ne_true
  · obtain ⟨place, hne, hplace⟩ := List.mem_eraseIdx_iff_getElem?.mp hmem
    refine ⟨other, List.mem_iff_getElem?.mpr ⟨place, ?_⟩, hsends⟩
    rw [List.getElem?_set_ne hne.symm]
    exact hplace

/-- What the condition says of the end of an upload and of the drop of a row. -/
theorem Panel.leaves_of_keeps (hthread : p.threads[index]? = some ⟨origin, task, some answer⟩)
    (hkeeps : p.keepsVerified env (.resume index) = true) :
    (∀ pass upload copy, task = .checking pass upload copy → answer = .verdict true →
      p.leaves index upload.key = true ∨ ∃ row ∈ p.memory.rows, row.id = upload.id ∧
        p.stores.holds env upload.key row.manifest = true) ∧
    (∀ pass upload, task = .discarding pass upload → p.leaves index upload.key = true) ∧
    ∀ id, task.drops answer = some id →
      p.leaves index (env.destination.keyForBackup id) = true := by
  rw [Panel.keepsVerified, Bool.and_eq_true] at hkeeps
  have hthen := hkeeps.2
  refine ⟨?_, ?_, ?_⟩
  · rintro pass upload copy rfl rfl
    simp only [hthread, Bool.or_eq_true, Option.any_eq_true] at hthen
    rcases hthen with hleaves | ⟨row, hrow, hholds⟩
    · exact Or.inl hleaves
    · exact Or.inr ⟨row, BackupTable.mem_of_getRowById hrow,
        BackupTable.id_of_getRowById hrow, hholds⟩
  · rintro pass upload rfl
    simpa only [hthread] using hthen
  · intro id hdrops
    cases task with
    | purging row rest key uploaded | purged row rest | deletePurging other path key uploaded
    | deletePurged other path outcome =>
        simp only [hthread, hdrops, Option.all_some] at hthen
        exact hthen
    | _ => exact absurd hdrops.symm (Option.some_ne_none id)

/-- What a segment leaves of a verified copy: the copy, or an upload to its key, if it
was not to be pruned. -/
theorem Panel.Counted.verified_resumed (hcounted : p.Counted env)
    (hthread : p.threads[index]? = some ⟨origin, task, some answer⟩)
    (hresumed : p.memory.Resumed env task answer next)
    (hkeeps : p.keepsVerified env (.resume index) = true) {key : Key}
    (hverified : p.verifiedAt env key = true) :
    (∃ row ∈ next.1.rows, row.uploadStatus = .uploaded ∧ row.remoteKey = some key ∧
        row.copied env p.stores = true) ∨
      ∃ thread ∈ p.threads.set index ⟨origin, next.2, none⟩, thread.task.sends key = true := by
  obtain ⟨hlength, -⟩ := List.getElem?_eq_some_iff.mp hthread
  have hmem := List.mem_of_getElem? hthread
  have htask : task.Sound env := hcounted.sound.thread hthread
  have hsome := Panel.isSome_of_verifiedAt hverified
  obtain ⟨row, hrow, huploaded, hremoteKey, hcopied⟩ := Panel.verifiedAt_eq_true.mp hverified
  have hkey := (hcounted.sound.memory.rows row hrow).remoteKey key hremoteKey
  obtain ⟨-, hdiscarding, hdrops⟩ := Panel.leaves_of_keeps hthread hkeeps
  rcases hresumed.keeps_uploaded hcounted.sound.memory htask hrow huploaded with
    ⟨after, hafter, hkept, hstays⟩ | huploads | ⟨pass, upload, rfl, hid⟩ |
    ⟨scope, pruned, rest, rfl, rfl, hpruned⟩ | hdropped
  · refine Or.inl ⟨after, hafter, hstays, hkept.remoteKey.symm.trans hremoteKey, ?_⟩
    rw [hkept.copied]
    exact hcopied
  · right
    refine ⟨_, List.mem_set hlength _, ?_⟩
    rw [hkey]
    exact Panel.sends_of_uploads hcounted.sound hthread hresumed huploads
  · right
    have hleaves := hdiscarding pass upload rfl
    rw [htask.key, hid, ← hkey] at hleaves
    exact Panel.sends_of_leaves hleaves hsome
  · rw [hremoteKey, Option.some.injEq] at hpruned
    subst hpruned
    rw [hcounted.gone _ hmem scope key rest rfl rfl] at hsome
    exact absurd hsome Bool.false_ne_true
  · right
    have hleaves := hdrops row.id hdropped
    rw [← hkey] at hleaves
    exact Panel.sends_of_leaves hleaves hsome

/-- Who uploads to a key after a segment did so before, or begins to. -/
theorem Panel.sends_resumed
    (hthread : p.threads[index]? = some ⟨origin, task, some answer⟩)
    (hresumed : p.memory.Resumed env task answer next) {key : Key}
    (hsends : ∃ thread ∈ p.threads.set index ⟨origin, next.2, none⟩,
      thread.task.sends key = true) :
    p.sends key = true ∨ ∃ id, p.begins (.resume index) = some id ∧
      key = env.destination.keyForBackup id := by
  obtain ⟨thread, hset, htask⟩ := hsends
  rcases List.mem_or_eq_of_mem_set hset with hold | rfl
  · exact Or.inl (Panel.sends_eq_true.mpr ⟨thread, hold, htask⟩)
  · obtain ⟨upload, hupload, rfl⟩ := Task.sends_eq_true.mp htask
    rcases hresumed.begins hupload with hbefore | ⟨hbegins, hkey⟩
    · exact Or.inl (Panel.sends_eq_true.mpr ⟨_, List.mem_of_getElem? hthread,
        Task.sends_eq_true.mpr ⟨upload, hbefore, rfl⟩⟩)
    · exact Or.inr ⟨upload.id, by simp only [Panel.begins, hthread, hbegins], hkey⟩

theorem Panel.prunes_resumed
    (hthread : p.threads[index]? = some ⟨origin, task, some answer⟩)
    (hresumed : p.memory.Resumed env task answer next) {key : Key}
    (hprunes : ∃ thread ∈ p.threads.set index ⟨origin, next.2, none⟩,
      key ∈ thread.task.pruneKeys) :
    p.prunes key = true ∨ ∃ scope backups, task = .listing scope ∧
      answer = .listed backups ∧ key ∈ p.memory.selectPruned backups := by
  obtain ⟨thread, hset, hkey⟩ := hprunes
  rcases List.mem_or_eq_of_mem_set hset with hold | rfl
  · exact Or.inl (Panel.prunes_eq_true.mpr ⟨thread, hold, hkey⟩)
  · rcases hresumed.pruneKeys hkey with hbefore | hselected
    · exact Or.inl (Panel.prunes_eq_true.mpr ⟨_, List.mem_of_getElem? hthread, hbefore⟩)
    · exact Or.inr hselected

/-- What the condition says of the selection of a prune: the newest backup of its listing
lasts, and nothing that it selects is being uploaded. -/
theorem Panel.selected_of_keeps {scope : Option BackupId} {backups : List RemoteBackup}
    (hthread : p.threads[index]? = some ⟨origin, .listing scope, some (.listed backups)⟩)
    (hkeeps : p.keepsVerified env (.resume index) = true) {key : Key}
    (hkey : key ∈ p.memory.selectPruned backups) :
    p.sends key = false ∧ ∃ newest, p.lasts env newest = true ∧
      newest ∉ p.memory.selectPruned backups := by
  rw [Panel.keepsVerified, Bool.and_eq_true] at hkeeps
  have hthen := hkeeps.2
  simp only [hthread, Bool.or_eq_true, Bool.and_eq_true, List.isEmpty_iff, List.all_eq_true,
    Bool.not_eq_true', Option.any_eq_true] at hthen
  rcases hthen with hempty | ⟨⟨newest, hnewest, hlasts⟩, hall⟩
  · rw [hempty] at hkey
    exact absurd hkey List.not_mem_nil
  · refine ⟨hall key hkey, newest, hlasts, ?_⟩
    obtain ⟨candidate, hcandidate, rfl⟩ := Option.map_eq_some_iff.mp hnewest
    exact newest_notMem_selectBackupsForDeletion hcandidate

/-- A copy outlasts a segment that neither selects it nor begins to upload it again. -/
theorem Panel.Counted.lasts_resumed (hcounted : p.Counted env)
    (hthread : p.threads[index]? = some ⟨origin, task, some answer⟩)
    (hresumed : p.memory.Resumed env task answer next)
    (hkeeps : p.keepsVerified env (.resume index) = true) {key : Key}
    (hlasts : p.lasts env key = true)
    (hbegins : ∀ id, p.begins (.resume index) = some id →
      key ≠ env.destination.keyForBackup id)
    (hselects : ∀ scope backups, task = .listing scope → answer = .listed backups →
      key ∉ p.memory.selectPruned backups) :
    ({ p with
      memory := next.1
      threads := p.threads.set index ⟨origin, next.2, none⟩ } : Panel Archive).lasts env key =
        true := by
  obtain ⟨hverified, hprunes, hsends⟩ := Panel.lasts_eq_true.mp hlasts
  have hnotSent : ¬ ∃ thread ∈ p.threads.set index ⟨origin, next.2, none⟩,
      thread.task.sends key = true := by
    intro hsent
    rcases Panel.sends_resumed hthread hresumed hsent with hbefore | ⟨id, hid, hkey⟩
    · rw [hbefore] at hsends
      exact absurd hsends (by simp)
    · exact hbegins id hid hkey
  apply Panel.lasts_eq_true.mpr
  refine ⟨?_, ?_, ?_⟩
  · rcases hcounted.verified_resumed hthread hresumed hkeeps hverified with hkept | hsent
    · exact Panel.verifiedAt_eq_true.mpr hkept
    · exact absurd hsent hnotSent
  · by_contra hpruned
    rcases Panel.prunes_resumed hthread hresumed
        (Panel.prunes_eq_true.mp (by simpa using hpruned)) with
      hbefore | ⟨scope, backups, hlisting, hlisted, hselected⟩
    · rw [hbefore] at hprunes
      exact absurd hprunes (by simp)
    · exact hselects scope backups hlisting hlisted hselected
  · by_contra hsent
    exact hnotSent (Panel.sends_eq_true.mp (by simpa using hsent))

theorem Panel.begins_apart {label : Label Archive} (hkeeps : p.keepsVerified env label = true)
    {id : BackupId} (hbegins : p.begins label = some id) :
    p.prunes (env.destination.keyForBackup id) = false ∧
      p.spares env (env.destination.keyForBackup id) = true := by
  have hapart : p.beginsApart env label = true := (Bool.and_eq_true_iff.mp hkeeps).1
  rw [Panel.beginsApart, hbegins] at hapart
  simpa using hapart

/-- Some copy lasts that no upload begins to replace. -/
theorem Panel.Counted.exists_lasting (hcounted : p.Counted env) {label : Label Archive}
    (hkeeps : p.keepsVerified env label = true) (hpruning : p.pruning = true) :
    ∃ key, p.lasts env key = true ∧
      ∀ id, p.begins label = some id → key ≠ env.destination.keyForBackup id := by
  cases hbegins : p.begins label with
  | none =>
      obtain ⟨key, hlasts⟩ := hcounted.spared hpruning
      exact ⟨key, hlasts, by simp⟩
  | some id =>
      obtain ⟨key, hne, hlasts⟩ :=
        Panel.exists_of_spares hpruning (Panel.begins_apart hkeeps hbegins).2
      refine ⟨key, hlasts, ?_⟩
      rintro other hother
      obtain rfl := Option.some.inj hother
      exact hne

theorem Panel.Counted.seen_resumed (hcounted : p.Counted env)
    (hthread : p.threads[index]? = some ⟨origin, task, some answer⟩)
    (hresumed : p.memory.Resumed env task answer next)
    (hkeeps : p.keepsVerified env (.resume index) = true) {key : Key}
    (hsome : (p.stores.object? key).isSome = true) (hlists : env.destination.lists key = true) :
    (∃ row ∈ next.1.rows, row.uploadStatus = .uploaded ∧ row.remoteKey = some key ∧
        row.copied env p.stores = true) ∨
      ∃ thread ∈ p.threads.set index ⟨origin, next.2, none⟩, thread.task.sends key = true := by
  obtain ⟨hlength, -⟩ := List.getElem?_eq_some_iff.mp hthread
  obtain ⟨hchecking, hdiscarding, -⟩ := Panel.leaves_of_keeps hthread hkeeps
  rcases hcounted.seen key hsome hlists with hverified | hsends
  · exact hcounted.verified_resumed hthread hresumed hkeeps hverified
  · by_cases htask : task.sends key = true
    · obtain ⟨upload, hupload, rfl⟩ := Task.sends_eq_true.mp htask
      rcases hresumed.ends_upload hupload with hon | ⟨pass, copy, rfl, rfl, hnext⟩ | ⟨pass, rfl⟩
      · exact Or.inr ⟨_, List.mem_set hlength _, Task.sends_eq_true.mpr ⟨upload, hon, rfl⟩⟩
      · rcases hchecking pass upload copy rfl rfl with hleaves | ⟨row, hrow, hid, hholds⟩
        · exact Or.inr (Panel.sends_of_leaves hleaves hsome)
        · left
          rw [hnext]
          exact ⟨_, BackupTable.mem_setRow.mpr (Or.inr ⟨row, hrow, hid, rfl⟩), rfl, rfl, hholds⟩
      · exact Or.inr (Panel.sends_of_leaves (hdiscarding pass upload rfl) hsome)
    · exact Or.inr (exists_mem_set hthread (fun h => absurd h htask)
        (Panel.sends_eq_true.mp hsends))

theorem Panel.Counted.resumed (hcounted : p.Counted env)
    (hthread : p.threads[index]? = some ⟨origin, task, some answer⟩)
    (hresumed : p.memory.Resumed env task answer next)
    (hkeeps : p.keepsVerified env (.resume index) = true) :
    ({ p with
      memory := next.1
      threads := p.threads.set index ⟨origin, next.2, none⟩ } : Panel Archive).Counted env := by
  have hnoBegin : ∀ scope, task = .listing scope → p.begins (.resume index) = none := by
    rintro scope rfl
    simp only [Panel.begins, hthread, Memory.begins, Option.filter_none]
  constructor
  · exact hcounted.sound.stepped (.resumed hthread hresumed)
  · intro key hsome hlists
    rcases hcounted.seen_resumed hthread hresumed hkeeps hsome hlists with hkept | hsent
    · exact Or.inl (Panel.verifiedAt_eq_true.mpr hkept)
    · exact Or.inr (Panel.sends_eq_true.mpr hsent)
  · intro thread hset scope key rest htask hanswer
    rcases List.mem_or_eq_of_mem_set hset with hold | rfl
    · exact hcounted.gone thread hold scope key rest htask hanswer
    · exact absurd hanswer (by simp)
  · intro key hprunes
    by_contra hsent
    have hsends := Panel.sends_resumed hthread hresumed
      (Panel.sends_eq_true.mp (by simpa using hsent))
    rcases Panel.prunes_resumed hthread hresumed (Panel.prunes_eq_true.mp hprunes) with
      hbefore | ⟨scope, backups, rfl, rfl, hselected⟩
    · rcases hsends with hold | ⟨id, hid, rfl⟩
      · rw [hcounted.apart key hbefore] at hold
        exact absurd hold Bool.false_ne_true
      · rw [(Panel.begins_apart hkeeps hid).1] at hbefore
        exact absurd hbefore Bool.false_ne_true
    · rcases hsends with hold | ⟨id, hid, rfl⟩
      · rw [(Panel.selected_of_keeps hthread hkeeps hselected).1] at hold
        exact absurd hold Bool.false_ne_true
      · rw [hnoBegin scope rfl] at hid
        exact absurd hid.symm (Option.some_ne_none id)
  · intro hpruning
    obtain ⟨pruned, hpruned⟩ := Panel.pruning_eq_true.mp hpruning
    have hselecting : (∃ scope backups key, task = .listing scope ∧ answer = .listed backups ∧
        key ∈ p.memory.selectPruned backups) → ∃ key, ({ p with
          memory := next.1
          threads := p.threads.set index ⟨origin, next.2, none⟩ } : Panel Archive).lasts env key =
            true := by
      rintro ⟨scope, backups, key, rfl, rfl, hselected⟩
      obtain ⟨-, newest, hlasts, hspared⟩ := Panel.selected_of_keeps hthread hkeeps hselected
      refine ⟨newest, hcounted.lasts_resumed hthread hresumed hkeeps hlasts ?_ ?_⟩
      · simp [hnoBegin scope rfl]
      · rintro - other - hother
        obtain rfl := Answer.listed.inj hother
        exact hspared
    rcases Panel.prunes_resumed hthread hresumed (Panel.prunes_eq_true.mp hpruned) with
      hbefore | ⟨scope, backups, htask, hanswer, hselected⟩
    · by_cases hselects : ∃ scope backups key, task = .listing scope ∧
          answer = .listed backups ∧ key ∈ p.memory.selectPruned backups
      · exact hselecting hselects
      · obtain ⟨key, hlasts, hbegins⟩ :=
          hcounted.exists_lasting hkeeps (Panel.pruning_eq_true.mpr ⟨pruned, hbefore⟩)
        refine ⟨key, hcounted.lasts_resumed hthread hresumed hkeeps hlasts hbegins ?_⟩
        intro scope backups htask hanswer hselected
        exact hselects ⟨scope, backups, key, htask, hanswer, hselected⟩
    · exact hselecting ⟨scope, backups, pruned, htask, hanswer, hselected⟩

end Resumed

namespace Panel

variable {env : Env Archive} {p : Panel Archive}

theorem Counted.recorded (hcounted : p.Counted env) {enqueued : Option Job} {memory : Memory}
    (hrecorded : p.memory.Recorded enqueued memory)
    (hsound : ({ p with memory := memory } : Panel Archive).Sound env) :
    ({ p with memory := memory } : Panel Archive).Counted env := by
  have hverified : ∀ key, p.verifiedAt env key = true →
      ({ p with memory := memory } : Panel Archive).verifiedAt env key = true :=
    fun key hverified => verifiedAt_of_object hverified hrecorded.rows rfl
  refine ⟨hsound, ?_, hcounted.gone, hcounted.apart, ?_⟩
  · intro key hsome hlists
    rcases hcounted.seen key hsome hlists with hbefore | hsends
    · exact Or.inl (hverified key hbefore)
    · exact Or.inr hsends
  · intro hpruning
    obtain ⟨key, hlasts⟩ := hcounted.spared hpruning
    obtain ⟨hbefore, hprunes, hsends⟩ := lasts_eq_true.mp hlasts
    exact ⟨key, lasts_eq_true.mpr ⟨hverified key hbefore, hprunes, hsends⟩⟩

/-- A thread that begins prunes nothing, and may upload. What it must not overwrite is ruled out
by the condition on the step. -/
theorem Counted.begun (hcounted : p.Counted env) {label : Label Archive} {origin : Origin}
    {next : Memory × Task Archive} (hbegun : p.Begun env label origin next)
    (hkeeps : p.keepsVerified env label = true) : (p.start origin next).Counted env := by
  have hprunes : ∀ key, (p.start origin next).prunes key = p.prunes key := by
    intro key
    simp only [prunes, start, List.any_append, List.any_cons, List.any_nil, hbegun.pruneKeys,
      List.not_mem_nil, decide_false, Bool.or_false]
  have hsends : ∀ key, (p.start origin next).sends key = true →
      p.sends key = true ∨ ∃ id, p.begins label = some id ∧
        key = env.destination.keyForBackup id := by
    intro key hsent
    obtain ⟨thread, hthread, htask⟩ := sends_eq_true.mp hsent
    rcases List.mem_append.mp hthread with hold | hnew
    · exact Or.inl (sends_eq_true.mpr ⟨thread, hold, htask⟩)
    · obtain rfl := List.mem_singleton.mp hnew
      obtain ⟨upload, hupload, rfl⟩ := Task.sends_eq_true.mp htask
      obtain ⟨hbegins, hkey⟩ := hbegun.begins hupload
      exact Or.inr ⟨upload.id, hbegins, hkey⟩
  have hverified : ∀ key, p.verifiedAt env key = true →
      (p.start origin next).verifiedAt env key = true ∨ (p.start origin next).sends key = true := by
    intro key hbefore
    obtain ⟨row, hrow, huploaded, hkey, hcopied⟩ := verifiedAt_eq_true.mp hbefore
    rcases hbegun.keeps_uploaded hrow huploaded with ⟨after, hafter, hkept, hstays⟩ | huploads
    · refine Or.inl (verifiedAt_eq_true.mpr ⟨after, hafter, hstays,
        hkept.remoteKey.symm.trans hkey, ?_⟩)
      rw [hkept.copied]
      exact hcopied
    · right
      obtain ⟨upload, hupload, hid⟩ := Task.uploads_eq_true.mp huploads
      obtain ⟨-, hsentKey⟩ := hbegun.begins hupload
      have hremote := (hcounted.sound.memory.rows row hrow).remoteKey key hkey
      rw [hid, ← hremote] at hsentKey
      exact sends_eq_true.mpr ⟨_, List.mem_append_right _ (List.mem_singleton.mpr rfl),
        Task.sends_eq_true.mpr ⟨upload, hupload, hsentKey⟩⟩
  constructor
  · exact hcounted.sound.stepped (.begun hbegun)
  · intro key hsome hlists
    rcases hcounted.seen key hsome hlists with hbefore | hsent
    · exact hverified key hbefore
    · obtain ⟨thread, hthread, htask⟩ := sends_eq_true.mp hsent
      exact Or.inr (sends_eq_true.mpr ⟨thread, List.mem_append_left _ hthread, htask⟩)
  · intro thread hthread scope key rest htask hanswer
    rcases List.mem_append.mp hthread with hold | hnew
    · exact hcounted.gone thread hold scope key rest htask hanswer
    · obtain rfl := List.mem_singleton.mp hnew
      exact absurd hanswer (by simp)
  · intro key hpruned
    rw [hprunes] at hpruned
    by_contra hsent
    rcases hsends key (by simpa using hsent) with hold | ⟨id, hid, rfl⟩
    · rw [hcounted.apart key hpruned] at hold
      exact absurd hold Bool.false_ne_true
    · rw [(begins_apart hkeeps hid).1] at hpruned
      exact absurd hpruned Bool.false_ne_true
  · intro hpruning
    obtain ⟨pruned, hpruned⟩ := pruning_eq_true.mp hpruning
    rw [hprunes] at hpruned
    obtain ⟨key, hlasts, hbegins⟩ :=
      hcounted.exists_lasting hkeeps (pruning_eq_true.mpr ⟨pruned, hpruned⟩)
    obtain ⟨hbefore, hnotPruned, hnotSent⟩ := lasts_eq_true.mp hlasts
    have hstill : (p.start origin next).sends key = false := by
      by_contra hsent
      rcases hsends key (by simpa using hsent) with hold | ⟨id, hid, hkey⟩
      · rw [hnotSent] at hold
        exact absurd hold Bool.false_ne_true
      · exact hbegins id hid hkey
    refine ⟨key, lasts_eq_true.mpr ⟨?_, by rw [hprunes]; exact hnotPruned, hstill⟩⟩
    rcases hverified key hbefore with hafter | hsent
    · exact hafter
    · rw [hstill] at hsent
      exact absurd hsent Bool.false_ne_true

theorem verified_of_unseen (hunseen : p.unseen env = true) {key : Key}
    (hsome : (p.stores.object? key).isSome = true) (hsends : p.sends key = true) :
    p.verifiedAt env key = true := by
  obtain ⟨thread, hthread, htask⟩ := sends_eq_true.mp hsends
  obtain ⟨upload, hupload, rfl⟩ := Task.sends_eq_true.mp htask
  rw [unseen, List.all_eq_true] at hunseen
  have hthen := hunseen thread hthread
  rw [hupload, Option.all_some, Bool.or_eq_true, Option.isNone_iff_eq_none] at hthen
  rcases hthen with hnone | hverified
  · rw [hnone] at hsome
    exact absurd hsome Bool.false_ne_true
  · exact hverified

theorem Counted.crashed (hcounted : p.Counted env) (hkeeps : p.keepsVerified env .crash = true)
    {memory : Memory} (hrows : memory.rows = p.memory.rows)
    (hsound : ({ p with memory := memory, threads := [] } : Panel Archive).Sound env) :
    ({ p with memory := memory, threads := [] } : Panel Archive).Counted env := by
  have hunseen : p.unseen env = true := (Bool.and_eq_true_iff.mp hkeeps).2
  refine ⟨hsound, ?_, by simp, ?_, by simp [pruning]⟩
  · intro key hsome hlists
    left
    have hverified : p.verifiedAt env key = true := by
      rcases hcounted.seen key hsome hlists with hverified | hsends
      · exact hverified
      · exact verified_of_unseen hunseen hsome hsends
    exact verifiedAt_of_object hverified hrows rfl
  · intro key _
    rfl

theorem Counted.foreign (hcounted : p.Counted env) {act : ForeignAct Archive}
    (hkeeps : p.keepsVerified env (.foreign act) = true) :
    ({ p with stores := act.apply p.stores } : Panel Archive).Counted env := by
  have hthen := (Bool.and_eq_true_iff.mp hkeeps).2
  have hsame : ∀ key, env.destination.lists key = true ∨ p.prunes key = true ∨
      p.verifiedAt env key = true → (act.apply p.stores).object? key = p.stores.object? key := by
    intro key hours
    have hne : ∀ other, (!env.destination.lists other && !p.prunes other &&
        !p.verifiedAt env other) = true → key ≠ other := by
      rintro other hfree rfl
      rcases hours with hlists | hprunes | hverified
      · simp [hlists] at hfree
      · simp [hprunes] at hfree
      · simp [hverified] at hfree
    cases act with
    | put other content lastModified =>
        rw [ForeignAct.apply, Stores.object?_putObject, if_neg (hne other hthen)]
    | remove other =>
        rw [ForeignAct.apply, Stores.object?_removeObject, if_neg (hne other hthen)]
    | openMultipart other uploadId => rfl
    | closeMultipart uploadId => rfl
  constructor
  · exact hcounted.sound.stepped (.foreign act)
  · intro key hsome hlists
    change ((act.apply p.stores).object? key).isSome = true at hsome
    rw [hsame key (Or.inl hlists)] at hsome
    rcases hcounted.seen key hsome hlists with hverified | hsends
    · exact Or.inl (verifiedAt_of_object hverified rfl (hsame key (Or.inr (Or.inr hverified))))
    · exact Or.inr hsends
  · intro thread hthread scope key rest htask hanswer
    have hprunes : p.prunes key = true :=
      prunes_eq_true.mpr ⟨thread, hthread, by rw [htask]; exact List.mem_cons_self⟩
    change (act.apply p.stores).object? key = none
    rw [hsame key (Or.inr (Or.inl hprunes))]
    exact hcounted.gone thread hthread scope key rest htask hanswer
  · exact hcounted.apart
  · intro hpruning
    obtain ⟨key, hlasts⟩ := hcounted.spared hpruning
    obtain ⟨hverified, hprunes, hsends⟩ := lasts_eq_true.mp hlasts
    exact ⟨key, lasts_eq_true.mpr ⟨verifiedAt_of_object hverified rfl
      (hsame key (Or.inr (Or.inr hverified))), hprunes, hsends⟩⟩

theorem Counted.stepped (hcounted : p.Counted env) {label : Label Archive}
    {after : Panel Archive} (hstep : p.Stepped env label after)
    (hkeeps : p.keepsVerified env label = true) : after.Counted env := by
  have hsound := hcounted.sound.stepped hstep
  cases hstep with
  | kept label => exact hcounted
  | recorded hrecorded => exact hcounted.recorded hrecorded hsound
  | begun hbegun => exact hcounted.begun hbegun hkeeps
  | landed hthread hcall hlanded => exact hcounted.landed hthread hcall hlanded hkeeps
  | resumed hthread hresumed => exact hcounted.resumed hthread hresumed hkeeps
  | crashed => exact hcounted.crashed hkeeps rfl hsound
  | foreign act => exact hcounted.foreign hkeeps

theorem Counted.counts (hcounted : p.Counted env) {index : Nat} {origin : Origin}
    {scope : Option BackupId}
    (hthread : p.threads[index]? = some ⟨origin, .listing scope, none⟩)
    (hkeeps : p.keepsVerified env (.land index .ok) = true) {backup : RemoteBackup}
    (hbackup : backup ∈ p.stores.listing env) : p.verifiedAt env backup.key = true := by
  have hthen := (Bool.and_eq_true_iff.mp hkeeps).2
  have hunseen : p.unseen env = true := by
    simpa only [hthread] using hthen
  obtain ⟨hsome, hlists⟩ := mem_listing_isSome hbackup
  rcases hcounted.seen backup.key hsome hlists with hverified | hsends
  · exact hverified
  · exact verified_of_unseen hunseen hsome hsends

/-- A deletion of a prune leaves a verified copy, because the copies that the prune keeps were
counted when it selected its keys and are still there. -/
theorem Counted.leaves_verified (hcounted : p.Counted env) {index : Nat} {origin : Origin}
    {scope : Option BackupId} {key : Key} {rest : List Key} {outcome : Outcome Archive}
    {after : Panel Archive}
    (hthread : p.threads[index]? = some ⟨origin, .pruning scope key rest, none⟩)
    (hstep : p.Stepped env (.land index outcome) after)
    (hkeeps : p.keepsVerified env (.land index outcome) = true)
    (hverified : ∃ other, p.verifiedAt env other = true) :
    ∃ other, after.verifiedAt env other = true := by
  have hpruning : p.pruning = true :=
    pruning_eq_true.mpr ⟨key, prunes_eq_true.mpr
      ⟨_, List.mem_of_getElem? hthread, List.mem_cons_self⟩⟩
  obtain ⟨other, hother⟩ := hverified
  cases hstep with
  | kept label => exact ⟨other, hother⟩
  | recorded hrecorded => exact ⟨other, verifiedAt_of_object hother hrecorded.rows rfl⟩
  | begun hbegun => cases hbegun
  | landed hsame hcall hlanded =>
      obtain ⟨lasting, hlasts, huntouched⟩ :=
        hcounted.exists_untouched hsame hcall hlanded hkeeps hpruning
      exact ⟨lasting, verifiedAt_of_object (lasts_eq_true.mp hlasts).1 rfl huntouched⟩

/-- Where the destination starts without backups, listings of prunes and crashes keep clear of
uploads that have an object, ended uploads leave a verified copy or nothing, and the newest copy
of a listing lasts while it is pruned, prunes count verified copies only and leave one. A prune
knows nothing about verification: it sees the keys and dates of a listing. -/
theorem prunesSafely_of_keepsVerified (env : Env Archive) (stores : Stores Archive)
    (settings : Settings) (labels : List (Label Archive))
    (hfresh : ∀ object ∈ stores.objects, env.destination.lists object.key = false)
    (hkeeps : StepRun.Meets (step env) (fun p label => p.keepsVerified env label = true)
      (initial stores settings) labels) :
    StepRun.Meets (step env) (PrunesSafely env) (initial stores settings) labels := by
  refine StepRun.meets_of_meets (step env) (Counted env) ?_ ?_ hkeeps
  · intro p label hcounted hkeeps
    have hstep : p.Stepped env label (p.step env label) := step_stepped label
    refine ⟨?_, hcounted.stepped hstep hkeeps⟩
    intro index origin task hthread
    constructor
    · rintro scope rfl rfl backup hbackup
      exact hcounted.counts hthread hkeeps hbackup
    · rintro scope key rest outcome rfl rfl hverified
      exact hcounted.leaves_verified hthread hstep hkeeps hverified
  · refine ⟨Sound.initial stores settings, ?_, ?_, ?_, ?_⟩
    · intro key hsome hlists
      obtain ⟨object, hobject⟩ := Option.isSome_iff_exists.mp hsome
      have hnot := hfresh object (RowTable.mem_of_lookup hobject)
      have hkey : object.key = key := RowTable.key_of_lookup hobject
      rw [hkey, hlists] at hnot
      exact absurd hnot (by simp)
    · simp [initial]
    · intro key _
      rfl
    · simp [initial, pruning]

end Panel

namespace FailedCleanUp

open Sample

/-- The first backup is uploaded, verified and reclaimed. -/
def first : List (Label Nat) :=
  created ++ uploaded ++ [.land 0 .ok, .resume 0]

/-- A second backup is made and opened to be uploaded. -/
def second : List (Label Nat) :=
  [.create "bkp_2" false, .pump, .land 1 (.written 2 (manifest 2)), .resume 1, .land 1 .ok,
    .resume 1, .land 1 .ok, .resume 1]

/-- Its upload arrives damaged, and the object cannot be removed. -/
def damaged : List (Label Nat) :=
  [.land 1 (.stored 0 200 true), .resume 1, .land 1 .ok, .resume 1, .land 1 .ok, .resume 1,
    .land 1 (.failed false), .resume 1, .land 1 .ok, .resume 1]

/-- The next sweep cannot reach the remote for the upload, but lists and prunes. -/
def swept : List (Label Nat) :=
  [.tick, .land 2 (.cleaned []), .resume 2, .land 2 (.failed false), .resume 2,
    .land 2 (.failed false), .resume 2, .land 2 .ok, .resume 2, .land 2 .ok, .resume 2]

/-- An upload that was cut off has left a damaged object, which is the newest of the listing, so
that the prune deletes the one verified copy and keeps the other. -/
theorem prune_takes_last :
    let before := (Panel.initial empty settings).run env (first ++ second ++ damaged ++ swept)
    before.verifiedAt env "backups/bkp_1.tar" = true ∧
      (∀ key, (before.step env (.land 2 .ok)).verifiedAt env key = false) ∧
      ¬ StepRun.Meets (Panel.step env) (Panel.PrunesSafely env) (.initial empty settings)
        (first ++ second ++ damaged ++ swept ++ [.land 2 .ok]) := by
  intro before
  have hverified : before.verifiedAt env "backups/bkp_1.tar" = true := by decide +kernel
  have hpruning : (before.threads[2]?).map (fun thread => (thread.task, thread.answer)) =
      some (.pruning none "backups/bkp_1.tar" [], none) := by decide +kernel
  have hcopies : ∀ row ∈ (before.step env (.land 2 .ok)).memory.rows,
      row.copied env (before.step env (.land 2 .ok)).stores = false := by decide +kernel
  have hnone : ∀ key, (before.step env (.land 2 .ok)).verifiedAt env key = false := by
    intro key
    by_contra hsome
    obtain ⟨row, hrow, -, -, hcopied⟩ := Panel.verifiedAt_eq_true.mp (by simpa using hsome)
    rw [hcopies row hrow] at hcopied
    exact absurd hcopied Bool.false_ne_true
  refine ⟨hverified, hnone, ?_⟩
  intro hsafely
  rw [StepRun.meets_append] at hsafely
  have hlast : before.PrunesSafely env (.land 2 .ok) := hsafely.2.1
  obtain ⟨⟨origin, task, answer⟩, hthread, hsame⟩ := Option.map_eq_some_iff.mp hpruning
  rw [Prod.mk.injEq] at hsame
  obtain ⟨rfl, rfl⟩ := hsame
  obtain ⟨other, hother⟩ := (hlast 2 origin _ hthread).2 none _ [] .ok rfl rfl ⟨_, hverified⟩
  rw [hnone other] at hother
  exact absurd hother Bool.false_ne_true

/-- The second upload arrives whole, and its job prunes the first backup. -/
def replaced : List (Label Nat) :=
  [.land 1 (.stored 2 200 true), .resume 1, .land 1 .ok, .resume 1, .land 1 .ok, .resume 1,
    .land 1 .ok, .resume 1, .land 1 .ok, .resume 1, .land 1 .ok, .resume 1]

/-- The second upload arrives whole and is verified before its job prunes the first backup, so
that the one copy that goes is not the last. -/
theorem replaced_prunesSafely :
    let after := (Panel.initial empty settings).run env (first ++ second ++ replaced)
    after.verifiedAt env "backups/bkp_1.tar" = false ∧
      after.verifiedAt env "backups/bkp_2.tar" = true ∧
      StepRun.Meets (Panel.step env) (Panel.PrunesSafely env) (.initial empty settings)
        (first ++ second ++ replaced) := by
  intro after
  refine ⟨by decide +kernel, by decide +kernel, ?_⟩
  apply Panel.prunesSafely_of_keepsVerified env empty settings
  · simp [empty]
  · decide +kernel

end FailedCleanUp

end Backups

end MailPanel

import MailPanel.AuthSteps

/-
What a password change evicts.  A login and a change verify the password against a row
that they read before they wait, so they may end after another change was stored.
-/

namespace MailPanel

namespace Auth

open RowTable StepRun

namespace Db

variable (env : Env) (db : Db)

/-- The session that asked for the administrator's latest password change. -/
def lastChange (id : Id) : Option Id :=
  db.history.findSome? fun
    | .passwordChanged adminId sessionId => if adminId = id then some sessionId else none
    | _ => none

/-- A login with this password created the session. -/
def ObtainedWith (sessionId : Id) (password : String) : Prop :=
  ∃ session, Event.issued session password ∈ db.history ∧ session.id = sessionId

def findSession (id : Id) : Option SessionRow :=
  lookup SessionRow.id id db.sessions

/-- After a change no other live session was obtained with a password that is not stored. -/
def Evicted (id : Id) : Prop :=
  ∀ caller, db.lastChange id = some caller → ∀ row ∈ db.sessions, row.adminId = id →
    row.id ≠ caller → (∃ live, db.checkSession env.config (some row) = .ok live) →
      ∃ admin password, db.findById id = some admin ∧ db.ObtainedWith row.id password ∧
        env.passwords.verify admin.passwordHash password = true

/-- The password that the change was given is stored, and its session is live. -/
def MayChange (auth : AuthContext) (currentPassword : String) : Prop :=
  (∃ admin, db.findById auth.admin.id = some admin ∧
      env.passwords.verify admin.passwordHash currentPassword = true) ∧
    ∃ live, db.checkSession env.config (db.findSession auth.session.id) = .ok live

end Db

namespace Panel

variable (env : Env) (p : Panel)

/-- A new hash is stored only for a change that may still be made. -/
def ChangesRightly (label : Label) : Prop :=
  ∀ index auth current new, label = .proceed index →
    p.tasks[index]? = some (.hashingNew auth current new) → p.db.MayChange env auth current

/-- No change was stored between what a task read of the administrator and what it writes:
the password of a login still is the stored one, and a change finds the hash that it
verified and its session as they were. -/
def undisturbed : Label → Bool
  | .proceed index =>
      match p.tasks[index]? with
      | some (.verifyingLogin input admin) =>
          match p.db.findById admin.id with
          | none => true
          | some row =>
              admin.disabled || !env.passwords.verify admin.passwordHash input.password ||
                env.passwords.verify row.passwordHash input.password
      | some (.hashingNew auth _ _) =>
          (match p.db.findById auth.admin.id with
            | none => false
            | some row => row.passwordHash = auth.admin.passwordHash) &&
            (p.db.checkSession env.config (p.db.findSession auth.session.id)).isOk
      | _ => true
  | _ => true

end Panel

/-- Sessions refer to administrators. -/
def Db.Referenced (db : Db) : Prop :=
  ∀ row ∈ db.sessions, ∃ admin ∈ db.admins, admin.id = row.adminId

/-- What lasts of a session. -/
structure SessionRow.GoesOn (old row : SessionRow) : Prop where
  id : row.id = old.id
  adminId : row.adminId = old.adminId
  unrevoked : row.revokedAt = none → old.revokedAt = none

theorem SessionRow.GoesOn.refl (row : SessionRow) : row.GoesOn row := ⟨rfl, rfl, fun h => h⟩

/-- What lasts of an administrator. -/
structure AdminRow.GoesOn (old row : AdminRow) : Prop where
  id : row.id = old.id
  passwordHash : row.passwordHash = old.passwordHash

namespace Db

variable {env : Env} {db next : Db}

theorem continues_revokeWhere (condition : SessionRow → Bool) :
    Continues SessionRow.GoesOn (fun _ => False) db.sessions
      (db.revokeWhere condition).sessions := by
  apply Continues.updateWhere SessionRow.GoesOn.refl
  intro row _ _
  exact ⟨rfl, rfl, fun h => absurd h.symm (Option.some_ne_none _).symm⟩

theorem continues_touch (id : Id) (now : Time) :
    Continues SessionRow.GoesOn (fun _ => False) db.sessions (db.touch id now).sessions := by
  apply Continues.updateWhere SessionRow.GoesOn.refl
  intro row _ _
  exact ⟨rfl, rfl, fun h => h⟩

theorem Referenced.of_kept (hreferenced : db.Referenced)
    (hsessions : Continues SessionRow.GoesOn (fun _ => False) db.sessions next.sessions)
    (hadmins : ∀ admin ∈ db.admins, ∃ after ∈ next.admins, after.id = admin.id) :
    next.Referenced := by
  intro row hrow
  rcases hsessions row hrow with ⟨old, hold, hgoes⟩ | hfalse
  · obtain ⟨admin, hadmin, hid⟩ := hreferenced old hold
    obtain ⟨after, hafter, hsame⟩ := hadmins admin hadmin
    exact ⟨after, hafter, hsame.trans (hid.trans hgoes.adminId.symm)⟩
  · exact hfalse.elim

theorem kept_updateWhere {condition : AdminRow → Bool} {change : AdminRow → AdminRow}
    (hid : ∀ row, (change row).id = row.id) :
    ∀ admin ∈ db.admins, ∃ after ∈ updateWhere db.admins condition change,
      after.id = admin.id := by
  intro admin hadmin
  refine ⟨_, mem_updateWhere_of_mem hadmin, ?_⟩
  split
  · exact hid admin
  · rfl

theorem continues_refl : Continues SessionRow.GoesOn (fun _ => False) db.sessions db.sessions :=
  Continues.refl SessionRow.GoesOn.refl db.sessions

theorem Referenced.effect (hreferenced : db.Referenced) {task : Option Task}
    (heffect : db.Effect env task next) : next.Referenced := by
  have hadmins : ∀ admin ∈ db.admins, ∃ after ∈ db.admins, after.id = admin.id :=
    fun admin hadmin => ⟨admin, hadmin, rfl⟩
  cases heffect with
  | none task => exact hreferenced
  | attempts task rows => exact hreferenced
  | validated token auth hcheck =>
      exact hreferenced.of_kept (continues_touch auth.session.id db.now) hadmins
  | issued rows input admin expiresAt session after hverify henabled hexpires hcreate =>
      obtain ⟨hfound, hsession, rfl⟩ := createSession_eq_some hcreate
      obtain ⟨row, hfind⟩ := Option.isSome_iff_exists.mp hfound
      intro other hother
      rcases List.mem_append.mp hother with hold | hnew
      · exact hreferenced other hold
      · rw [List.mem_singleton.mp hnew, hsession]
        exact ⟨row, mem_of_lookup hfind, key_of_lookup hfind⟩
  | loggedOut auth => exact hreferenced.of_kept (continues_revokeWhere _) hadmins
  | passwordChanged auth current new =>
      exact hreferenced.of_kept (continues_revokeWhere _) (kept_updateWhere fun _ => rfl)
  | adminStored auth email password =>
      simp only [storeAdmin]
      split
      · exact hreferenced
      · rename_i after hcreate
        obtain rfl := createAdmin_eq_some hcreate
        refine hreferenced.of_kept continues_refl ?_
        intro admin hadmin
        exact ⟨admin, List.mem_append_left _ hadmin, rfl⟩
  | adminPatched auth id patch after hpatch =>
      obtain ⟨target, -, rfl, -⟩ := patchAdmin_eq_ok hpatch
      exact hreferenced.of_kept continues_refl (kept_updateWhere fun _ => rfl)
  | adminRemoved auth id after hremove =>
      obtain ⟨target, -, rfl, -⟩ := removeAdmin_eq_ok hremove
      intro row hrow
      obtain ⟨hmem, hother⟩ := List.mem_filter.mp hrow
      obtain ⟨admin, hadmin, hid⟩ := hreferenced row hmem
      refine ⟨admin, List.mem_filter.mpr ⟨hadmin, ?_⟩, hid⟩
      rw [hid]
      exact hother
  | pruned => exact hreferenced.of_kept (Continues.filter SessionRow.GoesOn.refl) hadmins
  | elapsed milliseconds => exact hreferenced

/-- The unrevoked sessions of an administrator, after a change, were obtained with the
stored password. -/
def Evicts (env : Env) (db : Db) : Prop :=
  ∀ adminId caller, db.lastChange adminId = some caller → ∀ row ∈ db.sessions,
    row.adminId = adminId → row.id ≠ caller → row.revokedAt = none →
      ∀ admin ∈ db.admins, admin.id = adminId →
        ∃ password, db.ObtainedWith row.id password ∧
          env.passwords.verify admin.passwordHash password = true

theorem ObtainedWith.mono {sessionId : Id} {password : String}
    (h : db.ObtainedWith sessionId password)
    (hhistory : ∀ event ∈ db.history, event ∈ next.history) :
    next.ObtainedWith sessionId password := by
  obtain ⟨session, hmem, hid⟩ := h
  exact ⟨session, hhistory _ hmem, hid⟩

namespace Evicts

theorem of_kept (hevicts : db.Evicts env) (hlast : ∀ id, next.lastChange id = db.lastChange id)
    (hhistory : ∀ event ∈ db.history, event ∈ next.history)
    (hsessions : Continues SessionRow.GoesOn (fun _ => False) db.sessions next.sessions)
    (hadmins : ∀ admin ∈ next.admins, ∃ old ∈ db.admins, old.GoesOn admin) :
    next.Evicts env := by
  intro adminId caller hcaller row hrow hown hother hunrevoked admin hadmin hid
  rw [hlast] at hcaller
  rcases hsessions row hrow with ⟨old, hold, hgoes⟩ | hfalse
  · obtain ⟨oldAdmin, holdAdmin, hkept⟩ := hadmins admin hadmin
    obtain ⟨password, hobtained, hverify⟩ := hevicts adminId caller hcaller old hold
      (hgoes.adminId ▸ hown) (hgoes.id ▸ hother) (hgoes.unrevoked hunrevoked) oldAdmin holdAdmin
      (hkept.id ▸ hid)
    rw [hgoes.id, hkept.passwordHash]
    exact ⟨password, hobtained.mono hhistory, hverify⟩
  · exact hfalse.elim

theorem same_admins : ∀ admin ∈ db.admins, ∃ old ∈ db.admins, old.GoesOn admin :=
  fun admin hadmin => ⟨admin, hadmin, rfl, rfl⟩

theorem record_keeps (event : Event) : ∀ other ∈ db.history, other ∈ (db.record event).history :=
  fun _ hother => List.mem_cons_of_mem _ hother

/-- The session of a login whose password is stored. -/
theorem issued (hevicts : db.Evicts env) {rows : List AttemptRow} {adminId : Id}
    {password : String} {expiresAt : Time} {session : SessionRow}
    (hstored : ∀ row ∈ db.admins, row.id = adminId →
      env.passwords.verify row.passwordHash password = true)
    (hcreate : ({ db with attempts := rows } : Db).createSession adminId expiresAt =
      some (session, next)) : (next.record (.issued session password)).Evicts env := by
  obtain ⟨-, hsession, rfl⟩ := createSession_eq_some hcreate
  intro id caller hcaller row hrow hown hother hunrevoked admin hadmin hid
  rcases List.mem_append.mp hrow with hold | hnew
  · obtain ⟨known, hobtained, hverify⟩ :=
      hevicts id caller hcaller row hold hown hother hunrevoked admin hadmin hid
    exact ⟨known, hobtained.mono (record_keeps _), hverify⟩
  · rw [List.mem_singleton] at hnew
    subst hnew
    refine ⟨password, ⟨row, List.mem_cons_self, rfl⟩, hstored admin hadmin ?_⟩
    rw [hid, ← hown, hsession]

theorem lastChange_changePassword (auth : AuthContext) (newPassword : String) (id : Id) :
    (db.changePassword env auth newPassword).1.lastChange id =
      if auth.admin.id = id then some auth.session.id else db.lastChange id := by
  simp only [lastChange, changePassword, record, List.findSome?_cons]
  by_cases hsame : auth.admin.id = id
  · simp only [hsame, if_true]
  · simp only [hsame, if_false]
    rfl

/-- Every other session of the administrator is revoked, in the same segment in which the new
password is stored. No request can come in between and be accepted on an old session. -/
theorem passwordChanged (hevicts : db.Evicts env) (auth : AuthContext) (newPassword : String) :
    (db.changePassword env auth newPassword).1.Evicts env := by
  intro id caller hcaller row hrow hown hother hunrevoked admin hadmin hid
  by_cases hsame : auth.admin.id = id
  · -- The sessions of the administrator whose password changes: only the caller's is left.
    rw [lastChange_changePassword, if_pos hsame] at hcaller
    rcases mem_updateWhere.mp hrow with ⟨-, hnot⟩ | ⟨old, -, -, rfl⟩
    · have hadminId : row.adminId = auth.admin.id := hown.trans hsame.symm
      have hsession : row.id ≠ auth.session.id := fun heq =>
        hother (heq.trans (Option.some.inj hcaller))
      simp [hadminId, hsession, unrevoked, hunrevoked] at hnot
    · exact absurd hunrevoked (Option.some_ne_none _)
  · rw [lastChange_changePassword, if_neg hsame] at hcaller
    have hadminOld : admin ∈ db.admins := by
      rcases mem_updateWhere.mp hadmin with ⟨hold, -⟩ | ⟨old, -, hcondition, rfl⟩
      · exact hold
      · rw [decide_eq_true_eq] at hcondition
        exact absurd (hcondition.symm.trans hid) hsame
    rcases continues_revokeWhere _ row hrow with ⟨old, hold, hgoes⟩ | hfalse
    · obtain ⟨known, hobtained, hverify⟩ := hevicts id caller hcaller old hold
        (hgoes.adminId ▸ hown) (hgoes.id ▸ hother) (hgoes.unrevoked hunrevoked) admin
        hadminOld hid
      rw [hgoes.id]
      exact ⟨known, hobtained.mono (record_keeps _), hverify⟩
    · exact hfalse.elim

theorem adminStored (hevicts : db.Evicts env) (hkeyed : db.Keyed)
    (hreferenced : db.Referenced) (email password : String) :
    (db.storeAdmin env email password).1.Evicts env := by
  simp only [storeAdmin]
  split
  · exact hevicts
  · rename_i after hcreate
    obtain rfl := createAdmin_eq_some hcreate
    intro id caller hcaller row hrow hown hother hunrevoked admin hadmin hid
    rcases List.mem_append.mp hadmin with hold | hnew
    · exact hevicts id caller hcaller row hrow hown hother hunrevoked admin hold hid
    · -- The new administrator has no session yet.
      obtain ⟨owner, howner, hownerId⟩ := hreferenced row hrow
      have hlt := hkeyed.admin_lt owner howner
      rw [List.mem_singleton.mp hnew] at hid
      have hsame : owner.id = db.nextId + 1 := hownerId.trans (hown.trans hid.symm)
      exact absurd hsame (Nat.ne_of_lt (Nat.lt_succ_of_lt hlt))

theorem effect (hevicts : db.Evicts env) (hkeyed : db.Keyed) (hreferenced : db.Referenced)
    {task : Option Task} (heffect : db.Effect env task next)
    (hstored : ∀ input admin, task = some (.verifyingLogin input admin) →
      admin.disabled = false → env.passwords.verify admin.passwordHash input.password = true →
        ∀ row ∈ db.admins, row.id = admin.id →
          env.passwords.verify row.passwordHash input.password = true) :
    next.Evicts env := by
  cases heffect with
  | none task => exact hevicts
  | attempts task rows => exact hevicts
  | validated token auth hcheck =>
      exact hevicts.of_kept (fun _ => rfl) (record_keeps _) (continues_touch _ _) same_admins
  | issued rows input admin expiresAt session after hverify henabled hexpires hcreate =>
      exact hevicts.issued (hstored input admin rfl henabled hverify) hcreate
  | loggedOut auth =>
      exact hevicts.of_kept (fun _ => rfl) (record_keeps _) (continues_revokeWhere _)
        same_admins
  | passwordChanged auth current new => exact hevicts.passwordChanged auth new
  | adminStored auth email password => exact hevicts.adminStored hkeyed hreferenced _ _
  | adminPatched auth id patch after hpatch =>
      obtain ⟨target, -, rfl, -⟩ := patchAdmin_eq_ok hpatch
      refine hevicts.of_kept (fun _ => rfl) (fun _ h => h) continues_refl ?_
      intro admin hadmin
      rcases mem_updateWhere.mp hadmin with ⟨hold, -⟩ | ⟨old, hold, -, rfl⟩
      · exact ⟨admin, hold, rfl, rfl⟩
      · exact ⟨old, hold, rfl, rfl⟩
  | adminRemoved auth id after hremove =>
      obtain ⟨target, -, rfl, -⟩ := removeAdmin_eq_ok hremove
      refine hevicts.of_kept (fun _ => rfl) (fun _ h => h)
        (Continues.filter SessionRow.GoesOn.refl) ?_
      intro admin hadmin
      exact ⟨admin, (List.mem_filter.mp hadmin).1, rfl, rfl⟩
  | pruned =>
      exact hevicts.of_kept (fun _ => rfl) (fun _ h => h)
        (Continues.filter SessionRow.GoesOn.refl) same_admins
  | elapsed milliseconds => exact hevicts

theorem evicted (hevicts : db.Evicts env) (id : Id) : db.Evicted env id := by
  intro caller hcaller row hrow hown hother hlive
  obtain ⟨live, hcheck⟩ := hlive
  simp only [checkSession] at hcheck
  split at hcheck
  · cases hcheck
  rename_i hunrevoked
  split at hcheck
  · cases hcheck
  split at hcheck
  · cases hcheck
  split at hcheck
  · cases hcheck
  rename_i admin hfind
  rw [hown] at hfind
  obtain ⟨password, hobtained, hverify⟩ := hevicts id caller hcaller row hrow hown hother
    (by simpa using hunrevoked) admin (mem_of_lookup hfind) (key_of_lookup hfind)
  exact ⟨admin, password, hfind, hobtained, hverify⟩

end Evicts

end Db

/-- A change that waits for its new hash has verified the password it was given. -/
def Task.Verified (env : Env) : Task → Prop
  | .hashingNew auth current _ =>
      env.passwords.verify auth.admin.passwordHash current = true
  | _ => True

namespace Panel

variable {env : Env} {p : Panel}

structure Sound (env : Env) (p : Panel) : Prop where
  keyed : p.db.Keyed
  referenced : p.db.Referenced
  evicts : p.db.Evicts env
  verified : ∀ task ∈ p.tasks, task.Verified env

theorem verified_login (db : Db) (input : LoginInput) : (db.login input).Verified env := by
  simp only [Db.login]
  split
  · trivial
  split
  · trivial
  · trivial

theorem verified_check (db : Db) (credentials : Credentials) (request : AuthRequest) :
    (db.check env credentials request).2.Verified env := by
  rw [Db.check]
  split
  · trivial
  split
  · trivial
  split
  · trivial
  · trivial

theorem verified_proceed (db : Db) (task : Task) : (db.proceed env task).2.Verified env := by
  cases task with
  | verifyingLogin input admin =>
      simp only [Db.proceed, Db.finishLogin]
      split
      · trivial
      split
      · trivial
      simp only [Db.issueSession]
      split
      · trivial
      split
      · trivial
      · trivial
  | checked auth request =>
      cases request with
      | createAdmin email password =>
          simp only [Db.proceed, Db.handle]
          split
          · trivial
          · trivial
      | updateAdmin id patch =>
          simp only [Db.proceed, Db.handle]
          cases patchAdmin db auth id patch <;> trivial
      | deleteAdmin id =>
          simp only [Db.proceed, Db.handle]
          cases removeAdmin db auth id <;> trivial
      | _ => trivial
  | verifyingCurrent auth current new =>
      simp only [Db.proceed]
      split
      · rename_i hverify
        exact hverify
      · trivial
  | hashingAdmin auth email password =>
      simp only [Db.proceed, Db.storeAdmin]
      split
      · trivial
      · trivial
  | _ => trivial

theorem verified_step (hverified : ∀ task ∈ p.tasks, task.Verified env) (label : Label) :
    ∀ task ∈ (p.step env label).tasks, task.Verified env := by
  have happend : ∀ new : Task, new.Verified env → ∀ task ∈ p.tasks ++ [new],
      task.Verified env := by
    intro new hnew task htask
    rcases List.mem_append.mp htask with hold | hlast
    · exact hverified task hold
    · rw [List.mem_singleton.mp hlast]
      exact hnew
  cases label with
  | login input => exact happend _ (verified_login p.db input)
  | request credentials request => exact happend _ (verified_check p.db credentials request)
  | proceed index =>
      cases htask : p.tasks[index]? with
      | none =>
          rw [step_proceed_of_none htask]
          exact hverified
      | some acting =>
          rw [step_proceed htask]
          intro task hmem
          rcases List.mem_or_eq_of_mem_set hmem with hold | rfl
          · exact hverified task hold
          · exact verified_proceed p.db acting
  | pruneExpired => exact hverified
  | elapse milliseconds => exact hverified
  | crash => exact fun _ hmem => absurd hmem List.not_mem_nil

theorem stored_of_undisturbed (hkeyed : p.db.Keyed) {label : Label}
    (hundisturbed : p.undisturbed env label = true) {input : LoginInput} {admin : AdminRow}
    (hacting : p.acting label = some (.verifyingLogin input admin))
    (henabled : admin.disabled = false)
    (hverify : env.passwords.verify admin.passwordHash input.password = true) :
    ∀ row ∈ p.db.admins, row.id = admin.id →
      env.passwords.verify row.passwordHash input.password = true := by
  intro row hrow hid
  have hfind : p.db.findById admin.id = some row := by
    rw [← hid]
    exact lookup_of_mem hkeyed.admin_nodup hrow
  cases label with
  | proceed index =>
      simp only [acting] at hacting
      simpa [undisturbed, hacting, hfind, henabled, hverify] using hundisturbed
  | _ => exact absurd hacting.symm (Option.some_ne_none _)

theorem changesRightly_of_undisturbed (hverified : ∀ task ∈ p.tasks, task.Verified env)
    {label : Label} (hundisturbed : p.undisturbed env label = true) :
    p.ChangesRightly env label := by
  intro index auth current new hlabel htask
  subst hlabel
  have hverify : env.passwords.verify auth.admin.passwordHash current = true :=
    hverified _ (List.mem_of_getElem? htask)
  simp only [undisturbed, htask, Bool.and_eq_true] at hundisturbed
  obtain ⟨hhash, hlive⟩ := hundisturbed
  constructor
  · cases hfind : p.db.findById auth.admin.id with
    | none => simp [hfind] at hhash
    | some row =>
        have hsame : row.passwordHash = auth.admin.passwordHash := by simpa [hfind] using hhash
        exact ⟨row, rfl, by rw [hsame]; exact hverify⟩
  · cases hcheck : p.db.checkSession env.config (p.db.findSession auth.session.id) with
    | error reason => simp [hcheck, Except.isOk, Except.toBool] at hlive
    | ok live => exact ⟨live, rfl⟩

theorem Sound.step (hsound : p.Sound env) (label : Label)
    (hundisturbed : p.undisturbed env label = true) : (p.step env label).Sound env where
  keyed := hsound.keyed.effect (p.effect_step label)
  referenced := hsound.referenced.effect (p.effect_step label)
  evicts := by
    apply hsound.evicts.effect hsound.keyed hsound.referenced (p.effect_step label)
    intro input admin hacting henabled hverify
    exact stored_of_undisturbed hsound.keyed hundisturbed hacting henabled hverify
  verified := verified_step hsound.verified label

/-- Where no change is stored between what a login or a change reads and what it writes, a
change evicts every other session obtained with an older password, and is stored only for the
current password and a live session. Both calls read before the password is verified, which
takes a while, and write after it. -/
theorem evicts_of_undisturbed (start : Panel) (labels : List Label) (hkeyed : start.db.Keyed)
    (hreferenced : start.db.Referenced) (htasks : start.tasks = [])
    (hhistory : start.db.history = [])
    (hundisturbed : Meets (Panel.step env) (fun p label => p.undisturbed env label = true)
      start labels) :
    (∀ id, (run (Panel.step env) start labels).db.Evicted env id) ∧
      Meets (Panel.step env) (fun p label => p.ChangesRightly env label) start labels := by
  have hstart : start.Sound env := by
    refine ⟨hkeyed, hreferenced, ?_, ?_⟩
    · intro id caller hcaller
      rw [Db.lastChange, hhistory] at hcaller
      exact absurd hcaller.symm (Option.some_ne_none caller)
    · rw [htasks]
      exact fun _ hmem => absurd hmem List.not_mem_nil
  constructor
  · intro id
    exact (invariant_of_meets (Panel.step env) (Sound env)
      (fun p label hsound hcondition => hsound.step label hcondition) hstart
      hundisturbed).evicts.evicted id
  · exact meets_of_meets (Panel.step env) (Sound env)
      (fun p label hsound hcondition =>
        ⟨changesRightly_of_undisturbed hsound.verified hcondition, hsound.step label hcondition⟩)
      hstart hundisturbed

end Panel

/- One administrator with two sessions, who changes the password. -/
namespace ChangedPassword

open Sample

def start : Panel where
  db :=
    { now := 1000
      nextId := 20
      admins := [admin 1 "one@example.com"]
      sessions := [session 3 1, session 6 1]
      attempts := []
      history := [] }
  tasks := []

def login (password : String) : Label := .login ⟨"one@example.com", password, "192.0.2.1"⟩

/-- The request of the session with this id, and the task's way to the stored hash. -/
def change (sessionId : Id) (new : String) : Label :=
  .request ⟨some (sessionId + 1), some (sessionId + 2), true⟩
    (.changePassword "correct horse" new)

def toHash (index : Nat) : List Label := [.proceed index, .proceed index]

/-- The change is stored before the next login starts. -/
def inOrder : List Label :=
  [change 3 "battery staple"] ++ toHash 0 ++ [.proceed 0, login "battery staple", .proceed 1]

/-- The change is stored before the next login starts: every other session with the older
password is gone, and the run meets the condition. -/
theorem inOrder_evicts :
    (∀ id, (run (Panel.step env) start inOrder).db.Evicted env id) ∧
      Meets (Panel.step env) (fun p label => p.ChangesRightly env label) start inOrder := by
  have hkeyed : start.db.Keyed := ⟨by decide, by decide, by decide, by decide, by decide⟩
  have hreferenced : start.db.Referenced := by
    intro row hrow
    refine ⟨admin 1 "one@example.com", List.mem_cons_self, ?_⟩
    revert row
    decide
  exact Panel.evicts_of_undisturbed start inOrder hkeyed hreferenced rfl rfl (by decide +kernel)

/-- A login with the old password has read the row before the change, and ends after. -/
def straddled : List Label :=
  [login "correct horse", change 3 "battery staple"] ++ toHash 1 ++
    [Label.proceed 1, .proceed 0]

/-- Both sessions have their change verified before either is stored. -/
def crossed : List Label :=
  [change 3 "battery staple", change 6 "hunter2 hunter2"] ++ toHash 0 ++ toHash 1 ++
    [Label.proceed 0]

/-- The session of the straddling login. -/
def stale : SessionRow := ⟨21, 1, 22, 23, 1000, 43201000, 1000, none⟩

def changed : AdminRow :=
  ⟨1, "one@example.com", "20:battery staple", .administrator, false, false⟩

/-- A login that read the account before a change gets a session after it; and of two changes
that were both verified before either was stored, the second is stored although the first has
revoked its session. -/
theorem stale_sessions_and_changes :
    ¬ (run (Panel.step env) start straddled).db.Evicted env 1 ∧
      ¬ (run (Panel.step env) start crossed).ChangesRightly env (.proceed 1) := by
  constructor
  · intro hevicted
    have hlast : (run (Panel.step env) start straddled).db.lastChange 1 = some 3 := by
      decide +kernel
    have hrow : stale ∈ (run (Panel.step env) start straddled).db.sessions := by decide +kernel
    have hlive : (run (Panel.step env) start straddled).db.checkSession env.config
        (some stale) = .ok ⟨stale, changed⟩ := by decide +kernel
    have hstored : (run (Panel.step env) start straddled).db.findById 1 = some changed := by
      decide +kernel
    have hhistory : (run (Panel.step env) start straddled).db.history =
        [.issued stale "correct horse", .passwordChanged 1 3, .validated 3 1000] := by
      decide +kernel
    obtain ⟨admin, password, hfind, ⟨session, hmem, -⟩, hverify⟩ :=
      hevicted 3 hlast stale hrow rfl (by decide) ⟨_, hlive⟩
    obtain rfl := Option.some.inj (hfind.symm.trans hstored)
    rw [hhistory] at hmem
    obtain ⟨-, rfl⟩ : session = stale ∧ password = "correct horse" := by simpa using hmem
    exact absurd hverify (by decide)
  · intro hrightly
    have htask : (run (Panel.step env) start crossed).tasks[1]? = some (.hashingNew
        ⟨session 6 1, admin 1 "one@example.com"⟩ "correct horse" "hunter2 hunter2") := by
      decide +kernel
    obtain ⟨-, live, hcheck⟩ := hrightly 1 _ _ _ rfl htask
    have hrevoked : (run (Panel.step env) start crossed).db.checkSession env.config
        ((run (Panel.step env) start crossed).db.findSession 6) = .error .revoked := by
      decide +kernel
    rw [show (session 6 1).id = 6 from rfl, hrevoked] at hcheck
    cases hcheck

end ChangedPassword

end Auth

end MailPanel

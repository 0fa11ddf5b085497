import MailPanel.AuthMachine

/-
What one step of the panel can do to the database, and the keys of its tables in every
state it leads to.
-/

namespace MailPanel

namespace Auth

open RowTable

/-- What a step does to the database, and the task that takes it. It lists every way in which a
table of the service can change, so that an invariant is proved by one case for each. -/
inductive Db.Effect (env : Env) (db : Db) : Option Task → Db → Prop
  | none (task : Option Task) : Db.Effect env db task db
  | attempts (task : Option Task) (rows : List AttemptRow) :
      Db.Effect env db task { db with attempts := rows }
  | validated (token : Token) (auth : AuthContext)
      (hcheck : db.checkSession env.config (db.findByTokenHash token) = .ok auth) :
      Db.Effect env db none ((db.touch auth.session.id db.now).record
        (.validated auth.session.id db.now))
  | issued (rows : List AttemptRow) (input : LoginInput) (admin : AdminRow)
      (expiresAt : Time) (session : SessionRow) (next : Db)
      (hverify : env.passwords.verify admin.passwordHash input.password = true)
      (henabled : admin.disabled = false)
      (hexpires : hoursFromNow db.now env.config.absoluteTtlHours = some expiresAt)
      (hcreate : ({ db with attempts := rows } : Db).createSession admin.id expiresAt =
        some (session, next)) :
      Db.Effect env db (some (.verifyingLogin input admin))
        (next.record (.issued session input.password))
  | loggedOut (auth : AuthContext) :
      Db.Effect env db (some (.checked auth .logout)) (db.logout auth.session)
  | passwordChanged (auth : AuthContext) (current new : String) :
      Db.Effect env db (some (.hashingNew auth current new))
        (db.changePassword env auth new).1
  | adminStored (auth : AuthContext) (email password : String) :
      Db.Effect env db (some (.hashingAdmin auth email password))
        (db.storeAdmin env email password).1
  | adminPatched (auth : AuthContext) (id : Id) (patch : UpdateAdminPatch) (next : Db)
      (hpatch : patchAdmin db auth id patch = .ok next) :
      Db.Effect env db (some (.checked auth (.updateAdmin id patch))) next
  | adminRemoved (auth : AuthContext) (id : Id) (next : Db)
      (hremove : removeAdmin db auth id = .ok next) :
      Db.Effect env db (some (.checked auth (.deleteAdmin id))) next
  | pruned : Db.Effect env db none db.pruneExpired
  | elapsed (milliseconds : Nat) :
      Db.Effect env db none { db with now := db.now + milliseconds }

namespace Db

variable {env : Env} {db : Db}

theorem effect_failLogin (task : Option Task) (input : LoginInput) :
    db.Effect env task (db.failLogin input).1 :=
  .attempts task _

theorem effect_finishLogin (input : LoginInput) (admin : AdminRow) :
    db.Effect env (some (.verifyingLogin input admin))
      (db.finishLogin env input admin).1 := by
  rw [finishLogin]
  by_cases hverify : env.passwords.verify admin.passwordHash input.password = true
  · by_cases hdisabled : admin.disabled = true
    · simp only [hverify, hdisabled, Bool.not_true, Bool.false_eq_true, if_false, if_true]
      exact effect_failLogin _ input
    · rw [Bool.not_eq_true] at hdisabled
      simp only [hverify, hdisabled, Bool.not_true, Bool.false_eq_true, if_false, issueSession]
      split
      · exact .attempts _ _
      · rename_i expiresAt hexpires
        split
        · exact .attempts _ _
        · rename_i session next hcreate
          exact .issued _ input admin expiresAt session next hverify hdisabled hexpires hcreate
  · rw [Bool.not_eq_true] at hverify
    simp only [hverify, Bool.not_false, if_true]
    exact effect_failLogin _ input

theorem effect_handle (auth : AuthContext) (request : AuthRequest) :
    db.Effect env (some (.checked auth request)) (db.handle auth request).1 := by
  cases request with
  | sessionInfo => exact .none _
  | logout => exact .loggedOut auth
  | changePassword current new => exact .none _
  | createAdmin email password =>
      rw [handle]
      split
      · exact .none _
      · exact .none _
  | updateAdmin id patch =>
      rw [handle]
      cases hpatch : patchAdmin db auth id patch with
      | error error => exact .none _
      | ok next => exact .adminPatched auth id patch next hpatch
  | deleteAdmin id =>
      rw [handle]
      cases hremove : removeAdmin db auth id with
      | error error => exact .none _
      | ok next => exact .adminRemoved auth id next hremove

theorem effect_proceed (task : Task) : db.Effect env (some task) (db.proceed env task).1 := by
  cases task with
  | verifyingDummy input code => exact effect_failLogin _ input
  | verifyingLogin input admin => exact effect_finishLogin input admin
  | checked auth request => exact effect_handle auth request
  | verifyingCurrent auth current new =>
      rw [proceed]
      split
      · exact .none _
      · exact .none _
  | hashingNew auth current new => exact .passwordChanged auth current new
  | hashingAdmin auth email password => exact .adminStored auth email password
  | ended outcome => exact .none _

theorem effect_check (credentials : Credentials) (request : AuthRequest) :
    db.Effect env none (db.check env credentials request).1 := by
  rw [check]
  split
  · exact .none _
  · rename_i token _
    simp only [validateSession]
    cases hcheck : db.checkSession env.config (db.findByTokenHash token) with
    | error reason => exact .none _
    | ok auth =>
        dsimp only
        split
        · exact .validated token auth hcheck
        · exact .validated token auth hcheck

end Db

/-- The task that a step lets run. -/
def Panel.acting (p : Panel) : Label → Option Task
  | .proceed index => p.tasks[index]?
  | _ => none

theorem Panel.effect_step {env : Env} (p : Panel) (label : Label) :
    p.db.Effect env (p.acting label) (p.step env label).db := by
  cases label with
  | login input => exact .none _
  | request credentials request => exact Db.effect_check credentials request
  | proceed index =>
      cases htask : p.tasks[index]? with
      | none =>
          rw [step_proceed_of_none htask]
          exact .none _
      | some task =>
          rw [step_proceed htask, acting, htask]
          exact Db.effect_proceed task
  | pruneExpired => exact .pruned
  | elapse milliseconds => exact .elapsed milliseconds
  | crash => exact .none _

section Guards

variable {db next : Db} {auth : AuthContext} {id : Id}

theorem assertNotSelf_eq_ok {actorId targetId : Id} {action : SelfAction}
    (hok : assertNotSelf actorId targetId action = .ok ()) : actorId ≠ targetId := by
  intro heq
  rw [assertNotSelf, if_pos heq] at hok
  cases hok

theorem assertNotLastEnabledAdmin_eq_ok {target : AdminRow}
    (hok : assertNotLastEnabledAdmin db target = .ok ()) :
    target.disabled = true ∨ 1 < db.countEnabled := by
  rw [assertNotLastEnabledAdmin] at hok
  by_cases hdisabled : target.disabled = true
  · exact Or.inl hdisabled
  · rw [if_neg hdisabled] at hok
    by_cases hcount : db.countEnabled ≤ 1
    · rw [if_pos hcount] at hok
      cases hok
    · exact Or.inr (Nat.lt_of_not_le hcount)

/-- What the handlers have checked of the administrator that they disable or delete. -/
def Spared (db : Db) (auth : AuthContext) (target : AdminRow) : Prop :=
  auth.admin.id ≠ target.id ∧ (target.disabled = true ∨ 1 < db.countEnabled)

theorem guards_eq_ok {target : AdminRow} {action : SelfAction} {result : Db}
    (hok : (do
      assertNotSelf auth.admin.id target.id action
      assertNotLastEnabledAdmin db target
      return result) = Except.ok next) : next = result ∧ Spared db auth target := by
  cases hself : assertNotSelf auth.admin.id target.id action with
  | error error =>
      rw [hself] at hok
      cases hok
  | ok checked =>
      cases hlast : assertNotLastEnabledAdmin db target with
      | error error =>
          rw [hself, hlast] at hok
          cases hok
      | ok checked' =>
          rw [hself, hlast] at hok
          refine ⟨(Except.ok.inj hok).symm, ?_⟩
          exact ⟨assertNotSelf_eq_ok hself, assertNotLastEnabledAdmin_eq_ok hlast⟩

theorem patchAdmin_eq_ok {patch : UpdateAdminPatch}
    (hpatch : patchAdmin db auth id patch = .ok next) :
    ∃ target, db.findById id = some target ∧ next = db.updateAdmin target.id patch ∧
      (patch.disabled = some true → Spared db auth target) := by
  rw [patchAdmin] at hpatch
  cases hfind : db.findById id with
  | none =>
      rw [hfind] at hpatch
      cases hpatch
  | some target =>
      rw [hfind] at hpatch
      refine ⟨target, rfl, ?_⟩
      by_cases hdisable : patch.disabled = some true
      · simp only [hdisable, if_true] at hpatch
        obtain ⟨hnext, hspared⟩ := guards_eq_ok hpatch
        exact ⟨hnext, fun _ => hspared⟩
      · simp only [hdisable, if_false] at hpatch
        exact ⟨(Except.ok.inj hpatch).symm, fun h => absurd h hdisable⟩

theorem removeAdmin_eq_ok (hremove : removeAdmin db auth id = .ok next) :
    ∃ target, db.findById id = some target ∧ next = db.deleteAdmin target.id ∧
      Spared db auth target := by
  rw [removeAdmin] at hremove
  cases hfind : db.findById id with
  | none =>
      rw [hfind] at hremove
      cases hremove
  | some target =>
      rw [hfind] at hremove
      exact ⟨target, rfl, guards_eq_ok hremove⟩

end Guards

/-- The keys of the tables: no two rows of a table share an id or a token, and all of them have
been drawn already, so that the next draw is a new one. -/
structure Db.Keyed (db : Db) : Prop where
  admin_nodup : (db.admins.map AdminRow.id).Nodup
  admin_lt : ∀ row ∈ db.admins, row.id < db.nextId
  session_nodup : (db.sessions.map SessionRow.id).Nodup
  token_nodup : (db.sessions.map SessionRow.tokenHash).Nodup
  session_lt : ∀ row ∈ db.sessions, row.id < db.nextId ∧ row.tokenHash < db.nextId

namespace Db

variable {env : Env} {db next : Db}

theorem createSession_eq_some {adminId : Id} {expiresAt : Time} {session : SessionRow}
    (hcreate : db.createSession adminId expiresAt = some (session, next)) :
    (db.findById adminId).isSome ∧
      session = ⟨db.nextId, adminId, db.nextId + 1, db.nextId + 2, db.now, expiresAt, db.now,
        none⟩ ∧
      next = { db with nextId := db.nextId + 3, sessions := db.sessions ++ [session] } := by
  rw [createSession] at hcreate
  cases hfind : db.findById adminId with
  | none => simp [hfind] at hcreate
  | some admin =>
      rw [hfind] at hcreate
      obtain ⟨rfl, rfl⟩ := Prod.mk.inj (Option.some.inj hcreate)
      exact ⟨rfl, rfl, rfl⟩

theorem createAdmin_eq_some {email : String} {passwordHash : PasswordHash}
    (hcreate : db.createAdmin email passwordHash = some next) :
    next = { db with
      nextId := db.nextId + 1
      admins := db.admins ++
        [⟨db.nextId, normalizeEmail email, passwordHash, .administrator, false, true⟩] } := by
  rw [createAdmin] at hcreate
  split at hcreate
  · exact absurd hcreate.symm (Option.some_ne_none next)
  · exact (Option.some.inj hcreate).symm

theorem nodup_append_fresh {Row : Type} {key : Row → Nat} {rows : List Row} {bound : Nat}
    {row : Row} (hnodup : (rows.map key).Nodup) (hlt : ∀ old ∈ rows, key old < bound)
    (hrow : bound ≤ key row) : ((rows ++ [row]).map key).Nodup := by
  rw [List.map_append]
  apply hnodup.append (List.nodup_singleton _)
  intro value hvalue hsame
  obtain ⟨old, hold, rfl⟩ := List.mem_map.mp hvalue
  have hkey : key old = key row := List.mem_singleton.mp hsame
  exact absurd (hlt old hold) (by omega)

namespace Keyed

theorem of_columns (hkeyed : db.Keyed)
    (hadmins : next.admins.map AdminRow.id = db.admins.map AdminRow.id)
    (hids : next.sessions.map SessionRow.id = db.sessions.map SessionRow.id)
    (htokens : next.sessions.map SessionRow.tokenHash = db.sessions.map SessionRow.tokenHash)
    (hle : db.nextId ≤ next.nextId) : next.Keyed where
  admin_nodup := by
    rw [hadmins]
    exact hkeyed.admin_nodup
  admin_lt := by
    intro row hrow
    have hmem : row.id ∈ db.admins.map AdminRow.id := hadmins ▸ List.mem_map_of_mem hrow
    obtain ⟨old, hold, heq⟩ := List.mem_map.mp hmem
    rw [← heq]
    exact Nat.lt_of_lt_of_le (hkeyed.admin_lt old hold) hle
  session_nodup := by
    rw [hids]
    exact hkeyed.session_nodup
  token_nodup := by
    rw [htokens]
    exact hkeyed.token_nodup
  session_lt := by
    intro row hrow
    have hid : row.id ∈ db.sessions.map SessionRow.id := hids ▸ List.mem_map_of_mem hrow
    have htoken : row.tokenHash ∈ db.sessions.map SessionRow.tokenHash :=
      htokens ▸ List.mem_map_of_mem hrow
    obtain ⟨old, hold, heq⟩ := List.mem_map.mp hid
    obtain ⟨old', hold', heq'⟩ := List.mem_map.mp htoken
    rw [← heq, ← heq']
    exact ⟨Nat.lt_of_lt_of_le (hkeyed.session_lt old hold).1 hle,
      Nat.lt_of_lt_of_le (hkeyed.session_lt old' hold').2 hle⟩

theorem of_sublists (hkeyed : db.Keyed) (hadmins : next.admins.Sublist db.admins)
    (hsessions : next.sessions.Sublist db.sessions) (hnext : next.nextId = db.nextId) :
    next.Keyed where
  admin_nodup := hkeyed.admin_nodup.sublist (hadmins.map _)
  admin_lt := by
    intro row hrow
    rw [hnext]
    exact hkeyed.admin_lt row (hadmins.subset hrow)
  session_nodup := hkeyed.session_nodup.sublist (hsessions.map _)
  token_nodup := hkeyed.token_nodup.sublist (hsessions.map _)
  session_lt := by
    intro row hrow
    rw [hnext]
    exact hkeyed.session_lt row (hsessions.subset hrow)

theorem createSession (hkeyed : db.Keyed) {adminId : Id} {expiresAt : Time}
    {session : SessionRow} (hcreate : db.createSession adminId expiresAt = some (session, next)) :
    next.Keyed := by
  obtain ⟨-, hsession, rfl⟩ := createSession_eq_some hcreate
  refine ⟨hkeyed.admin_nodup, ?_, ?_, ?_, ?_⟩
  · intro row hrow
    exact Nat.lt_add_right 3 (hkeyed.admin_lt row hrow)
  · apply nodup_append_fresh hkeyed.session_nodup fun old hold => (hkeyed.session_lt old hold).1
    rw [hsession]
  · apply nodup_append_fresh hkeyed.token_nodup fun old hold => (hkeyed.session_lt old hold).2
    rw [hsession]
    exact Nat.le_succ _
  · intro row hrow
    rcases List.mem_append.mp hrow with hold | hnew
    · have hlt := hkeyed.session_lt row hold
      exact ⟨Nat.lt_add_right 3 hlt.1, Nat.lt_add_right 3 hlt.2⟩
    · rw [List.mem_singleton.mp hnew, hsession]
      exact ⟨Nat.lt_add_of_pos_right (by decide), Nat.add_lt_add_left (by decide) _⟩

theorem createAdmin (hkeyed : db.Keyed) {email : String} {passwordHash : PasswordHash}
    (hcreate : db.createAdmin email passwordHash = some next) : next.Keyed := by
  obtain rfl := createAdmin_eq_some hcreate
  refine ⟨?_, ?_, hkeyed.session_nodup, hkeyed.token_nodup, ?_⟩
  · exact nodup_append_fresh hkeyed.admin_nodup hkeyed.admin_lt (Nat.le_refl _)
  · intro row hrow
    rcases List.mem_append.mp hrow with hold | hnew
    · exact Nat.lt_succ_of_lt (hkeyed.admin_lt row hold)
    · rw [List.mem_singleton.mp hnew]
      exact Nat.lt_succ_self _
  · intro row hrow
    have hlt := hkeyed.session_lt row hrow
    exact ⟨Nat.lt_succ_of_lt hlt.1, Nat.lt_succ_of_lt hlt.2⟩

theorem effect (hkeyed : db.Keyed) {task : Option Task} (heffect : db.Effect env task next) :
    next.Keyed := by
  have hdrawn : ({ db with nextId := db.nextId + 1 } : Db).Keyed :=
    hkeyed.of_columns rfl rfl rfl (Nat.le_succ _)
  cases heffect with
  | none task => exact hkeyed
  | attempts task rows => exact hkeyed.of_columns rfl rfl rfl (Nat.le_refl _)
  | validated token auth hcheck =>
      refine hkeyed.of_columns rfl ?_ ?_ (Nat.le_refl _)
      · exact map_updateWhere SessionRow.id fun _ _ => rfl
      · exact map_updateWhere SessionRow.tokenHash fun _ _ => rfl
  | issued rows input admin expiresAt session after hverify henabled hexpires hcreate =>
      have hrows : ({ db with attempts := rows } : Db).Keyed :=
        hkeyed.of_columns rfl rfl rfl (Nat.le_refl _)
      exact (hrows.createSession hcreate).of_columns rfl rfl rfl (Nat.le_refl _)
  | loggedOut auth =>
      refine hkeyed.of_columns rfl ?_ ?_ (Nat.le_refl _)
      · exact map_updateWhere SessionRow.id fun _ _ => rfl
      · exact map_updateWhere SessionRow.tokenHash fun _ _ => rfl
  | passwordChanged auth current new =>
      refine hkeyed.of_columns ?_ ?_ ?_ (Nat.le_succ _)
      · exact map_updateWhere AdminRow.id fun _ _ => rfl
      · exact map_updateWhere SessionRow.id fun _ _ => rfl
      · exact map_updateWhere SessionRow.tokenHash fun _ _ => rfl
  | adminStored auth email password =>
      simp only [storeAdmin]
      split
      · exact hdrawn
      · rename_i after hcreate
        exact hdrawn.createAdmin hcreate
  | adminPatched auth id patch after hpatch =>
      obtain ⟨target, -, rfl, -⟩ := patchAdmin_eq_ok hpatch
      refine hkeyed.of_columns ?_ rfl rfl (Nat.le_refl _)
      exact map_updateWhere AdminRow.id fun _ _ => rfl
  | adminRemoved auth id after hremove =>
      obtain ⟨target, -, rfl, -⟩ := removeAdmin_eq_ok hremove
      exact hkeyed.of_sublists List.filter_sublist List.filter_sublist rfl
  | pruned => exact hkeyed.of_sublists (List.Sublist.refl _) List.filter_sublist rfl
  | elapsed milliseconds => exact hkeyed.of_columns rfl rfl rfl (Nat.le_refl _)

end Keyed

end Db

end Auth

end MailPanel

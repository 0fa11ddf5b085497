import MailPanel.AuthSteps

/-
An administrator who can use the panel always remains, and nobody loses an account by a
request of their own.
-/

namespace MailPanel

namespace Auth

open RowTable StepRun

namespace Db

variable {env : Env} {db next : Db}

def HasEnabled (db : Db) : Prop := ∃ row ∈ db.admins, row.disabled = false

/-- Of several usable administrators, one is not the target. -/
theorem exists_enabled_ne (hkeyed : db.Keyed) (hcount : 1 < db.countEnabled) (id : Id) :
    ∃ row ∈ db.admins, row.disabled = false ∧ row.id ≠ id := by
  by_contra hnone
  have hsame : ∀ row ∈ db.admins, (!row.disabled) = true → row.id = id := by
    intro row hrow henabled
    by_contra hne
    exact hnone ⟨row, hrow, by simpa using henabled, hne⟩
  have hle : db.countEnabled ≤ 1 := by
    apply countP_le_one hkeyed.admin_nodup
    intro left hleft right hright hl hr
    rw [hsame left hleft hl, hsame right hright hr]
  exact absurd hcount (Nat.not_lt.mpr hle)

/-- What the guard lets through leaves a usable administrator besides the target. -/
theorem exists_enabled_of_spared (hkeyed : db.Keyed) (henabled : db.HasEnabled)
    {auth : AuthContext} {target : AdminRow} (htarget : target ∈ db.admins)
    (hspared : Spared db auth target) :
    ∃ row ∈ db.admins, row.disabled = false ∧ row.id ≠ target.id := by
  rcases hspared.2 with hdisabled | hcount
  · obtain ⟨row, hrow, husable⟩ := henabled
    refine ⟨row, hrow, husable, ?_⟩
    intro hid
    rw [eq_of_key_eq hkeyed.admin_nodup hrow htarget hid, hdisabled] at husable
    exact Bool.false_ne_true husable.symm
  · exact exists_enabled_ne hkeyed hcount target.id

theorem hasEnabled_patch (hkeyed : db.Keyed) (henabled : db.HasEnabled) {auth : AuthContext}
    {id : Id} {patch : UpdateAdminPatch} (hpatch : patchAdmin db auth id patch = .ok next) :
    next.HasEnabled := by
  obtain ⟨target, hfind, rfl, hguard⟩ := patchAdmin_eq_ok hpatch
  by_cases hdisable : patch.disabled = some true
  · obtain ⟨row, hrow, husable, hne⟩ :=
      exists_enabled_of_spared hkeyed henabled (mem_of_lookup hfind) (hguard hdisable)
    exact ⟨row, mem_updateWhere.mpr (Or.inl ⟨hrow, by simpa using hne⟩), husable⟩
  · obtain ⟨row, hrow, husable⟩ := henabled
    refine ⟨_, mem_updateWhere_of_mem hrow, ?_⟩
    split
    · cases hvalue : patch.disabled with
      | none => exact husable
      | some value =>
          cases value with
          | false => rfl
          | true => exact absurd hvalue hdisable
    · exact husable

theorem hasEnabled_effect (hkeyed : db.Keyed) (henabled : db.HasEnabled) {task : Option Task}
    (heffect : db.Effect env task next) : next.HasEnabled := by
  cases heffect with
  | issued rows input admin expiresAt session after hverify hadmin hexpires hcreate =>
      obtain ⟨-, -, rfl⟩ := createSession_eq_some hcreate
      exact henabled
  | passwordChanged auth current new =>
      obtain ⟨row, hrow, husable⟩ := henabled
      refine ⟨_, mem_updateWhere_of_mem hrow, ?_⟩
      split
      · exact husable
      · exact husable
  | adminStored auth email password =>
      simp only [storeAdmin]
      split
      · exact henabled
      · rename_i after hcreate
        obtain rfl := createAdmin_eq_some hcreate
        obtain ⟨row, hrow, husable⟩ := henabled
        exact ⟨row, List.mem_append_left _ hrow, husable⟩
  | adminPatched auth id patch after hpatch => exact hasEnabled_patch hkeyed henabled hpatch
  | adminRemoved auth id after hremove =>
      obtain ⟨target, hfind, rfl, hspared⟩ := removeAdmin_eq_ok hremove
      obtain ⟨row, hrow, husable, hne⟩ :=
        exists_enabled_of_spared hkeyed henabled (mem_of_lookup hfind) hspared
      exact ⟨row, List.mem_filter.mpr ⟨hrow, by simpa using hne⟩, husable⟩
  | _ => exact henabled

/-- The administrator's row is still there, and disabled only if it was. -/
def Spares (id : Id) (db next : Db) : Prop :=
  ∀ row ∈ db.admins, row.id = id →
    ∃ after ∈ next.admins, after.id = id ∧ (after.disabled = true → row.disabled = true)

theorem Spares.of_updateWhere {id : Id} {condition : AdminRow → Bool}
    {change : AdminRow → AdminRow} (hadmins : next.admins = updateWhere db.admins condition change)
    (hid : ∀ row, (change row).id = row.id)
    (hdisabled : ∀ row, row.id = id → condition row = true → (change row).disabled = true →
      row.disabled = true) : Spares id db next := by
  intro row hrow hown
  refine ⟨_, hadmins ▸ mem_updateWhere_of_mem hrow, ?_, ?_⟩
  · split
    · rw [hid, hown]
    · exact hown
  · split
    · rename_i hcondition
      exact hdisabled row hown hcondition
    · exact fun h => h

theorem Spares.refl (id : Id) (hadmins : next.admins = db.admins) : Spares id db next := by
  intro row hrow hown
  exact ⟨row, hadmins ▸ hrow, hown, fun h => h⟩

theorem spares_own_patch {auth : AuthContext} {id : Id} {patch : UpdateAdminPatch}
    (hpatch : patchAdmin db auth id patch = .ok next) : Spares auth.admin.id db next := by
  obtain ⟨target, hfind, rfl, hguard⟩ := patchAdmin_eq_ok hpatch
  refine Spares.of_updateWhere rfl (fun _ => rfl) ?_
  intro row hown htarget hafter
  rw [decide_eq_true_eq] at htarget
  cases hvalue : patch.disabled with
  | none => simpa [hvalue] using hafter
  | some value =>
      cases value with
      | false => simp [hvalue] at hafter
      | true => exact absurd (hown.symm.trans htarget) (hguard hvalue).1

theorem spares_own_remove {auth : AuthContext} {id : Id}
    (hremove : removeAdmin db auth id = .ok next) : Spares auth.admin.id db next := by
  obtain ⟨target, hfind, rfl, hspared⟩ := removeAdmin_eq_ok hremove
  intro row hrow hown
  refine ⟨row, List.mem_filter.mpr ⟨hrow, ?_⟩, hown, fun h => h⟩
  simpa [hown] using hspared.1

end Db

/-- The administrator on whose behalf a request runs, as the session check found it. By the time
that the request goes on, the row may be another one. -/
def Task.actor : Task → Option AdminRow
  | .checked auth _ => some auth.admin
  | .verifyingCurrent auth _ _ => some auth.admin
  | .hashingNew auth _ _ => some auth.admin
  | .hashingAdmin auth _ _ => some auth.admin
  | _ => none

theorem Db.spares_own_proceed {env : Env} {db : Db} {task : Task} {actor : AdminRow}
    (hactor : task.actor = some actor) :
    Db.Spares actor.id db (db.proceed env task).1 := by
  cases task with
  | checked auth request =>
      obtain rfl := Option.some.inj hactor
      simp only [proceed]
      cases request with
      | createAdmin email password =>
          rw [handle]
          split
          · exact Spares.refl _ rfl
          · exact Spares.refl _ rfl
      | updateAdmin id patch =>
          rw [handle]
          cases hpatch : patchAdmin db auth id patch with
          | error error => exact Spares.refl _ rfl
          | ok next => exact spares_own_patch hpatch
      | deleteAdmin id =>
          rw [handle]
          cases hremove : removeAdmin db auth id with
          | error error => exact Spares.refl _ rfl
          | ok next => exact spares_own_remove hremove
      | _ => exact Spares.refl _ rfl
  | verifyingCurrent auth current new =>
      rw [proceed]
      split
      · exact Spares.refl _ rfl
      · exact Spares.refl _ rfl
  | hashingNew auth current new =>
      exact Spares.of_updateWhere rfl (fun _ => rfl) fun _ _ _ h => h
  | hashingAdmin auth email password =>
      simp only [proceed, storeAdmin]
      split
      · exact Spares.refl _ rfl
      · rename_i after hcreate
        obtain rfl := createAdmin_eq_some hcreate
        intro row hrow hown
        exact ⟨row, List.mem_append_left _ hrow, hown, fun h => h⟩
  | _ => exact absurd hactor.symm (Option.some_ne_none actor)

namespace Panel

variable (env : Env)

/-- A step of a request leaves the account it is made under as usable as it was. -/
def SparesActor (p : Panel) (label : Label) : Prop :=
  ∀ index task actor, label = .proceed index → p.tasks[index]? = some task →
    task.actor = some actor → Db.Spares actor.id p.db (p.step env label).db

theorem sparesActor (p : Panel) (label : Label) : p.SparesActor env label := by
  intro index task actor hlabel htask hactor
  rw [hlabel, step_proceed htask]
  exact Db.spares_own_proceed hactor

/-- From any database with a usable administrator, every run leaves one, and no request disables
or deletes the account that it is made under. Requests may wait between their session check and
their handler, which checks the last administrator and writes without a wait between. -/
theorem enabled_remains (start : Panel) (labels : List Label) (hkeyed : start.db.Keyed)
    (henabled : start.db.HasEnabled) :
    (run (step env) start labels).db.HasEnabled ∧
      Meets (step env) (fun p label => p.SparesActor env label) start labels := by
  constructor
  · have hinvariant : ∀ (p : Panel) (label : Label), p.db.Keyed ∧ p.db.HasEnabled →
        (p.step env label).db.Keyed ∧ (p.step env label).db.HasEnabled := by
      rintro p label ⟨hp, husable⟩
      exact ⟨hp.effect (p.effect_step label), Db.hasEnabled_effect hp husable (p.effect_step label)⟩
    exact (invariant_of_run (step env) (fun p => p.db.Keyed ∧ p.db.HasEnabled) hinvariant labels
      ⟨hkeyed, henabled⟩).2
  · apply meets_of_forall
    intro label _ p
    exact p.sparesActor env label

end Panel

/- Two administrators whose sessions are both checked delete each other: the second is
kept by the guard on the last one. -/
namespace CrossedDeletion

open Sample

def start : Panel where
  db :=
    { now := 1000
      nextId := 20
      admins := [admin 1 "one@example.com", admin 2 "two@example.com"]
      sessions := [session 3 1, session 6 2]
      attempts := []
      history := [] }
  tasks := []

def crossed : List Label :=
  [.request ⟨some 4, some 5, true⟩ (.deleteAdmin 2),
    .request ⟨some 7, some 8, true⟩ (.deleteAdmin 1), .proceed 0, .proceed 1]

example : (run (Panel.step env) start crossed).tasks =
    [.ended .done, .ended (.refused
      ⟨"CONFLICT", "At least one enabled administrator must remain."⟩)] := by
  decide +kernel

/-- Two administrators delete each other's accounts at the same time: the first request goes
through, and the second is refused, as its target is the last one left. -/
theorem crossed_leaves_enabled :
    (run (Panel.step env) start crossed).db.HasEnabled ∧
      Meets (Panel.step env) (fun p label => p.SparesActor env label) start crossed := by
  have hkeyed : start.db.Keyed := ⟨by decide, by decide, by decide, by decide, by decide⟩
  have henabled : start.db.HasEnabled := ⟨admin 1 "one@example.com", by decide, rfl⟩
  exact Panel.enabled_remains env start crossed hkeyed henabled

end CrossedDeletion

end Auth

end MailPanel

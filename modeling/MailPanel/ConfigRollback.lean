import MailPanel.ConfigSettings

/-
The editor of the panel's settings: changes are saved for the next start, after a snapshot of
what the running panel has, and a rollback saves the values of a snapshot.
-/

namespace MailPanel

namespace Config

open ScriptText NumberText

/-- The value that each key is given. -/
structure ChangeSet where
  entries : List (String × Text)
  nodup : (entries.map Prod.fst).Nodup

structure Snapshot where
  id : Nat
  values : ChangeSet

/-- The running panel, with its tables of settings and snapshots, and the configuration it was
started with. Ids of snapshots are drawn in order, and the next one is above all of them. -/
structure Panel where
  settings : SettingsTable
  snapshots : List Snapshot
  nextId : Nat
  fresh : ∀ snapshot ∈ snapshots, snapshot.id < nextId
  config : AppConfig

/-- What the check of one proposed change says: whether it may be made, why not, and the value
it would replace, a secret's among them not shown. -/
structure ConfigChangeValidation where
  key : String
  allowed : Bool
  reason : Option String
  classification : Option ConfigSettingClassification
  currentValue : Option Text
  proposedValue : Text
deriving DecidableEq, Repr

structure ValidateConfigResponse where
  valid : Bool
  changes : List ConfigChangeValidation
  highestImpact : Option ConfigSettingClassification
deriving DecidableEq, Repr

structure ApplyConfigResponse where
  applied : List String
  snapshotId : Nat
deriving DecidableEq, Repr

structure EditorError where
  code : String
  message : String
  details : List (String × Option String)
deriving DecidableEq, Repr

def IMPACT_RANK : ConfigSettingClassification → Int
  | .readOnly => -1
  | .editableLive => 0
  | .needsRestart => 1
  | .needsRecreate => 2

def computeHighestImpact :
    List ConfigSettingClassification → Option ConfigSettingClassification
  | [] => none
  | first :: rest =>
      some (rest.foldl (fun highest current =>
        if IMPACT_RANK highest < IMPACT_RANK current then current else highest) first)

/-- Keys that are picked with their values stay different. -/
theorem nodup_filterMap {Item : Type} {items : List Item} {key : Item → String}
    (value : Item → Option Text) (hnodup : (items.map key).Nodup) :
    ((items.filterMap fun item => (value item).map fun text => (key item, text)).map
      Prod.fst).Nodup := by
  have hsublist : ((items.filterMap fun item => (value item).map fun text => (key item, text)).map
      Prod.fst).Sublist (items.map key) := by
    induction items with
    | nil => exact List.Sublist.slnil
    | cons item items ih =>
        have ih := ih (List.nodup_cons.mp hnodup).2
        rw [List.filterMap_cons, List.map_cons]
        cases value item with
        | none => exact ih.cons (key item)
        | some text => exact ih.cons_cons (key item)
  exact hnodup.sublist hsublist

namespace Panel

variable (panel : Panel)

def getOverride (key : String) : Option Text := panel.settings key

def validateChange (key : String) (proposedValue : Text) : ConfigChangeValidation :=
  match findSettingDefinition key with
  | none => ⟨key, false, some (key ++ " is not an editable setting."), none, none, proposedValue⟩
  | some definition =>
      let currentValue := if definition.secret then none else definition.getValue panel.config
      if definition.classification = .readOnly then
        ⟨key, false, some definition.description, some .readOnly, currentValue, proposedValue⟩
      else
        ⟨key, true, none, some definition.classification, currentValue, proposedValue⟩

def validate (changes : ChangeSet) : ValidateConfigResponse :=
  let results := changes.entries.map fun change => panel.validateChange change.1 change.2
  { valid := results.all ConfigChangeValidation.allowed
    changes := results
    highestImpact := computeHighestImpact
      ((results.filter ConfigChangeValidation.allowed).filterMap
        ConfigChangeValidation.classification) }

/-- What the running panel has for every setting. -/
def currentValues : ChangeSet where
  entries := SETTINGS_ALLOWLIST.filterMap fun definition =>
    (definition.getValue panel.config).map fun value => (definition.key.text, value)
  nodup := nodup_filterMap (fun definition => definition.getValue panel.config)
    allowlist_keys_nodup

def setOverride (table : SettingsTable) (change : String × Text) : SettingsTable :=
  Function.update table change.1 (some change.2)

def insertSnapshot (values : ChangeSet) : Panel where
  settings := panel.settings
  snapshots := panel.snapshots ++ [⟨panel.nextId, values⟩]
  nextId := panel.nextId + 1
  fresh := by
    intro snapshot hsnapshot
    rcases List.mem_append.mp hsnapshot with hold | hnew
    · exact Nat.lt_succ_of_lt (panel.fresh snapshot hold)
    · rw [List.mem_singleton.mp hnew]
      exact Nat.lt_succ_self _
  config := panel.config

/-- Every change in one transaction. -/
def setOverrides (changes : ChangeSet) : Panel :=
  { panel with settings := changes.entries.foldl setOverride panel.settings }

/-- The change set is checked as a whole, a snapshot of the current values is taken, the
values are stored, and what is stored is read back. Only the first of these can refuse
without a trace. -/
def apply (changes : ChangeSet) : Except EditorError ApplyConfigResponse × Panel :=
  let validation := panel.validate changes
  if ¬validation.valid then
    (.error ⟨"VALIDATION_FAILED",
      "One or more settings in this change set are not editable — no changes were applied.",
      (validation.changes.filter fun change => !change.allowed).map fun change =>
        (change.key, change.reason)⟩, panel)
  else
    let stored := (panel.insertSnapshot panel.currentValues).setOverrides changes
    match changes.entries.find? fun change => stored.getOverride change.1 ≠ some change.2 with
    | some change =>
        (.error ⟨"INTERNAL", "Failed to persist " ++ change.1 ++
          ": the value read back after writing did not match what was applied.", []⟩, stored)
    | none =>
        (.ok ⟨(changes.entries.map Prod.fst).mergeSort fun left right => left ≤ right,
          panel.nextId⟩, stored)

def getSnapshotById (id : Nat) : Option Snapshot :=
  panel.snapshots.find? fun snapshot => snapshot.id = id

/-- The values of a snapshot that a change may name. -/
def editableValues (snapshot : Snapshot) : ChangeSet where
  entries := snapshot.values.entries.filter fun change => isEditable change.1
  nodup := snapshot.values.nodup.sublist (List.filter_sublist.map Prod.fst)

def rollback (snapshotId : Nat) : Except EditorError ApplyConfigResponse × Panel :=
  match panel.getSnapshotById snapshotId with
  | none =>
      (.error ⟨"NOT_FOUND", "No config snapshot with id " ++ toString snapshotId ++ ".", []⟩,
        panel)
  | some snapshot => panel.apply (editableValues snapshot)

end Panel

/-- What may happen to a panel; a start that fails leaves it as it was. -/
inductive Step where
  | apply (changes : ChangeSet)
  | rollback (snapshotId : Nat)
  | restart (secrets : EphemeralSecrets)

namespace Panel

def step (validators : Validators) (env : ProcessEnv) (panel : Panel) : Step → Panel
  | .apply changes => (panel.apply changes).2
  | .rollback snapshotId => (panel.rollback snapshotId).2
  | .restart secrets =>
      match nextStart validators secrets env panel.settings with
      | .error _ => panel
      | .ok config => { panel with config := config }

def run (validators : Validators) (env : ProcessEnv) (panel : Panel) (steps : List Step) :
    Panel :=
  steps.foldl (step validators env) panel

end Panel

/- Saving values -/

theorem foldl_setOverride_of_notMem {entries : List (String × Text)} {key : String}
    (hkey : key ∉ entries.map Prod.fst) (table : SettingsTable) :
    entries.foldl Panel.setOverride table key = table key := by
  induction entries generalizing table with
  | nil => rfl
  | cons change entries ih =>
      rw [List.map_cons, List.mem_cons, not_or] at hkey
      rw [List.foldl_cons, ih hkey.2, Panel.setOverride, Function.update_of_ne hkey.1]

theorem foldl_setOverride_of_mem {entries : List (String × Text)}
    (hnodup : (entries.map Prod.fst).Nodup) {change : String × Text} (hchange : change ∈ entries)
    (table : SettingsTable) : entries.foldl Panel.setOverride table change.1 = some change.2 := by
  induction entries generalizing table with
  | nil => cases hchange
  | cons first entries ih =>
      rw [List.map_cons, List.nodup_cons] at hnodup
      rw [List.foldl_cons]
      rcases List.mem_cons.mp hchange with rfl | hlater
      · rw [foldl_setOverride_of_notMem hnodup.1, Panel.setOverride, Function.update_self]
      · exact ih hnodup.2 hlater _

namespace Panel

variable {panel : Panel}

theorem validateChange_allowed (key : String) (proposedValue : Text) :
    (panel.validateChange key proposedValue).allowed = isEditable key := by
  rw [validateChange, isEditable]
  cases findSettingDefinition key with
  | none => rfl
  | some definition =>
      dsimp only
      split
      · rename_i hreadOnly
        simp [SettingDefinition.editable, hreadOnly]
      · rename_i heditable
        simp [SettingDefinition.editable, heditable]

theorem validate_valid_iff {changes : ChangeSet} :
    (panel.validate changes).valid = true ↔
      ∀ change ∈ changes.entries, isEditable change.1 = true := by
  simp only [validate, List.all_eq_true, List.forall_mem_map, validateChange_allowed]

/-- What an accepted change set leaves. -/
def applied (panel : Panel) (changes : ChangeSet) : Panel :=
  (panel.insertSnapshot panel.currentValues).setOverrides changes

theorem getOverride_applied {changes : ChangeSet} {change : String × Text}
    (hchange : change ∈ changes.entries) :
    (panel.applied changes).getOverride change.1 = some change.2 :=
  foldl_setOverride_of_mem changes.nodup hchange panel.settings

theorem apply_refused {changes : ChangeSet} (hinvalid : ¬(panel.validate changes).valid = true) :
    ∃ error, panel.apply changes = (.error error, panel) := by
  rw [apply]
  dsimp only
  rw [if_pos hinvalid]
  exact ⟨_, rfl⟩

theorem apply_accepted {changes : ChangeSet} (hvalid : (panel.validate changes).valid = true) :
    ∃ response, panel.apply changes = (.ok response, panel.applied changes) ∧
      response.snapshotId = panel.nextId := by
  have hstored : (changes.entries.find? fun change =>
      (panel.applied changes).getOverride change.1 ≠ some change.2) = none := by
    rw [List.find?_eq_none]
    intro change hchange
    simp [getOverride_applied hchange]
  rw [applied] at hstored
  rw [apply]
  dsimp only
  rw [if_neg (not_not_intro hvalid), hstored]
  exact ⟨_, rfl, rfl⟩

/-- What an accepted change set answers, and leaves. -/
theorem apply_spec {changes : ChangeSet} {response : ApplyConfigResponse} {after : Panel}
    (happly : panel.apply changes = (.ok response, after)) :
    after = panel.applied changes ∧ response.snapshotId = panel.nextId := by
  by_cases hvalid : (panel.validate changes).valid = true
  · obtain ⟨accepted, hok, hid⟩ := @apply_accepted panel changes hvalid
    rw [hok] at happly
    obtain ⟨hresponse, hafter⟩ := Prod.mk.inj happly
    exact ⟨hafter.symm, Except.ok.inj hresponse ▸ hid⟩
  · obtain ⟨error, herror⟩ := @apply_refused panel changes hvalid
    rw [herror] at happly
    cases happly

/- Snapshots stay -/

theorem apply_snapshots (changes : ChangeSet) :
    panel.snapshots <+: (panel.apply changes).2.snapshots := by
  by_cases hvalid : (panel.validate changes).valid = true
  · obtain ⟨response, hok, -⟩ := @apply_accepted panel changes hvalid
    rw [hok]
    exact List.prefix_append _ _
  · obtain ⟨error, herror⟩ := @apply_refused panel changes hvalid
    rw [herror]

theorem step_snapshots (validators : Validators) (env : ProcessEnv) (step : Step) :
    panel.snapshots <+: (panel.step validators env step).snapshots := by
  cases step with
  | apply changes => exact apply_snapshots changes
  | rollback snapshotId =>
      rw [Panel.step, rollback]
      cases panel.getSnapshotById snapshotId with
      | none => exact List.prefix_refl _
      | some snapshot => exact apply_snapshots _
  | restart secrets =>
      rw [Panel.step]
      cases nextStart validators secrets env panel.settings with
      | error problems => exact List.prefix_refl _
      | ok config => exact List.prefix_refl _

theorem run_snapshots (validators : Validators) (env : ProcessEnv) (steps : List Step) :
    panel.snapshots <+: (panel.run validators env steps).snapshots := by
  induction steps generalizing panel with
  | nil => exact List.prefix_refl _
  | cons step steps ih => exact (step_snapshots validators env step).trans ih

/-- The snapshot of an apply is found ever after. -/
theorem getSnapshotById_run (changes : ChangeSet) (validators : Validators) (env : ProcessEnv)
    (steps : List Step) :
    ((panel.applied changes).run validators env steps).getSnapshotById panel.nextId =
      some ⟨panel.nextId, panel.currentValues⟩ := by
  have hnone : panel.snapshots.find? (fun snapshot => snapshot.id = panel.nextId) = none := by
    rw [List.find?_eq_none]
    intro snapshot hsnapshot
    have hlt := panel.fresh snapshot hsnapshot
    rw [decide_eq_true_eq]
    omega
  obtain ⟨later, hlater⟩ := @run_snapshots (panel.applied changes) validators env steps
  have hsnapshots : (panel.applied changes).snapshots =
      panel.snapshots ++ [⟨panel.nextId, panel.currentValues⟩] := rfl
  rw [getSnapshotById, ← hlater, hsnapshots, List.append_assoc, List.find?_append, hnone,
    Option.none_or, List.singleton_append, List.find?_cons_of_pos]
  exact decide_eq_true rfl

/- Values of a snapshot -/

theorem isEditable_of_mem {definition : SettingDefinition}
    (hmem : definition ∈ SETTINGS_ALLOWLIST) (heditable : definition.editable = true) :
    isEditable definition.key.text = true := by
  rw [isEditable_iff]
  exact List.mem_map_of_mem (List.mem_filter.mpr ⟨hmem, heditable⟩)

theorem mem_currentValues {definition : SettingDefinition}
    (hmem : definition ∈ SETTINGS_ALLOWLIST) {text : Text}
    (hvalue : definition.getValue panel.config = some text) :
    (definition.key.text, text) ∈ panel.currentValues.entries := by
  refine List.mem_filterMap.mpr ⟨definition, hmem, ?_⟩
  rw [hvalue]
  rfl

theorem exists_of_mem_currentValues {change : String × Text}
    (hchange : change ∈ panel.currentValues.entries) :
    ∃ definition ∈ SETTINGS_ALLOWLIST, definition.key.text = change.1 ∧
      definition.getValue panel.config = some change.2 := by
  obtain ⟨definition, hmem, hvalue⟩ := List.mem_filterMap.mp hchange
  obtain ⟨text, htext, rfl⟩ := Option.map_eq_some_iff.mp hvalue
  exact ⟨definition, hmem, rfl, htext⟩

/-- A rollback saves what the panel had when the snapshot was taken, and only that. -/
theorem rollback_spec (changes : ChangeSet) (validators : Validators) (env : ProcessEnv)
    (steps : List Step) :
    ∃ response after,
      ((panel.applied changes).run validators env steps).rollback panel.nextId =
        (.ok response, after) ∧
      (∀ definition ∈ SETTINGS_ALLOWLIST, definition.editable = true →
        ∀ text ∈ definition.getValue panel.config,
          after.settings definition.key.text = some text) ∧
      ∀ definition ∈ SETTINGS_ALLOWLIST, definition.getValue panel.config = none →
        after.settings definition.key.text =
          ((panel.applied changes).run validators env steps).settings definition.key.text := by
  generalize hrun : (panel.applied changes).run validators env steps = later
  have hfound : later.getSnapshotById panel.nextId = some ⟨panel.nextId, panel.currentValues⟩ := by
    rw [← hrun]
    exact getSnapshotById_run changes validators env steps
  have hvalid : (later.validate (editableValues ⟨panel.nextId, panel.currentValues⟩)).valid =
      true := by
    rw [validate_valid_iff]
    intro change hchange
    exact (List.mem_filter.mp hchange).2
  obtain ⟨response, hok, -⟩ := apply_accepted hvalid
  refine ⟨response, _, by rw [rollback, hfound]; exact hok, ?_, ?_⟩
  · intro definition hmem heditable text htext
    have hchange : (definition.key.text, text) ∈
        (editableValues ⟨panel.nextId, panel.currentValues⟩).entries :=
      List.mem_filter.mpr ⟨mem_currentValues hmem htext, isEditable_of_mem hmem heditable⟩
    exact getOverride_applied hchange
  · intro definition hmem hnone
    refine foldl_setOverride_of_notMem ?_ later.settings
    intro hkey
    obtain ⟨change, hchange, hsame⟩ := List.mem_map.mp hkey
    obtain ⟨other, hother, htext, hvalue⟩ :=
      exists_of_mem_currentValues (List.mem_filter.mp hchange).1
    have hdefinition : other = definition :=
      List.inj_on_of_nodup_map allowlist_keys_nodup hother hmem (htext.trans hsame)
    rw [hdefinition, hnone] at hvalue
    cases hvalue

end Panel

section Restores

variable {validators : Validators} {env : ProcessEnv}

/-- The next start would have what the panel has, and no start finds another password where
the panel has none: nothing was pending, and nothing was generated. -/
def Settled (validators : Validators) (env : ProcessEnv) (secrets : EphemeralSecrets)
    (panel later : Panel) : Prop :=
  ∃ next, nextStart validators secrets env panel.settings = .ok next ∧
    (∀ definition ∈ SETTINGS_ALLOWLIST, definition.editable = true →
      ∀ text ∈ definition.getValue panel.config, definition.setValue next = some text) ∧
    (panel.config.rspamdPassword = none →
      loadedPassword env later.settings = loadedPassword env panel.settings)

/-- A rollback brings the next start back to what it was before the apply, whatever happened
since, exactly if the panel was settled: the next start would have what the panel has, and a
password that the panel does not have is not found later either. A snapshot records what was in
force, and so brings back neither a change that was pending nor a value that is missing. -/
theorem rollback_restores_iff {panel after : Panel} {atStart secrets secrets' : EphemeralSecrets}
    {started : SettingsTable} (hrunning : nextStart validators atStart env started = .ok panel.config)
    {changes : ChangeSet} {response : ApplyConfigResponse}
    (happly : panel.apply changes = (.ok response, after)) (steps : List Step) :
    ∃ rolledBack restored,
      (after.run validators env steps).rollback response.snapshotId =
        (.ok rolledBack, restored) ∧
      ((nextStart validators secrets' env restored.settings).toOption.map settingsOf =
          (nextStart validators secrets env panel.settings).toOption.map settingsOf ↔
        Settled validators env secrets panel (after.run validators env steps)) := by
  obtain ⟨rfl, hid⟩ := Panel.apply_spec happly
  obtain ⟨rolledBack, restored, hrollback, hrecorded, hkept⟩ :=
    panel.rollback_spec changes validators env steps
  refine ⟨rolledBack, restored, by rw [hid]; exact hrollback, ?_⟩
  obtain ⟨data, hstarts, hconfig⟩ := nextStart_ok_iff.mp hrunning
  have hrecorded : Recorded panel.config restored.settings := hrecorded
  rw [hconfig] at hrecorded
  obtain ⟨data', hrestarts, hspelled⟩ := hstarts.restart hrecorded
  rw [← hconfig] at hspelled
  have hrestored := (@nextStart_ok_iff validators secrets' env restored.settings _).mpr
    ⟨data', hrestarts, rfl⟩
  have hvalues : ∀ definition ∈ SETTINGS_ALLOWLIST, definition.editable = true →
      definition.setValue (configOf secrets' (resolveEffectiveEnv validators env
          (filterStartupOverrides restored.settings)).warnings data') =
        (definition.getValue panel.config).or (loadedPassword env restored.settings) := by
    intro definition hmem heditable
    rw [setValue_configOf secrets' _ data' hmem heditable, hspelled definition hmem heditable]
  rw [hrestored, Settled]
  cases hnext : nextStart validators secrets env panel.settings with
  | error problems =>
      refine iff_of_false nofun ?_
      rintro ⟨next, hok, -⟩
      cases hok
  | ok next =>
      have hsame : (Except.toOption (.ok (configOf secrets' (resolveEffectiveEnv validators env
          (filterStartupOverrides restored.settings)).warnings data') :
            Except (List String) AppConfig)).map settingsOf =
          (Except.toOption (.ok next : Except (List String) AppConfig)).map settingsOf ↔
          ∀ definition ∈ SETTINGS_ALLOWLIST, definition.editable = true →
            (definition.getValue panel.config).or (loadedPassword env restored.settings) =
              definition.setValue next := by
        simp only [Except.toOption, Option.map_some, Option.some.injEq, settingsOf_eq_iff]
        refine forall_congr' fun definition => forall_congr' fun hmem =>
          forall_congr' fun heditable => ?_
        rw [hvalues definition hmem heditable]
      rw [hsame]
      obtain ⟨dataNext, hstartsNext, hconfigNext⟩ := nextStart_ok_iff.mp hnext
      have hpassword : next.rspamdPassword = loadedPassword env panel.settings := by
        rw [hconfigNext]
        exact hstartsNext.password
      obtain ⟨password, hmem, heditable, hkey⟩ :=
        exists_definition (by decide : ConfigKey.rspamdPassword ∈ editableKeys)
      have hunset : panel.config.rspamdPassword = none →
          loadedPassword env restored.settings =
            loadedPassword env ((panel.applied changes).run validators env steps).settings := by
        intro hnone
        have hsaved := hkept password hmem
          ((getValue_rspamdPassword hmem heditable hkey).1.trans hnone)
        rw [hkey] at hsaved
        rw [loadedPassword, loadedPassword, hsaved]
      constructor
      · intro hall
        refine ⟨next, rfl, ?_, ?_⟩
        · intro definition hmem heditable text htext
          rw [← hall definition hmem heditable, Option.mem_def.mp htext, Option.some_or]
        · intro hnone
          have hvalue := hall password hmem heditable
          rw [(getValue_rspamdPassword hmem heditable hkey).1, hnone, Option.none_or,
            (getValue_rspamdPassword hmem heditable hkey).2, hpassword, hunset hnone] at hvalue
          exact hvalue
      · rintro ⟨found, hfound, hset, hlater⟩ definition hdefinition hmayEdit
        obtain rfl := Except.ok.inj hfound
        cases hvalue : definition.getValue panel.config with
        | some text => exact (hset definition hdefinition hmayEdit text hvalue).symm
        | none =>
            have hpath : definition.key = .rspamdPassword :=
              not_not.mp fun hother => getValue_ne_none hdefinition hmayEdit hother hvalue
            obtain ⟨hget, -⟩ :=
              @getValue_rspamdPassword definition hdefinition hmayEdit hpath panel.config
            have hnone := hget.symm.trans hvalue
            rw [Option.none_or, hunset hnone, hlater hnone, ← hpassword]
            exact (getValue_rspamdPassword hdefinition hmayEdit hpath).2.symm

end Restores

namespace OnePanel

/-- Every text with a colon is a URL here, and every text with an at sign an address. -/
def validators : Validators := ⟨fun text => ':' ∈ text, fun text => '@' ∈ text, rfl⟩

def generated : EphemeralSecrets :=
  ⟨⟨List.replicate 64 'a', rfl⟩, ⟨List.replicate 64 'b', rfl⟩⟩

/-- The cookie secret and the password of the spam filter. -/
def environment (password : Option Text) : ProcessEnv
  | .cookieSecret => some "stable".toList
  | .rspamdPassword => password
  | _ => none

theorem idle_pos : (0 : ℚ) < 2 := by
  norm_num

/-- The configuration of the examples: a panel with a cookie secret from its environment, and a
broker secret that was drawn at its start. -/
def config (password : Option Text) : AppConfig where
  logLevel := .info
  cookieSecret := "stable".toList
  cookieSecretIsEphemeral := false
  cookieSecure := true
  absoluteTtlHours := ⟨12, twelve_pos, ofRat_twelve⟩
  idleTtlHours := ⟨2, idle_pos, ofRat_two⟩
  sharedSecret := List.replicate 64 'b'
  containerName := "mailserver".toList
  rspamdUrl := "http://mailserver:11334".toList
  rspamdPassword := password
  enableExecConsole := false
  enableHsts := true
  mcpEnabled := true
  warnings := [ephemeralBrokerWarning]

/-- Nothing was ever saved: the panel of the examples at its first start. -/
def fresh (password : Option Text) : Panel where
  settings := fun _ => none
  snapshots := []
  nextId := 0
  fresh := nofun
  config := config password

theorem started_with :
    nextStart validators generated (environment (some "old".toList)) (fun _ => none) =
      .ok (config (some "old".toList)) := by
  decide +kernel

theorem started_without :
    nextStart validators generated (environment none) (fun _ => none) = .ok (config none) := by
  decide +kernel

def change (key : String) (value : Text) : ChangeSet := ⟨[(key, value)], List.nodup_singleton _⟩

def debugged : ChangeSet := change "LOG_LEVEL" "debug".toList

def guarded : ChangeSet := change "RSPAMD_PASSWORD" "secret".toList

theorem debugged_settled (steps : List Step) :
    Settled validators (environment (some "old".toList)) generated (fresh (some "old".toList))
      (((fresh (some "old".toList)).applied debugged).run validators
        (environment (some "old".toList)) steps) := by
  refine ⟨config (some "old".toList), started_with, ?_, nofun⟩
  intro definition _ _ text htext
  have hset : ¬(definition.key = .cookieSecret ∧
      (config (some "old".toList)).cookieSecretIsEphemeral = true) := fun h => nomatch h.2
  rw [SettingDefinition.setValue, if_neg hset]
  exact htext

/-- The level of the log is changed, the panel is started again, and the change taken back. The
snapshot had the level that was in force, and so the next start has it again. -/
theorem debugged_restored :
    ∃ rolledBack restored,
      (((fresh (some "old".toList)).applied debugged).run validators
          (environment (some "old".toList)) [.restart generated]).rollback 0 =
        (.ok rolledBack, restored) ∧
      (nextStart validators generated (environment (some "old".toList))
          restored.settings).toOption.map settingsOf =
        (nextStart validators generated (environment (some "old".toList))
          (fresh (some "old".toList)).settings).toOption.map settingsOf := by
  obtain ⟨response, happly, hid⟩ := Panel.apply_accepted
    (by decide : ((fresh (some "old".toList)).validate debugged).valid = true)
  obtain ⟨rolledBack, restored, hrollback, hiff⟩ :=
    @rollback_restores_iff validators (environment (some "old".toList)) _ _ generated generated
      generated _ started_with _ _ happly [.restart generated]
  rw [hid] at hrollback
  exact ⟨rolledBack, restored, hrollback, hiff.mpr (debugged_settled _)⟩

/-- A password is set where there was none. The snapshot has no text for a password that is
missing, and the rollback leaves the new one where it is. -/
theorem password_stays : ¬∀ (validators : Validators) (env : ProcessEnv)
    (secrets : EphemeralSecrets) (started : SettingsTable) (panel after : Panel)
    (changes : ChangeSet) (response : ApplyConfigResponse),
    nextStart validators secrets env started = .ok panel.config →
    panel.apply changes = (.ok response, after) →
    (nextStart validators secrets env
        (after.rollback response.snapshotId).2.settings).toOption.map settingsOf =
      (nextStart validators secrets env panel.settings).toOption.map settingsOf := by
  intro hclaim
  obtain ⟨response, happly, hid⟩ := Panel.apply_accepted
    (by decide : ((fresh none).validate guarded).valid = true)
  have hrestored := hclaim validators (environment none) generated (fun _ => none) (fresh none)
    _ guarded response started_without happly
  rw [hid] at hrestored
  have hstays : (nextStart validators generated (environment none)
      (((fresh none).applied guarded).rollback 0).2.settings).toOption.map settingsOf ≠
        (nextStart validators generated (environment none)
          (fresh none).settings).toOption.map settingsOf := by
    decide +kernel
  exact hstays hrestored

end OnePanel

end Config

end MailPanel

import Mathlib.Data.List.DropRight
import MailPanel.ConfigLoad

/-
The settings that the panel's editor knows, and what a start makes of the values that it has
saved for them.
-/

namespace MailPanel

namespace Config

open ScriptText NumberText

inductive ConfigSettingClassification where
  | readOnly
  | editableLive
  | needsRestart
  | needsRecreate
deriving DecidableEq, Repr

/-- One setting that the panel shows: the variable behind it, the class that says whether it may
be changed here and when a change takes effect, and whether its value is a secret. -/
structure SettingDefinition where
  key : ConfigKey
  description : String
  classification : ConfigSettingClassification
  secret : Bool
  /-- The value that the running panel has. -/
  getValue : AppConfig → Option Text

def boolToString (value : Bool) : Text := if value then "true".toList else "false".toList

/-- The settings that the panel shows, in the order of the source. A variable that is not among
them can be neither seen nor saved through the panel. -/
def SETTINGS_ALLOWLIST : List SettingDefinition :=
  [{ key := .dmsContainerName
     description := "The container name every module in this panel resolves as \"the\" mail server. Read-only here: changing it silently repoints every other feature at a different container, which this editor's per-key apply flow is not the right tool for. Change it via the environment and restart."
     classification := .readOnly
     secret := false
     getValue := fun config => some config.containerName },
   { key := .brokerSharedSecret
     description := "Authenticates every server -> broker request. Read-only here: the broker has no API to receive a new value for its own copy, so editing only this side would break connectivity, not rotate the secret. Rotate by updating both processes' environment and restarting both."
     classification := .readOnly
     secret := true
     getValue := fun config => some config.sharedSecret },
   { key := .logLevel
     description := "Pino log verbosity: fatal, error, warn, info, debug, or trace."
     classification := .needsRestart
     secret := false
     getValue := fun config => some config.logLevel.text.toList },
   { key := .enableExecConsole
     description := "Enables the allowlisted diagnostic command console (FEATURE_MATRIX.md §32). Off by default — exec into the mail container is a meaningful capability even restricted to a fixed command set."
     classification := .needsRestart
     secret := false
     getValue := fun config => some (boolToString config.enableExecConsole) },
   { key := .mcpEnabled
     description := "Runs the MCP listener that lets a mailbox owner connect ChatGPT-compatible clients to one mailbox (docs/mcp-integration.md). On by default. Even when on, it refuses every request until you switch it on in Mail → MCP Connections; turn it off here to stop the listener entirely."
     classification := .needsRestart
     secret := false
     getValue := fun config => some (boolToString config.mcpEnabled) },
   { key := .enableHsts
     description := "Sends Strict-Transport-Security on responses. Turn off only for a plain-HTTP LAN install, where forcing HTTPS would lock an administrator out rather than protect them."
     classification := .needsRestart
     secret := false
     getValue := fun config => some (boolToString config.enableHsts) },
   { key := .cookieSecure
     description := "Whether the session cookie carries the Secure attribute. Turn off only for a plain-HTTP LAN install, where forcing it would silently stop the browser from ever sending the cookie back."
     classification := .needsRestart
     secret := false
     getValue := fun config => some (boolToString config.cookieSecure) },
   { key := .sessionAbsoluteTtlHours
     description := "Absolute session lifetime in hours, regardless of activity."
     classification := .needsRestart
     secret := false
     getValue := fun config => some (toText config.absoluteTtlHours.value) },
   { key := .sessionIdleTtlHours
     description := "Idle session lifetime in hours — expires this long after last use, even inside the absolute window."
     classification := .needsRestart
     secret := false
     getValue := fun config => some (toText config.idleTtlHours.value) },
   { key := .rspamdUrl
     description := "Base URL of the Rspamd controller HTTP API."
     classification := .needsRestart
     secret := false
     getValue := fun config => some config.rspamdUrl },
   { key := .rspamdPassword
     description := "Password for the Rspamd controller's Password header. Leave unset only if the controller has no password configured."
     classification := .needsRestart
     secret := true
     getValue := fun config => config.rspamdPassword },
   { key := .cookieSecret
     description := "Signs the session cookie. Changing this immediately invalidates every existing session on the next restart — every administrator, including you, will need to log in again."
     classification := .needsRestart
     secret := true
     getValue := fun config => some config.cookieSecret }]

def findSettingDefinition (key : String) : Option SettingDefinition :=
  SETTINGS_ALLOWLIST.find? fun definition => definition.key.text = key

def SettingDefinition.editable (definition : SettingDefinition) : Bool :=
  definition.classification ≠ .readOnly

/-- The keys that a change may name. -/
def editableKeys : List ConfigKey :=
  (SETTINGS_ALLOWLIST.filter SettingDefinition.editable).map SettingDefinition.key

def isEditable (key : String) : Bool :=
  (findSettingDefinition key).any SettingDefinition.editable

/-- The saved values, by their keys. -/
abbrev SettingsTable := String → Option Text

/-- The saved values that a start may honour. -/
def filterStartupOverrides (table : SettingsTable) : Overrides := fun key =>
  if isEditable key.text then table key.text else none

/-- A start with these saved values. -/
def nextStart (validators : Validators) (secrets : EphemeralSecrets) (env : ProcessEnv)
    (table : SettingsTable) : Except (List String) AppConfig :=
  loadConfig validators secrets env (filterStartupOverrides table)

/-- The value of a setting; a secret that was generated counts as unset. -/
def SettingDefinition.setValue (definition : SettingDefinition) (config : AppConfig) :
    Option Text :=
  if definition.key = .cookieSecret ∧ config.cookieSecretIsEphemeral then none
  else definition.getValue config

/-- What a configuration has for each editable setting. -/
def settingsOf (config : AppConfig) : List (ConfigKey × Option Text) :=
  (SETTINGS_ALLOWLIST.filter SettingDefinition.editable).map fun definition =>
    (definition.key, definition.setValue config)

theorem exists_definition {key : ConfigKey} (hkey : key ∈ editableKeys) :
    ∃ definition ∈ SETTINGS_ALLOWLIST, definition.editable = true ∧ definition.key = key := by
  obtain ⟨definition, hfilter, hkey⟩ := List.mem_map.mp hkey
  obtain ⟨hmem, heditable⟩ := List.mem_filter.mp hfilter
  exact ⟨definition, hmem, heditable, hkey⟩

theorem settingsOf_eq_iff {left right : AppConfig} :
    settingsOf left = settingsOf right ↔ ∀ definition ∈ SETTINGS_ALLOWLIST,
      definition.editable = true → definition.setValue left = definition.setValue right := by
  simp only [settingsOf, List.map_inj_left, List.mem_filter, Prod.mk.injEq, true_and, and_imp]

theorem isEditable_iff (key : ConfigKey) : isEditable key.text = true ↔ key ∈ editableKeys := by
  have hall : ∀ key ∈ ConfigKey.all, isEditable key.text = true ↔ key ∈ editableKeys := by
    decide +kernel
  exact hall key key.mem_all

theorem allowlist_keys_nodup :
    (SETTINGS_ALLOWLIST.map fun definition => definition.key.text).Nodup := by
  decide +kernel

/-- No saved value reaches a variable that a rule across variables reads. -/
theorem filterStartupOverrides_fixed (table : SettingsTable) :
    ∀ key ∈ fixedKeys, filterStartupOverrides table key = none := by
  intro key hkey
  have hall : ∀ key ∈ fixedKeys, isEditable key.text = false := by
    decide +kernel
  rw [filterStartupOverrides, hall key hkey, if_neg Bool.false_ne_true]

/- Spelling values -/

/-- The text of a setting's value, as the editor reads it off the running configuration.
Variables that the editor does not show have none. -/
def spell : (key : ConfigKey) → key.Value → Option Text
  | .logLevel, level => some (ConfigLogLevel.text level).toList
  | .cookieSecure, value | .enableExecConsole, value | .enableHsts, value
  | .mcpEnabled, value => some (boolToString value)
  | .sessionAbsoluteTtlHours, hours | .sessionIdleTtlHours, hours =>
      some (toText (PositiveNumber.value hours))
  | .rspamdUrl, url => some url
  | .cookieSecret, secret | .rspamdPassword, secret => secret
  | _, _ => none

/-- A property of the editable settings, one after the other. -/
theorem forall_editable {property : SettingDefinition → Prop}
    (hall : List.Forall property (SETTINGS_ALLOWLIST.drop 2)) {definition : SettingDefinition}
    (hmem : definition ∈ SETTINGS_ALLOWLIST) (heditable : definition.editable = true) :
    property definition := by
  have hdrop : SETTINGS_ALLOWLIST.filter SettingDefinition.editable =
      SETTINGS_ALLOWLIST.drop 2 := rfl
  have hmem : definition ∈ SETTINGS_ALLOWLIST.drop 2 := by
    rw [← hdrop]
    exact List.mem_filter.mpr ⟨hmem, heditable⟩
  exact List.forall_iff_forall_mem.mp hall definition hmem

theorem setValue_configOf (secrets : EphemeralSecrets) (warnings : List String) (data : RawEnv)
    {definition : SettingDefinition} (hmem : definition ∈ SETTINGS_ALLOWLIST)
    (heditable : definition.editable = true) :
    definition.setValue (configOf secrets warnings data) =
      spell definition.key (data definition.key) := by
  refine @forall_editable (fun definition => definition.setValue (configOf secrets warnings data) =
    spell definition.key (data definition.key)) ?_ definition hmem heditable
  refine ⟨rfl, rfl, rfl, rfl, rfl, rfl, rfl, rfl, rfl, ?_⟩
  have hsecret : ∀ secret : Option Text, (if ConfigKey.cookieSecret = .cookieSecret ∧
      secret.isNone = true then none else some (secret.getD secrets.cookieSecret.val)) =
        secret := by
    intro secret
    cases secret with
    | none => rfl
    | some secret => rfl
  exact hsecret (data .cookieSecret)

theorem trim_trim (text : List Char) : trim (trim text) = trim text := by
  have htrim : ∀ text, trim text = (text.dropWhile isSpace).rdropWhile isSpace := fun _ => rfl
  rw [htrim, htrim]
  generalize hfront : text.dropWhile isSpace = front
  have hkept : (front.rdropWhile isSpace).dropWhile isSpace = front.rdropWhile isSpace := by
    rw [List.dropWhile_eq_self_iff]
    intro hpos
    have hfront' := front.rdropWhile_prefix isSpace
    rw [hfront'.getElem hpos]
    have hself : front.dropWhile isSpace = front := by
      rw [← hfront]
      exact List.dropWhile_idempotent _ _
    exact List.dropWhile_eq_self_iff.mp hself (Nat.lt_of_lt_of_le hpos hfront'.length_le)
  rw [hkept, List.rdropWhile_idempotent]

/-- The text of a value is read as that value. -/
def Respells (validators : Validators) (key : ConfigKey) (text : Text) : Prop :=
  ∃ value, parseField validators key (some text) = .ok value ∧ spell key value = some text

theorem present_eq_some_iff {raw : Option Text} {text : Text} :
    present raw = some text ↔ raw = some text ∧ text ≠ [] := by
  rw [present, Option.filter_eq_some_iff]
  simp

theorem respells_boolean (value : Bool) (defaultValue : Bool) :
    booleanVar defaultValue (some (boolToString value)) = .ok value := by
  cases value with
  | true => rfl
  | false => rfl

theorem respells_logLevel (level : ConfigLogLevel) (defaultValue : ConfigLogLevel)
    (message : String) :
    wordVar ConfigLogLevel.all ConfigLogLevel.text defaultValue message
      (some level.text.toList) = .ok level := by
  cases level with
  | _ => rfl

theorem respells_hours (hours defaultValue : PositiveNumber) :
    positiveNumberVar defaultValue (some (toText hours.value)) = .ok hours := by
  obtain ⟨value, hpositive, hdouble⟩ := hours
  have hread := toNumber_toText hpositive hdouble
  obtain ⟨c, rest, htext, -⟩ := @layOut_head (fewestDigits value).1 (fewestDigits value).2
  have hpresent : present (some (toText value)) = some (toText value) := by
    refine present_eq_some_iff.mpr ⟨rfl, ?_⟩
    rw [toText, htext]
    exact List.cons_ne_nil c rest
  rw [positiveNumberVar, hpresent]
  dsimp only
  split
  · rename_i hnan
    rw [hread] at hnan
    cases hnan
  · rename_i hinfinity
    rw [hread] at hinfinity
    cases hinfinity
  · rename_i found hfinite
    obtain rfl : value = found := by
      rw [hread] at hfinite
      exact JsNumber.finite.inj hfinite
    rw [dif_pos hpositive]

theorem respells_url {validators : Validators} {defaultValue : Text} {raw : Option Text} {url : Text}
    (hparse : urlVar validators defaultValue raw = .ok url) (other : Text) :
    urlVar validators other (some url) = .ok url := by
  rw [urlVar] at hparse
  split at hparse
  · rename_i hvalid
    obtain rfl := Except.ok.inj hparse
    have hne : trim ((present raw).getD defaultValue) ≠ [] := by
      intro hnil
      rw [hnil, validators.isUrl_nil] at hvalid
      cases hvalid
    rw [urlVar, present_eq_some_iff.mpr ⟨rfl, hne⟩, Option.getD_some, trim_trim]
    exact if_pos hvalid
  · cases hparse

theorem respells_secret {raw : Option Text} {text : Text}
    (hparse : optionalStringVar raw = .ok (some text)) :
    optionalStringVar (some text) = .ok (some text) := by
  obtain ⟨-, hne⟩ := present_eq_some_iff.mp (Except.ok.inj hparse)
  rw [optionalStringVar, present_eq_some_iff.mpr ⟨rfl, hne⟩]

/-- What a setting was read as is what its text is read as. The panel shows the spelled value,
and saving it unchanged must change nothing. -/
theorem respells_of_parsed {validators : Validators} {key : ConfigKey} (hkey : key ∈ editableKeys)
    {raw : Option Text} {value : key.Value} (hparse : parseField validators key raw = .ok value)
    {text : Text} (hspell : spell key value = some text) : Respells validators key text := by
  cases key with
  | logLevel =>
      obtain rfl := Option.some.inj hspell
      exact ⟨value, respells_logLevel value .info _, rfl⟩
  | enableExecConsole =>
      obtain rfl := Option.some.inj hspell
      exact ⟨value, respells_boolean value false, rfl⟩
  | mcpEnabled =>
      obtain rfl := Option.some.inj hspell
      exact ⟨value, respells_boolean value true, rfl⟩
  | enableHsts =>
      obtain rfl := Option.some.inj hspell
      exact ⟨value, respells_boolean value true, rfl⟩
  | cookieSecure =>
      obtain rfl := Option.some.inj hspell
      exact ⟨value, respells_boolean value true, rfl⟩
  | sessionAbsoluteTtlHours =>
      obtain rfl := Option.some.inj hspell
      exact ⟨value, respells_hours value ⟨12, twelve_pos, ofRat_twelve⟩, rfl⟩
  | sessionIdleTtlHours =>
      obtain rfl := Option.some.inj hspell
      exact ⟨value, respells_hours value ⟨2, by norm_num, ofRat_two⟩, rfl⟩
  | rspamdUrl =>
      obtain rfl := Option.some.inj hspell
      exact ⟨value, respells_url hparse "http://mailserver:11334".toList, rfl⟩
  | rspamdPassword =>
      obtain rfl : value = some text := hspell
      exact ⟨some text, respells_secret hparse, rfl⟩
  | cookieSecret =>
      obtain rfl : value = some text := hspell
      exact ⟨some text, respells_secret hparse, rfl⟩
  | _ => exact absurd hkey (by decide)

theorem getValue_cookieSecret {definition : SettingDefinition}
    (hmem : definition ∈ SETTINGS_ALLOWLIST) (heditable : definition.editable = true)
    (hkey : definition.key = .cookieSecret) {config : AppConfig} :
    definition.getValue config = some config.cookieSecret := by
  refine @forall_editable (fun definition => definition.key = .cookieSecret →
    definition.getValue config = some config.cookieSecret) ?_ definition hmem heditable hkey
  exact ⟨nofun, nofun, nofun, nofun, nofun, nofun, nofun, nofun, nofun, fun _ => rfl⟩

theorem getValue_rspamdPassword {definition : SettingDefinition}
    (hmem : definition ∈ SETTINGS_ALLOWLIST) (heditable : definition.editable = true)
    (hkey : definition.key = .rspamdPassword) {config : AppConfig} :
    definition.getValue config = config.rspamdPassword ∧
      definition.setValue config = config.rspamdPassword := by
  refine @forall_editable (fun definition => definition.key = .rspamdPassword →
    definition.getValue config = config.rspamdPassword ∧
      definition.setValue config = config.rspamdPassword) ?_ definition hmem heditable hkey
  exact ⟨nofun, nofun, nofun, nofun, nofun, nofun, nofun, nofun, fun _ => ⟨rfl, rfl⟩, nofun⟩

/-- Only the password of the spam filter may have no value. -/
theorem getValue_ne_none {definition : SettingDefinition}
    (hmem : definition ∈ SETTINGS_ALLOWLIST) (heditable : definition.editable = true)
    (hkey : definition.key ≠ .rspamdPassword) {config : AppConfig} :
    definition.getValue config ≠ none := by
  refine @forall_editable (fun definition => definition.key ≠ .rspamdPassword →
    definition.getValue config ≠ none) ?_ definition hmem heditable hkey
  exact ⟨fun _ => nofun, fun _ => nofun, fun _ => nofun, fun _ => nofun, fun _ => nofun,
    fun _ => nofun, fun _ => nofun, fun _ => nofun, fun h => absurd rfl h, fun _ => nofun⟩

/-- The text that the running panel has for a setting is read as just that. -/
theorem respells_getValue {validators : Validators} {env : ProcessEnv} {data : RawEnv}
    (hparse : ∀ key, parseField validators key (env key) = .ok (data key))
    (secrets : EphemeralSecrets) (warnings : List String) {definition : SettingDefinition}
    (hmem : definition ∈ SETTINGS_ALLOWLIST) (heditable : definition.editable = true)
    {text : Text} (hvalue : definition.getValue (configOf secrets warnings data) = some text) :
    Respells validators definition.key text := by
  have hkey : definition.key ∈ editableKeys :=
    List.mem_map_of_mem (List.mem_filter.mpr ⟨hmem, heditable⟩)
  have hset := setValue_configOf secrets warnings data hmem heditable
  by_cases hgenerated : definition.key = .cookieSecret ∧
      (configOf secrets warnings data).cookieSecretIsEphemeral = true
  · obtain ⟨hcookie, hephemeral⟩ := hgenerated
    have hnone : data .cookieSecret = none := Option.isNone_iff_eq_none.mp hephemeral
    rw [getValue_cookieSecret hmem heditable hcookie, Option.some.injEq] at hvalue
    have htext : text = secrets.cookieSecret.val := by
      rw [← hvalue, configOf, hnone]
      rfl
    have hne : text ≠ [] := by
      rw [htext, ← List.length_pos_iff, secrets.cookieSecret.property]
      decide
    rw [hcookie]
    refine ⟨some text, ?_, rfl⟩
    exact congrArg Except.ok (present_eq_some_iff.mpr ⟨rfl, hne⟩)
  · rw [SettingDefinition.setValue, if_neg hgenerated, hvalue] at hset
    exact respells_of_parsed hkey (hparse definition.key) hset.symm

/- Starting -/

theorem get_toOption {α : Type} {result : Parsed α} {value : α} (hsome : result.toOption.isSome = true) :
    result.toOption.get hsome = value ↔ result = .ok value := by
  cases result with
  | error issues => cases hsome
  | ok found => exact Except.ok.injEq found value ▸ Iff.rfl

theorem safeParse_ok_iff {validators : Validators} {env : ProcessEnv} {data : RawEnv} :
    safeParse validators env = .ok data ↔
      (∀ key, parseField validators key (env key) = .ok (data key)) ∧
        crossIssues (fieldsOf validators env) = [] := by
  constructor
  · intro hparse
    have hnone := safeParse_ok hparse
    refine ⟨?_, (issuesOf_eq_nil_iff.mp hnone).2⟩
    intro key
    rw [safeParse, dif_pos hnone] at hparse
    exact (get_toOption _).mp (congrFun (Except.ok.inj hparse) key)
  · rintro ⟨hfields, hcross⟩
    have hsome : ∀ key, (fieldsOf validators env key).toOption.isSome = true := by
      intro key
      rw [fieldsOf, hfields key]
      rfl
    have hnone : issuesOf (fieldsOf validators env) = [] := issuesOf_eq_nil_iff.mpr ⟨hsome, hcross⟩
    rw [safeParse, dif_pos hnone, Except.ok.injEq]
    funext key
    exact (get_toOption _).mpr (hfields key)

/-- A start reads every variable, under the saved values that it honours, and the checks between
variables pass. It is the success of a start, said without the code that computes it. -/
structure Starts (validators : Validators) (env : ProcessEnv) (table : SettingsTable)
    (data : RawEnv) : Prop where
  parsed : ∀ key, parseField validators key
    (effective validators env (filterStartupOverrides table) key) = .ok (data key)
  cross : crossIssues
    (fieldsOf validators (effective validators env (filterStartupOverrides table))) = []

theorem nextStart_ok_iff {validators : Validators} {secrets : EphemeralSecrets} {env : ProcessEnv}
    {table : SettingsTable} {config : AppConfig} :
    nextStart validators secrets env table = .ok config ↔
      ∃ data, Starts validators env table data ∧
        config = configOf secrets
          (resolveEffectiveEnv validators env (filterStartupOverrides table)).warnings data := by
  rw [nextStart, loadConfig_ok_iff (filterStartupOverrides_fixed table)]
  refine exists_congr fun data => and_congr_left fun _ => ?_
  rw [safeParse_ok_iff]
  exact ⟨fun h => ⟨h.1, h.2⟩, fun h => ⟨h.parsed, h.cross⟩⟩

/-- The saved values have the running panel's value wherever it has one. -/
def Recorded (running : AppConfig) (table : SettingsTable) : Prop :=
  ∀ definition ∈ SETTINGS_ALLOWLIST, definition.editable = true →
    ∀ text ∈ definition.getValue running, table definition.key.text = some text

/-- The password that a start reads; any text is taken. -/
def loadedPassword (env : ProcessEnv) (table : SettingsTable) : Option Text :=
  present ((table ConfigKey.rspamdPassword.text).or (env .rspamdPassword))

section Recorded

variable {validators : Validators} {env : ProcessEnv} {started table : SettingsTable}
  {data : RawEnv} {secrets : EphemeralSecrets} {warnings : List String}

theorem effective_of_not_editable {key : ConfigKey} (hkey : key ∉ editableKeys)
    (table : SettingsTable) :
    effective validators env (filterStartupOverrides table) key = env key := by
  rw [effective, filterStartupOverrides, if_neg fun h => hkey ((isEditable_iff key).mp h)]

theorem effective_of_accepted {key : ConfigKey} (hkey : key ∈ editableKeys) {text : Text}
    (htable : table key.text = some text) (haccepts : accepts validators env key text = true) :
    effective validators env (filterStartupOverrides table) key = some text := by
  rw [effective, filterStartupOverrides, if_pos ((isEditable_iff key).mpr hkey), htable]
  exact if_pos haccepts

theorem parsed_password (table : SettingsTable) :
    parseField validators .rspamdPassword
        (effective validators env (filterStartupOverrides table) .rspamdPassword) =
      .ok (loadedPassword env table) := by
  have heffective : effective validators env (filterStartupOverrides table) .rspamdPassword =
      (table ConfigKey.rspamdPassword.text).or (env .rspamdPassword) := by
    have hkey : .rspamdPassword ∈ editableKeys := by
      decide
    cases htable : table ConfigKey.rspamdPassword.text with
    | none =>
        rw [effective, filterStartupOverrides, if_pos ((isEditable_iff _).mpr hkey), htable]
        rfl
    | some text => rw [effective_of_accepted hkey htable rfl, Option.some_or]
  rw [heffective]
  rfl

theorem Starts.password (hstarts : Starts validators env table data) :
    data .rspamdPassword = loadedPassword env table :=
  Except.ok.inj ((hstarts.parsed .rspamdPassword).symm.trans (parsed_password table))

/-- In production, a panel that started has a cookie secret that is long enough. -/
theorem Starts.cookie_of_production (hstarts : Starts validators env started data)
    (hproduction : isProduction (parseField validators .appMode (env .appMode)) = true) :
    ∃ secret : Text, data .cookieSecret = some secret ∧ secret ≠ [] ∧
      secretIssues .cookieSecret (some secret) = [] := by
  have happMode := @effective_of_not_editable validators env .appMode (by decide) started
  have hcookie := hstarts.parsed .cookieSecret
  have hcross := hstarts.cross
  simp only [crossIssues, fieldsOf, happMode, hproduction, if_true, List.append_eq_nil_iff,
    hcookie, secretOf] at hcross
  generalize hdata : (data .cookieSecret : Option Text) = secret at hcross hcookie ⊢
  cases secret with
  | none => exact absurd hcross.2.1 (List.cons_ne_nil _ _)
  | some secret =>
      have hparsed : optionalStringVar (effective validators env
          (filterStartupOverrides started) .cookieSecret) = .ok (some secret) := hcookie
      exact ⟨secret, rfl, (present_eq_some_iff.mp (Except.ok.inj hparsed)).2, hcross.2.1⟩

/-- What the running panel has is taken by the next start, for every setting that can be edited.
A rollback only stores such values. -/
theorem Starts.accepts_getValue (hstarts : Starts validators env started data)
    {definition : SettingDefinition} (hmem : definition ∈ SETTINGS_ALLOWLIST)
    (heditable : definition.editable = true) {text : Text}
    (hvalue : definition.getValue (configOf secrets warnings data) = some text) :
    accepts validators env definition.key text = true := by
  obtain ⟨value, hparse, -⟩ :=
    respells_getValue hstarts.parsed secrets warnings hmem heditable hvalue
  rw [accepts, hparse]
  by_cases hcookie : definition.key = .cookieSecret ∧
      isProduction (parseField validators .appMode (env .appMode)) = true
  · obtain ⟨secret, hdata, hne, hissues⟩ := hstarts.cookie_of_production hcookie.2
    rw [getValue_cookieSecret hmem heditable hcookie.1, Option.some.injEq] at hvalue
    have htext : text = secret := by
      rw [← hvalue, configOf, hdata]
      rfl
    rw [htext, present_eq_some_iff.mpr ⟨rfl, hne⟩, hissues]
    simp [Except.toOption]
  · have hnot : (decide (definition.key = .cookieSecret) &&
        isProduction (parseField validators .appMode (env .appMode))) = false := by
      rw [Bool.and_eq_false_iff]
      by_cases hkey : definition.key = .cookieSecret
      · exact Or.inr (Bool.eq_false_iff.mpr fun h => hcookie ⟨hkey, h⟩)
      · exact Or.inl (decide_eq_false hkey)
    rw [hnot]
    rfl

/-- Every variable is read again, as the running panel has it: from the recorded text where
there is one, and from the environment otherwise. -/
theorem Starts.reread (hstarts : Starts validators env started data)
    (hrecorded : Recorded (configOf secrets warnings data) table) (key : ConfigKey) :
    ∃ value : key.Value,
      parseField validators key (effective validators env (filterStartupOverrides table) key) =
        .ok value ∧
      (key ∉ editableKeys → value = data key) ∧
      ∀ definition ∈ SETTINGS_ALLOWLIST, definition.editable = true → definition.key = key →
        spell key value = (definition.getValue (configOf secrets warnings data)).or
          (loadedPassword env table) := by
  by_cases hpassword : key = .rspamdPassword
  · subst hpassword
    refine ⟨loadedPassword env table, parsed_password table, fun h => absurd (by decide) h, ?_⟩
    intro definition hmem heditable hkey
    change loadedPassword env table = _
    cases hvalue : definition.getValue (configOf secrets warnings data) with
    | none => rfl
    | some text =>
        have htable := hrecorded definition hmem heditable text hvalue
        have hrespells := respells_getValue hstarts.parsed secrets warnings hmem heditable hvalue
        rw [hkey] at htable hrespells
        obtain ⟨value, hparse, hspell⟩ := hrespells
        obtain rfl : value = some text := hspell
        rw [loadedPassword, htable, Option.some_or, Option.some_or]
        exact Except.ok.inj hparse
  by_cases hkey : key ∈ editableKeys
  · obtain ⟨definition, hmem, heditable, rfl⟩ := exists_definition hkey
    obtain ⟨text, hvalue⟩ := Option.ne_none_iff_exists'.mp
      (@getValue_ne_none definition hmem heditable hpassword (configOf secrets warnings data))
    obtain ⟨value, hparse, hspell⟩ :=
      respells_getValue hstarts.parsed secrets warnings hmem heditable hvalue
    refine ⟨value, ?_, fun h => absurd hkey h, ?_⟩
    · rw [effective_of_accepted hkey (hrecorded definition hmem heditable text hvalue)
        (hstarts.accepts_getValue hmem heditable hvalue)]
      exact hparse
    · intro other hother _ hsame
      obtain rfl := List.inj_on_of_nodup_map allowlist_keys_nodup hother hmem
        (congrArg ConfigKey.text hsame)
      rw [hvalue, Option.some_or]
      exact hspell
  · refine ⟨data key, ?_, fun _ => rfl, ?_⟩
    · have hparsed := hstarts.parsed key
      rw [effective_of_not_editable hkey] at hparsed ⊢
      exact hparsed
    · intro definition hmem heditable hsame
      refine absurd ?_ hkey
      rw [← hsame]
      exact List.mem_map_of_mem (List.mem_filter.mpr ⟨hmem, heditable⟩)

/-- A start with the running panel's values recorded ends with them, and with the password
that is saved or in the environment where the panel has none. -/
theorem Starts.restart (hstarts : Starts validators env started data)
    (hrecorded : Recorded (configOf secrets warnings data) table) :
    ∃ data', Starts validators env table data' ∧
      ∀ definition ∈ SETTINGS_ALLOWLIST, definition.editable = true →
        spell definition.key (data' definition.key) =
          (definition.getValue (configOf secrets warnings data)).or
            (loadedPassword env table) := by
  have hread := hstarts.reread hrecorded
  choose data' hparsed hkept hspelled using hread
  refine ⟨data', ⟨hparsed, ?_⟩, fun definition hmem heditable =>
    hspelled definition.key definition hmem heditable rfl⟩
  have hsame : ∀ key, key ∉ editableKeys →
      fieldsOf validators (effective validators env (filterStartupOverrides table)) key =
        fieldsOf validators (effective validators env (filterStartupOverrides started)) key := by
    intro key hkey
    rw [fieldsOf, fieldsOf, effective_of_not_editable hkey, effective_of_not_editable hkey]
  have hcross := hstarts.cross
  rw [crossIssues] at hcross ⊢
  rw [hsame .bootstrapAdminEmail (by decide), hsame .bootstrapAdminPassword (by decide),
    hsame .appMode (by decide), hsame .brokerSharedSecret (by decide)]
  by_cases hproduction : isProduction (fieldsOf validators
      (effective validators env (filterStartupOverrides started)) .appMode) = true
  · have happMode := hproduction
    rw [fieldsOf, effective_of_not_editable (by decide)] at happMode
    obtain ⟨secret, hdata, -, -⟩ := hstarts.cookie_of_production happMode
    obtain ⟨definition, hmem, heditable, hkey⟩ :=
      exists_definition (by decide : ConfigKey.cookieSecret ∈ editableKeys)
    have hspell := hspelled .cookieSecret definition hmem heditable hkey
    have hcookie : data' .cookieSecret = data .cookieSecret := by
      rw [getValue_cookieSecret hmem heditable hkey, Option.some_or, configOf, hdata] at hspell
      rw [hdata]
      exact hspell
    have hfields : fieldsOf validators (effective validators env (filterStartupOverrides table))
        .cookieSecret = fieldsOf validators
          (effective validators env (filterStartupOverrides started)) .cookieSecret := by
      rw [fieldsOf, fieldsOf, hparsed .cookieSecret, hstarts.parsed .cookieSecret, hcookie]
    rw [hfields]
    exact hcross
  · rw [if_neg hproduction] at hcross ⊢
    exact hcross

end Recorded

end Config

end MailPanel

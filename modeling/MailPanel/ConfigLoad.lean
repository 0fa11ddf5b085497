import Mathlib.Logic.Function.Basic
import MailPanel.ConfigSchema

/-
Loading the configuration: saved settings are folded over the environment, and those that
would keep the panel from starting are left out, one after the other.
-/

namespace MailPanel

namespace Config

open ScriptText NumberText

/- Folding -/

/-- Settings to be folded over the environment. -/
abbrev Overrides := ConfigKey → Option Text

structure Merge where
  merged : ProcessEnv
  /-- The settings that have not been blamed. -/
  active : List ConfigKey
  warnings : List String

section Resolve

variable (validators : Validators) (env : ProcessEnv) (overrides : Overrides)

/-- The first problem that a setting is to blame for. -/
def blamed (m : Merge) (issues : List Issue) : Option Issue :=
  issues.find? fun issue =>
    issue.path ∈ m.active ∧ m.merged issue.path = overrides issue.path

/-- A setting gives way to the environment: its value is the environment's again, it is no
longer in force, and a warning says why. -/
def Merge.without (m : Merge) (issue : Issue) : Merge where
  merged := Function.update m.merged issue.path (env issue.path)
  active := m.active.erase issue.path
  warnings := m.warnings ++
    ["Ignoring the saved override for " ++ issue.path.text ++ " (" ++ issue.message ++ "); " ++
      "using the environment value instead. Fix and re-save it in the settings editor."]

def revert : Nat → Merge → Merge
  | 0, m => m
  | attempts + 1, m =>
      match safeParse validators m.merged with
      | .ok _ => m
      | .error issues =>
          match blamed overrides m issues with
          | none => m
          | some issue => revert attempts (m.without env issue)

def resolveEffectiveEnv : Merge :=
  let active := ConfigKey.all.filter fun key => (overrides key).isSome
  revert validators env overrides active.length
    ⟨fun key => (overrides key).or (env key), active, []⟩

end Resolve

/- Loading -/

/-- 32 random bytes in hexadecimal. -/
abbrev GeneratedSecret := {text : Text // text.length = 64}

structure EphemeralSecrets where
  cookieSecret : GeneratedSecret
  brokerSharedSecret : GeneratedSecret

/-- The configuration that a start comes to, once every variable has been read and checked. Only
the fields that the modelled code reads are kept. -/
structure AppConfig where
  logLevel : ConfigLogLevel
  cookieSecret : Text
  cookieSecretIsEphemeral : Bool
  cookieSecure : Bool
  absoluteTtlHours : PositiveNumber
  idleTtlHours : PositiveNumber
  sharedSecret : Text
  containerName : Text
  rspamdUrl : Text
  rspamdPassword : Option Text
  enableExecConsole : Bool
  enableHsts : Bool
  mcpEnabled : Bool
  warnings : List String
deriving DecidableEq

def ephemeralCookieWarning : String :=
  "COOKIE_SECRET is not set; using a random value generated for this process only. " ++
    "Every restart invalidates existing sessions. Set COOKIE_SECRET for stable sessions " ++
    "(openssl rand -hex 32)."

def ephemeralBrokerWarning : String :=
  "BROKER_SHARED_SECRET is not set; using a random value generated for this process only. " ++
    "It will not match a real broker. Set BROKER_SHARED_SECRET before enabling " ++
    "DANGEROUSLY_USE_REAL_DOCKER (openssl rand -hex 32)."

def ignoredDockerWarning : String :=
  "DANGEROUSLY_USE_REAL_DOCKER=true is set but ignored in production; real drivers are always " ++
    "used there."

def warningsOf (data : RawEnv) : List String :=
  let cookieSecret : Option Text := data .cookieSecret
  let sharedSecret : Option Text := data .brokerSharedSecret
  let useRealDocker : Bool := data .dangerouslyUseRealDocker
  let appMode : AppMode := data .appMode
  (if cookieSecret.isNone then [ephemeralCookieWarning] else []) ++
    (if sharedSecret.isNone then [ephemeralBrokerWarning] else []) ++
    if appMode = .production && useRealDocker then [ignoredDockerWarning] else []

/-- The configuration that the variables come to once they are parsed. Secrets that are not set
are drawn for this start only, and each such draw has its warning. -/
def configOf (secrets : EphemeralSecrets) (warnings : List String) (data : RawEnv) :
    AppConfig where
  logLevel := data .logLevel
  cookieSecret := Option.getD (data .cookieSecret) secrets.cookieSecret.val
  cookieSecretIsEphemeral := Option.isNone (data .cookieSecret)
  cookieSecure := data .cookieSecure
  absoluteTtlHours := data .sessionAbsoluteTtlHours
  idleTtlHours := data .sessionIdleTtlHours
  sharedSecret := Option.getD (data .brokerSharedSecret) secrets.brokerSharedSecret.val
  containerName := data .dmsContainerName
  rspamdUrl := data .rspamdUrl
  rspamdPassword := data .rspamdPassword
  enableExecConsole := data .enableExecConsole
  enableHsts := data .enableHsts
  mcpEnabled := data .mcpEnabled
  warnings := warnings ++ warningsOf data

/-- The problems of a `ConfigError`. -/
def formatZodIssues (issues : List Issue) : List String :=
  issues.map fun issue => issue.path.text ++ ": " ++ issue.message

def loadConfig (validators : Validators) (secrets : EphemeralSecrets) (env : ProcessEnv)
    (overrides : Overrides) : Except (List String) AppConfig :=
  let resolved := resolveEffectiveEnv validators env overrides
  match safeParse validators resolved.merged with
  | .error issues => .error (formatZodIssues issues)
  | .ok data => .ok (configOf secrets resolved.warnings data)

/- What folding comes to -/

/-- The variables that a rule across variables reads, other than the cookie secret. -/
def fixedKeys : List ConfigKey :=
  [.appMode, .bootstrapAdminEmail, .bootstrapAdminPassword, .brokerSharedSecret]

section Effective

variable (validators : Validators) (env : ProcessEnv) (overrides : Overrides)

/-- Whether the environment would take this text for the variable. -/
def accepts (key : ConfigKey) (value : Text) : Bool :=
  (parseField validators key (some value)).toOption.isSome &&
    !(key = .cookieSecret && isProduction (parseField validators .appMode (env .appMode)) &&
      secretIssues .cookieSecret (present (some value)) ≠ [])

/-- The environment under the settings that it would take. -/
def effective : ProcessEnv := fun key =>
  match overrides key with
  | none => env key
  | some value => if accepts validators env key value then some value else env key

end Effective

section Spec

variable {validators : Validators} {env : ProcessEnv} {overrides : Overrides} {m : Merge}

/-- Where the settings that are left lie over the environment, and every setting that is
gone would not have been taken. -/
structure Merge.Sound (validators : Validators) (env : ProcessEnv) (overrides : Overrides)
    (m : Merge) : Prop where
  overlaid : ∀ key, m.merged key = if key ∈ m.active then overrides key else env key
  active : ∀ key ∈ m.active, (overrides key).isSome = true
  dropped : ∀ key value, key ∉ m.active → overrides key = some value →
    accepts validators env key value = false
  nodup : m.active.Nodup

theorem mem_crossIssues {fields : Fields} {issue : Issue} :
    issue ∈ crossIssues fields ↔
      issue ∈ pairIssues (fields .bootstrapAdminEmail) (fields .bootstrapAdminPassword) ∨
        isProduction (fields .appMode) = true ∧
          (issue ∈ secretIssues .cookieSecret (secretOf (fields .cookieSecret)) ∨
            issue ∈ secretIssues .brokerSharedSecret
              (secretOf (fields .brokerSharedSecret))) := by
  rw [crossIssues, List.mem_append]
  refine or_congr_right ?_
  split
  · rename_i hproduction
    rw [List.mem_append, and_iff_right hproduction]
  · rename_i hproduction
    simp [hproduction]

theorem path_of_mem_secretIssues {key : ConfigKey} {secret : Option Text} {issue : Issue}
    (hissue : issue ∈ secretIssues key secret) : issue.path = key := by
  simp only [secretIssues] at hissue
  split at hissue
  · rw [List.mem_singleton.mp hissue]
  · split at hissue
    · rw [List.mem_singleton.mp hissue]
    · cases hissue

theorem path_of_mem_pairIssues {email password : Parsed (Option Text)} {issue : Issue}
    (hissue : issue ∈ pairIssues email password) : issue.path ∈ fixedKeys := by
  rw [pairIssues] at hissue
  split at hissue
  · rw [List.mem_singleton.mp hissue]
    simp only
    split
    · decide
    · decide
  · cases hissue

/-- A problem is one of a value, or one across variables. -/
theorem mem_issuesOf {fields : Fields} {issue : Issue} (hissue : issue ∈ issuesOf fields) :
    (fields issue.path).toOption.isSome = false ∨ issue ∈ crossIssues fields := by
  rw [issuesOf] at hissue
  rcases List.mem_append.mp hissue with hown | hcross
  · obtain ⟨key, -, hkey⟩ := List.mem_flatMap.mp hown
    obtain ⟨found, hfound, rfl⟩ := List.mem_map.mp hkey
    refine Or.inl ?_
    rw [← Bool.not_eq_true, ← fieldIssues_eq_nil_iff]
    exact List.ne_nil_of_mem hfound
  · split at hcross
    · cases hcross
    · exact Or.inr hcross

theorem safeParse_ok {data : RawEnv} (hparse : safeParse validators env = .ok data) :
    issuesOf (fieldsOf validators env) = [] := by
  rw [safeParse] at hparse
  split at hparse
  · rename_i hnone
    exact hnone
  · cases hparse

theorem safeParse_error {issues : List Issue}
    (hparse : safeParse validators env = .error issues) :
    issues = issuesOf (fieldsOf validators env) ∧ issues ≠ [] := by
  rw [safeParse] at hparse
  split at hparse
  · cases hparse
  · rename_i hsome
    injection hparse with hissues
    rw [← hissues]
    exact ⟨rfl, hsome⟩

/-- A variable that no setting is left for is as it will be. -/
theorem Merge.Sound.merged_eq (hsound : m.Sound validators env overrides) {key : ConfigKey}
    (hkey : key ∉ m.active) : m.merged key = effective validators env overrides key := by
  rw [hsound.overlaid, if_neg hkey, effective]
  cases hoverride : overrides key with
  | none => rfl
  | some value =>
      simp only [hsound.dropped key value hkey hoverride, Bool.false_eq_true, ↓reduceIte]

section Fixed

variable (hfixed : ∀ key ∈ fixedKeys, overrides key = none)

include hfixed

theorem Merge.Sound.fixed_notMem (hsound : m.Sound validators env overrides) {key : ConfigKey}
    (hkey : key ∈ fixedKeys) : key ∉ m.active := by
  intro hactive
  have hsome := hsound.active key hactive
  rw [hfixed key hkey] at hsome
  cases hsome

/-- A setting that is blamed would not have been taken: the value that its own reader refuses is
refused in the merge as well. -/
theorem Merge.Sound.blame (hsound : m.Sound validators env overrides) {issue : Issue}
    (hissue : issue ∈ issuesOf (fieldsOf validators m.merged))
    (hactive : issue.path ∈ m.active) {value : Text}
    (hvalue : overrides issue.path = some value) :
    accepts validators env issue.path value = false := by
  have hmerged : m.merged issue.path = some value := by
    rw [hsound.overlaid, if_pos hactive, hvalue]
  rcases mem_issuesOf hissue with hfield | hcross
  · rw [fieldsOf, hmerged] at hfield
    rw [accepts, hfield, Bool.false_and]
  · have hnotFixed : issue.path ∉ fixedKeys :=
      fun hkey => hsound.fixed_notMem hfixed hkey hactive
    have happMode : m.merged .appMode = env .appMode := by
      rw [hsound.overlaid, if_neg (hsound.fixed_notMem hfixed (by decide))]
    rcases mem_crossIssues.mp hcross with hpair | ⟨hproduction, hcookie | hbroker⟩
    · exact absurd (path_of_mem_pairIssues hpair) hnotFixed
    · have hpath := path_of_mem_secretIssues hcookie
      rw [hpath] at hmerged ⊢
      rw [fieldsOf, happMode] at hproduction
      rw [fieldsOf, hmerged] at hcookie
      have hissues : secretIssues .cookieSecret (present (some value)) ≠ [] :=
        List.ne_nil_of_mem hcookie
      simp [accepts, hproduction, hissues]
    · have hpath := path_of_mem_secretIssues hbroker
      rw [hpath] at hnotFixed
      exact absurd (by decide) hnotFixed

/-- A problem that no setting is to blame for stays: without any saved value the start would
fail over the same variable. -/
theorem Merge.Sound.innocent (hsound : m.Sound validators env overrides) {issue : Issue}
    (hissue : issue ∈ issuesOf (fieldsOf validators m.merged))
    (hactive : issue.path ∉ m.active) :
    issuesOf (fieldsOf validators (effective validators env overrides)) ≠ [] := by
  intro hnone
  obtain ⟨hfields, hcrossNone⟩ := issuesOf_eq_nil_iff.mp hnone
  have hagree : ∀ key, key ∉ m.active → fieldsOf validators m.merged key =
      fieldsOf validators (effective validators env overrides) key := by
    intro key hkey
    rw [fieldsOf, fieldsOf, hsound.merged_eq hkey]
  have hagreeFixed : ∀ key ∈ fixedKeys, fieldsOf validators m.merged key =
      fieldsOf validators (effective validators env overrides) key :=
    fun key hkey => hagree key (hsound.fixed_notMem hfixed hkey)
  rcases mem_issuesOf hissue with hfield | hcross
  · rw [hagree issue.path hactive, hfields issue.path] at hfield
    cases hfield
  · have hmem : issue ∈
        crossIssues (fieldsOf validators (effective validators env overrides)) := by
      rw [mem_crossIssues] at hcross ⊢
      rw [hagreeFixed .bootstrapAdminEmail (by decide),
        hagreeFixed .bootstrapAdminPassword (by decide), hagreeFixed .appMode (by decide),
        hagreeFixed .brokerSharedSecret (by decide)] at hcross
      rcases hcross with hpair | ⟨hproduction, hcookie | hbroker⟩
      · exact Or.inl hpair
      · rw [path_of_mem_secretIssues hcookie] at hactive
        rw [hagree .cookieSecret hactive] at hcookie
        exact Or.inr ⟨hproduction, Or.inl hcookie⟩
      · exact Or.inr ⟨hproduction, Or.inr hbroker⟩
    rw [hcrossNone] at hmem
    cases hmem

/-- Once the merge parses, the settings that are left would each have been taken. -/
theorem Merge.Sound.settled (hsound : m.Sound validators env overrides)
    (hnone : issuesOf (fieldsOf validators m.merged) = []) :
    m.merged = effective validators env overrides := by
  obtain ⟨hfields, hcross⟩ := issuesOf_eq_nil_iff.mp hnone
  funext key
  by_cases hactive : key ∈ m.active
  · obtain ⟨value, hvalue⟩ := Option.isSome_iff_exists.mp (hsound.active key hactive)
    have hmerged : m.merged key = some value := by
      rw [hsound.overlaid, if_pos hactive, hvalue]
    have hfield := hfields key
    rw [fieldsOf, hmerged] at hfield
    have happMode : m.merged .appMode = env .appMode := by
      rw [hsound.overlaid, if_neg (hsound.fixed_notMem hfixed (by decide))]
    have haccepts : accepts validators env key value = true := by
      by_cases hcookie : key = .cookieSecret ∧
          isProduction (parseField validators .appMode (env .appMode)) = true
      · obtain ⟨rfl, hproduction⟩ := hcookie
        have hissues : secretIssues .cookieSecret (present (some value)) = [] := by
          rw [List.eq_nil_iff_forall_not_mem]
          intro issue hissue
          have hmem : issue ∈ crossIssues (fieldsOf validators m.merged) := by
            refine mem_crossIssues.mpr (Or.inr ⟨?_, Or.inl ?_⟩)
            · rw [fieldsOf, happMode]
              exact hproduction
            · rw [fieldsOf, hmerged]
              exact hissue
          rw [hcross] at hmem
          cases hmem
        simp [accepts, hfield, hissues]
      · simp only [not_and, Bool.not_eq_true] at hcookie
        by_cases hkey : key = .cookieSecret
        · simp [accepts, hfield, hcookie hkey]
        · simp [accepts, hfield, hkey]
    rw [hmerged, effective, hvalue]
    simp only [haccepts, ↓reduceIte]
  · exact hsound.merged_eq hactive

theorem Merge.Sound.without (hsound : m.Sound validators env overrides) {issue : Issue}
    (hissue : issue ∈ issuesOf (fieldsOf validators m.merged))
    (hactive : issue.path ∈ m.active) :
    (m.without env issue).Sound validators env overrides where
  overlaid := by
    intro key
    change Function.update m.merged issue.path (env issue.path) key =
      if key ∈ m.active.erase issue.path then overrides key else env key
    by_cases hkey : key = issue.path
    · rw [hkey, if_neg hsound.nodup.not_mem_erase, Function.update_self]
    · have hmem : key ∈ m.active.erase issue.path ↔ key ∈ m.active :=
        List.mem_erase_of_ne hkey
      rw [Function.update_of_ne hkey, hsound.overlaid]
      simp only [hmem]
  active := fun key hkey => hsound.active key (List.mem_of_mem_erase hkey)
  dropped := by
    intro key value hkey hvalue
    by_cases hpath : key = issue.path
    · rw [hpath] at hvalue ⊢
      exact hsound.blame hfixed hissue hactive hvalue
    · refine hsound.dropped key value ?_ hvalue
      intro hmem
      exact hkey ((List.mem_erase_of_ne hpath).mpr hmem)
  nodup := hsound.nodup.erase _

/-- The loop ends with the environment under the settings that it would take, unless that
has problems of its own. -/
theorem Merge.Sound.revert (attempts : Nat) (hsound : m.Sound validators env overrides)
    (hattempts : m.active.length ≤ attempts) :
    (Config.revert validators env overrides attempts m).Sound validators env overrides ∧
      ((Config.revert validators env overrides attempts m).merged =
          effective validators env overrides ∨
        issuesOf (fieldsOf validators (effective validators env overrides)) ≠ []) := by
  induction attempts generalizing m with
  | zero =>
      have hnil : m.active = [] := List.length_eq_zero_iff.mp (Nat.le_zero.mp hattempts)
      refine ⟨hsound, Or.inl (funext fun key => hsound.merged_eq ?_)⟩
      rw [hnil]
      exact List.not_mem_nil
  | succ attempts ih =>
      rw [Config.revert]
      cases hparse : safeParse validators m.merged with
      | ok data => exact ⟨hsound, Or.inl (hsound.settled hfixed (safeParse_ok hparse))⟩
      | error issues =>
          obtain ⟨rfl, hne⟩ := safeParse_error hparse
          simp only
          cases hblamed : blamed overrides m (issuesOf (fieldsOf validators m.merged)) with
          | some issue =>
              have hmem := List.mem_of_find?_eq_some hblamed
              have hfound := List.find?_some hblamed
              simp only [decide_eq_true_eq] at hfound
              refine ih (hsound.without hfixed hmem hfound.1) ?_
              rw [Merge.without, List.length_erase_of_mem hfound.1]
              omega
          | none =>
              obtain ⟨issue, hissue⟩ := List.exists_mem_of_ne_nil _ hne
              have hnot := List.find?_eq_none.mp hblamed issue hissue
              have hactive : issue.path ∉ m.active := by
                intro hactive
                apply hnot
                rw [hsound.overlaid, if_pos hactive]
                simpa using hactive
              exact ⟨hsound, Or.inr (hsound.innocent hfixed hissue hactive)⟩

theorem resolveEffectiveEnv_sound :
    (resolveEffectiveEnv validators env overrides).Sound validators env overrides ∧
      ((resolveEffectiveEnv validators env overrides).merged =
          effective validators env overrides ∨
        issuesOf (fieldsOf validators (effective validators env overrides)) ≠ []) := by
  have hstart : Merge.Sound validators env overrides
      ⟨fun key => (overrides key).or (env key),
        ConfigKey.all.filter fun key => (overrides key).isSome, []⟩ := by
    refine ⟨?_, ?_, ?_, ?_⟩
    · intro key
      have hmem : key ∈ ConfigKey.all.filter (fun key => (overrides key).isSome) ↔
          (overrides key).isSome = true := by
        rw [List.mem_filter, and_iff_right key.mem_all]
      cases hvalue : overrides key with
      | none =>
          rw [if_neg]
          · simp only [hvalue, Option.none_or]
          · rw [hmem, hvalue]
            exact Bool.false_ne_true
      | some value =>
          rw [if_pos]
          · simp only [hvalue, Option.some_or]
          · rw [hmem, hvalue]
            rfl
    · intro key hkey
      exact (List.mem_filter.mp hkey).2
    · intro key value hkey hvalue
      have hmem : key ∈ ConfigKey.all.filter (fun key => (overrides key).isSome) := by
        rw [List.mem_filter, hvalue]
        exact ⟨key.mem_all, rfl⟩
      exact absurd hmem hkey
    · exact List.Nodup.filter _ (by decide)
  exact Merge.Sound.revert hfixed _ hstart (Nat.le_refl _)

/-- The folded environment parses just as the environment under the settings that it would
take. -/
theorem safeParse_resolved :
    (safeParse validators (resolveEffectiveEnv validators env overrides).merged).toOption =
      (safeParse validators (effective validators env overrides)).toOption := by
  have hresolved : (resolveEffectiveEnv validators env overrides).Sound validators env overrides ∧
      ((resolveEffectiveEnv validators env overrides).merged =
          effective validators env overrides ∨
        issuesOf (fieldsOf validators (effective validators env overrides)) ≠ []) :=
    resolveEffectiveEnv_sound hfixed
  obtain ⟨hsound, hmerged | hproblem⟩ := hresolved
  · rw [hmerged]
  · have heffective : (safeParse validators (effective validators env overrides)).toOption =
        none := by
      cases hparse : safeParse validators (effective validators env overrides) with
      | ok data => exact absurd (safeParse_ok hparse) hproblem
      | error issues => rfl
    rw [heffective]
    cases hparse :
        safeParse validators (resolveEffectiveEnv validators env overrides).merged with
    | error issues => rfl
    | ok data =>
        rw [hsound.settled hfixed (safeParse_ok hparse)] at hparse
        rw [hparse] at heffective
        cases heffective

/-- What loads is what the environment parses to under the settings that it would take. -/
theorem loadConfig_ok_iff {secrets : EphemeralSecrets} {config : AppConfig} :
    loadConfig validators secrets env overrides = .ok config ↔
      ∃ data, safeParse validators (effective validators env overrides) = .ok data ∧
        config = configOf secrets (resolveEffectiveEnv validators env overrides).warnings
          data := by
  have hparsed :
      (safeParse validators (resolveEffectiveEnv validators env overrides).merged).toOption =
        (safeParse validators (effective validators env overrides)).toOption :=
    safeParse_resolved hfixed
  rw [loadConfig]
  cases hparse : safeParse validators (resolveEffectiveEnv validators env overrides).merged with
  | error issues =>
      rw [hparse] at hparsed
      refine iff_of_false nofun ?_
      rintro ⟨data, hdata, -⟩
      rw [hdata] at hparsed
      cases hparsed
  | ok data =>
      rw [hparse] at hparsed
      cases heffective : safeParse validators (effective validators env overrides) with
      | error issues =>
          rw [heffective] at hparsed
          cases hparsed
      | ok data' =>
          rw [heffective] at hparsed
          have hsame : data = data' := Option.some.inj hparsed
          rw [hsame]
          constructor
          · intro hconfig
            exact ⟨data', rfl, (Except.ok.inj hconfig).symm⟩
          · rintro ⟨found, hfound, rfl⟩
            rw [Except.ok.inj hfound]

end Fixed

end Spec

end Config

end MailPanel

import MailPanel.ConfigRollback

/-
A start with saved settings: an environment that is in order on its own stays so under
whatever was saved.
-/

namespace MailPanel

namespace Config

open ScriptText

/-- `loadConfig(env)` throws. -/
def Rejected (validators : Validators) (secrets : EphemeralSecrets) (env : ProcessEnv) : Prop :=
  ∃ problems, loadConfig validators secrets env (fun _ => none) = .error problems

section Startup

variable {validators : Validators} {secrets : EphemeralSecrets} {env : ProcessEnv}

theorem resolveEffectiveEnv_plain (validators : Validators) (env : ProcessEnv) :
    resolveEffectiveEnv validators env (fun _ => none) = ⟨env, [], []⟩ := by
  have hnone : ConfigKey.all.filter (fun _ => (none : Option Text).isSome) = [] :=
    List.filter_eq_nil_iff.mpr fun _ _ => Bool.false_ne_true
  rw [resolveEffectiveEnv, hnone]
  rfl

theorem loadConfig_plain_ok_iff :
    (∃ config, loadConfig validators secrets env (fun _ => none) = .ok config) ↔
      issuesOf (fieldsOf validators env) = [] := by
  rw [loadConfig, resolveEffectiveEnv_plain]
  constructor
  · rintro ⟨config, hconfig⟩
    cases hparse : safeParse validators env with
    | ok data => exact safeParse_ok hparse
    | error issues =>
        simp only [hparse] at hconfig
        cases hconfig
  · intro hnone
    cases hparse : safeParse validators env with
    | ok data => exact ⟨_, rfl⟩
    | error issues =>
        obtain ⟨rfl, hsome⟩ := safeParse_error hparse
        exact absurd hnone hsome

theorem rejected_iff :
    Rejected validators secrets env ↔ issuesOf (fieldsOf validators env) ≠ [] := by
  rw [← not_iff_not, not_not, ← @loadConfig_plain_ok_iff _ secrets, Rejected]
  cases loadConfig validators secrets env fun _ => none with
  | ok config => exact iff_of_true (fun ⟨problems, hproblems⟩ => by cases hproblems) ⟨_, rfl⟩
  | error problems => exact iff_of_false (not_not_intro ⟨_, rfl⟩) nofun

/- One setting over an environment -/

section Own

variable (hown : issuesOf (fieldsOf validators env) = [])

include hown

/-- Whether a value would be taken is whether the environment with it is in order. -/
theorem accepts_iff {key : ConfigKey} (hkey : key ∉ fixedKeys) (value : Text) :
    accepts validators env key value = true ↔
      issuesOf (fieldsOf validators (Function.update env key (some value))) = [] := by
  obtain ⟨hfields, hcross⟩ := issuesOf_eq_nil_iff.mp hown
  have hat : fieldsOf validators (Function.update env key (some value)) key =
      parseField validators key (some value) := by
    rw [fieldsOf, Function.update_self]
  have helse : ∀ other, other ≠ key →
      fieldsOf validators (Function.update env key (some value)) other =
        fieldsOf validators env other := by
    intro other hne
    rw [fieldsOf, fieldsOf, Function.update_of_ne hne]
  have hfixed : ∀ other ∈ fixedKeys,
      fieldsOf validators (Function.update env key (some value)) other =
        fieldsOf validators env other :=
    fun other hother => helse other fun heq => hkey (heq ▸ hother)
  have hallFields :
      (∀ other, (fieldsOf validators (Function.update env key (some value))
        other).toOption.isSome = true) ↔
        (parseField validators key (some value)).toOption.isSome = true := by
    rw [← hat]
    refine ⟨fun hall => hall key, fun hsome other => ?_⟩
    by_cases heq : other = key
    · rw [heq]
      exact hsome
    · rw [helse other heq]
      exact hfields other
  have hcrossIff : crossIssues (fieldsOf validators (Function.update env key (some value))) = [] ↔
      ¬(key = .cookieSecret ∧
        isProduction (parseField validators .appMode (env .appMode)) = true ∧
          secretIssues .cookieSecret (present (some value)) ≠ []) := by
    have hproduction : fieldsOf validators env .appMode =
        parseField validators .appMode (env .appMode) := rfl
    by_cases hcookie : key = .cookieSecret
    · subst hcookie
      rw [List.eq_nil_iff_forall_not_mem, ← not_iff_not, not_not]
      constructor
      · intro hsome
        obtain ⟨issue, hissue⟩ := not_forall_not.mp hsome
        rw [mem_crossIssues, hfixed .bootstrapAdminEmail (by decide),
          hfixed .bootstrapAdminPassword (by decide), hfixed .appMode (by decide),
          hfixed .brokerSharedSecret (by decide), hat] at hissue
        have hno : issue ∉ crossIssues (fieldsOf validators env) := by
          rw [hcross]
          exact List.not_mem_nil
        rw [mem_crossIssues, not_or] at hno
        rcases hissue with hpair | ⟨hmode, hsecret | hbroker⟩
        · exact absurd hpair hno.1
        · exact ⟨rfl, hmode, List.ne_nil_of_mem hsecret⟩
        · exact absurd ⟨hmode, Or.inr hbroker⟩ hno.2
      · rintro ⟨-, hmode, hsecret⟩ hnone
        obtain ⟨issue, hissue⟩ := List.exists_mem_of_ne_nil _ hsecret
        apply hnone issue
        rw [mem_crossIssues, hfixed .appMode (by decide), hat]
        exact Or.inr ⟨hmode, Or.inl hissue⟩
    · refine iff_of_true ?_ fun h => hcookie h.1
      rw [crossIssues, hfixed .bootstrapAdminEmail (by decide),
        hfixed .bootstrapAdminPassword (by decide), hfixed .appMode (by decide),
        hfixed .brokerSharedSecret (by decide), helse .cookieSecret (Ne.symm hcookie)]
      exact hcross
  rw [issuesOf_eq_nil_iff, hallFields, hcrossIff, accepts, Bool.and_eq_true, Bool.not_eq_true',
    ← Bool.not_eq_true]
  simp only [Bool.and_eq_true, decide_eq_true_eq, and_assoc]

/-- An environment in order is in order under the settings that it would take. -/
theorem issuesOf_effective (table : SettingsTable) :
    issuesOf (fieldsOf validators
      (effective validators env (filterStartupOverrides table))) = [] := by
  obtain ⟨hfields, hcross⟩ := issuesOf_eq_nil_iff.mp hown
  have hfixed := filterStartupOverrides_fixed table
  have hkept : ∀ key ∈ fixedKeys,
      fieldsOf validators (effective validators env (filterStartupOverrides table)) key =
        fieldsOf validators env key := by
    intro key hkey
    rw [fieldsOf, fieldsOf, effective, hfixed key hkey]
  have hcases : ∀ key,
      effective validators env (filterStartupOverrides table) key = env key ∨
        ∃ value, key ∉ fixedKeys ∧ accepts validators env key value = true ∧
          effective validators env (filterStartupOverrides table) key = some value := by
    intro key
    rw [effective]
    cases hoverride : filterStartupOverrides table key with
    | none => exact Or.inl rfl
    | some value =>
        by_cases haccepts : accepts validators env key value = true
        · refine Or.inr ⟨value, fun hkey => ?_, haccepts, if_pos haccepts⟩
          rw [hfixed key hkey] at hoverride
          cases hoverride
        · exact Or.inl (if_neg haccepts)
  have hcookie : secretOf (fieldsOf validators
        (effective validators env (filterStartupOverrides table)) .cookieSecret) =
      present (effective validators env (filterStartupOverrides table) .cookieSecret) := rfl
  refine issuesOf_eq_nil_iff.mpr ⟨fun key => ?_, ?_⟩
  · rcases hcases key with hsame | ⟨value, -, haccepts, hvalue⟩
    · rw [fieldsOf, hsame]
      exact hfields key
    · rw [fieldsOf, hvalue]
      rw [accepts, Bool.and_eq_true] at haccepts
      exact haccepts.1
  · rw [List.eq_nil_iff_forall_not_mem]
    intro issue hissue
    have hno : issue ∉ crossIssues (fieldsOf validators env) := by
      rw [hcross]
      exact List.not_mem_nil
    rw [mem_crossIssues, hkept .bootstrapAdminEmail (by decide),
      hkept .bootstrapAdminPassword (by decide), hkept .appMode (by decide),
      hkept .brokerSharedSecret (by decide)] at hissue
    rw [mem_crossIssues, not_or] at hno
    rcases hissue with hpair | ⟨hmode, hsecret | hbroker⟩
    · exact hno.1 hpair
    · rcases hcases .cookieSecret with hsame | ⟨value, -, haccepts, hvalue⟩
      · rw [fieldsOf, hsame] at hsecret
        exact hno.2 ⟨hmode, Or.inl hsecret⟩
      · rw [hcookie, hvalue] at hsecret
        have hmode' : isProduction (parseField validators .appMode (env .appMode)) = true := hmode
        have hsome : secretIssues .cookieSecret (present (some value)) ≠ [] :=
          List.ne_nil_of_mem hsecret
        simp [accepts, hmode', hsome] at haccepts
    · exact hno.2 ⟨hmode, Or.inr hbroker⟩

end Own

theorem parsed_eq_ok_get {α : Type} {parsed : Parsed α} (hsome : parsed.toOption.isSome = true) :
    parsed = .ok (parsed.toOption.get hsome) := by
  cases parsed with
  | ok value => rfl
  | error issues => cases hsome

/-- What parses has each of its values from the variable of that name. -/
theorem parseField_of_safeParse {data : RawEnv} (hparse : safeParse validators env = .ok data)
    (key : ConfigKey) : parseField validators key (env key) = .ok (data key) := by
  have hsome := (issuesOf_eq_nil_iff.mp (safeParse_ok hparse)).1 key
  rw [safeParse] at hparse
  split at hparse
  · rw [← Except.ok.inj hparse]
    exact parsed_eq_ok_get hsome
  · cases hparse

/-- Where the merge is what every setting that is accepted alone comes to, the settings that were
dropped are those that the environment would be rejected with. -/
theorem notMem_active_iff {overrides : Overrides}
    (hnone : issuesOf (fieldsOf validators env) = [])
    (hsound : (resolveEffectiveEnv validators env overrides).Sound validators env overrides)
    (hmerged : (resolveEffectiveEnv validators env overrides).merged =
      effective validators env overrides)
    {key : ConfigKey} (hkey : key ∉ fixedKeys) {value : Text}
    (hvalue : overrides key = some value) :
    key ∉ (resolveEffectiveEnv validators env overrides).active ↔
      Rejected validators secrets (Function.update env key (some value)) := by
  rw [rejected_iff, ← not_iff_not, not_not, not_not, ← accepts_iff hnone hkey]
  constructor
  · intro hactive
    have hoverlaid := hsound.overlaid key
    rw [if_pos hactive, hvalue] at hoverlaid
    by_contra hrefused
    have hkept : (resolveEffectiveEnv validators env overrides).merged key = env key := by
      rw [hmerged, effective, hvalue]
      simp only [hrefused, ↓reduceIte]
    rw [hkept] at hoverlaid
    apply hrefused
    rw [accepts_iff hnone hkey, ← hoverlaid, Function.update_eq_self]
    exact hnone
  · intro haccepts
    by_contra hactive
    rw [hsound.dropped key value hactive hvalue] at haccepts
    cases haccepts

/-- A start honours every setting that it may, but for those that the environment would be
rejected with: the configuration is what the environment parses to with each of these settings in
its place, and with the environment's own value wherever a setting is ignored or missing. -/
theorem nextStart_honours (table : SettingsTable) {own : AppConfig}
    (hown : loadConfig validators secrets env (fun _ => none) = .ok own) :
    let overrides := filterStartupOverrides table
    let resolved := resolveEffectiveEnv validators env overrides
    (∃ data, nextStart validators secrets env table =
        .ok (configOf secrets resolved.warnings data) ∧
      ∀ key, parseField validators key (resolved.merged key) = .ok (data key)) ∧
    ∀ key, (overrides key = none → resolved.merged key = env key) ∧
      ∀ value, overrides key = some value →
        (key ∉ resolved.active ↔
          Rejected validators secrets (Function.update env key (some value))) ∧
        resolved.merged key = if key ∈ resolved.active then some value else env key := by
  intro overrides resolved
  have hnone := loadConfig_plain_ok_iff.mp ⟨own, hown⟩
  have heffective := issuesOf_effective hnone table
  have hfixed := filterStartupOverrides_fixed table
  obtain ⟨hsound, hmerged | hproblem⟩ :=
    @resolveEffectiveEnv_sound validators env _ hfixed
  · refine ⟨?_, fun key => ⟨fun hmissing => ?_, fun value hvalue => ?_⟩⟩
    · cases hparse : safeParse validators
          (effective validators env (filterStartupOverrides table)) with
      | ok data =>
          refine ⟨data, (loadConfig_ok_iff hfixed).mpr ⟨data, hparse, rfl⟩, fun key => ?_⟩
          rw [← hmerged] at hparse
          exact parseField_of_safeParse hparse key
      | error issues =>
          obtain ⟨rfl, hsome⟩ := safeParse_error hparse
          exact absurd heffective hsome
    · refine (hsound.overlaid key).trans (if_neg fun hactive => ?_)
      have hsome := hsound.active key hactive
      rw [show filterStartupOverrides table key = none from hmissing] at hsome
      cases hsome
    · have hkey : key ∉ fixedKeys := by
        intro hmem
        rw [show overrides key = none from hfixed key hmem] at hvalue
        cases hvalue
      refine ⟨notMem_active_iff hnone hsound hmerged hkey hvalue, ?_⟩
      rw [← hvalue]
      exact hsound.overlaid key
  · exact absurd heffective hproblem

end Startup

namespace OnePanel

/-- A level that exists, and a switch that is neither on nor off. -/
def saved : SettingsTable := fun key =>
  if key = "LOG_LEVEL" then some "debug".toList
  else if key = "ENABLE_HSTS" then some "maybe".toList
  else none

/-- A level that exists takes effect, and a switch that is neither on nor off stays as the
environment has it, since no start would succeed with that value in the environment itself. -/
theorem saved_honoured :
    (∃ data, nextStart validators generated (environment none) saved =
        .ok (configOf generated (resolveEffectiveEnv validators (environment none)
          (filterStartupOverrides saved)).warnings data) ∧
      parseField validators .logLevel (some "debug".toList) = .ok (data .logLevel) ∧
      parseField validators .enableHsts (environment none .enableHsts) =
        .ok (data .enableHsts)) ∧
      Rejected validators generated (Function.update (environment none) .enableHsts
        (some "maybe".toList)) := by
  obtain ⟨own, hown⟩ := (@loadConfig_plain_ok_iff validators generated
    (environment none)).mpr (by decide)
  obtain ⟨⟨data, hstarts, hparsed⟩, hhonoured⟩ := nextStart_honours saved hown
  have hlevel : (filterStartupOverrides saved) .logLevel = some "debug".toList := by decide
  have hswitch : (filterStartupOverrides saved) .enableHsts = some "maybe".toList := by
    decide
  obtain ⟨hlevelIgnored, hmergedLevel⟩ := (hhonoured .logLevel).2 _ hlevel
  obtain ⟨hignored, hmergedSwitch⟩ := (hhonoured .enableHsts).2 _ hswitch
  have hactive : .logLevel ∈ (resolveEffectiveEnv validators (environment none)
      (filterStartupOverrides saved)).active := by
    by_contra hnot
    exact rejected_iff.mp (hlevelIgnored.mp hnot) (by decide)
  have hrejected : Rejected validators generated (Function.update (environment none)
      .enableHsts (some "maybe".toList)) := rejected_iff.mpr (by decide)
  have hdropped := hignored.mpr hrejected
  have hreadLevel := hparsed .logLevel
  have hreadSwitch := hparsed .enableHsts
  rw [hmergedLevel, if_pos hactive] at hreadLevel
  rw [hmergedSwitch, if_neg hdropped] at hreadSwitch
  exact ⟨⟨data, hstarts, hreadLevel, hreadSwitch⟩, hrejected⟩

end OnePanel

end Config

end MailPanel

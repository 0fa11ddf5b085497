import MailPanel.NumberText

/-
The variables of the panel's environment, and the schema that they are parsed with.  Every
problem is reported at once; rules across variables are checked once each of them has a
value.
-/

namespace MailPanel

namespace Config

open ScriptText NumberText

/-- Texts are lists of characters, so that they can be taken apart. -/
abbrev Text := List Char

/-- The variables that the server is configured with. The schema has one reader for each of
them, and a saved setting of the panel overrides one of them. -/
inductive ConfigKey where
  | appMode
  | dangerouslyUseRealDocker
  | port
  | host
  | logLevel
  | cookieSecret
  | cookieSecure
  | sessionAbsoluteTtlHours
  | sessionIdleTtlHours
  | dataDir
  | backupDir
  | staticDir
  | bootstrapAdminEmail
  | bootstrapAdminPassword
  | brokerUrl
  | brokerSharedSecret
  | brokerPort
  | dmsContainerName
  | dmsContainerLabel
  | rspamdUrl
  | rspamdPassword
  | enableExecConsole
  | enableHsts
  | mcpEnabled
deriving DecidableEq, Repr

namespace ConfigKey

/-- Every variable once, in the order of the schema, which is also the order of its issues. -/
def all : List ConfigKey :=
  [appMode, dangerouslyUseRealDocker, port, host, logLevel, cookieSecret, cookieSecure,
    sessionAbsoluteTtlHours, sessionIdleTtlHours, dataDir, backupDir, staticDir,
    bootstrapAdminEmail, bootstrapAdminPassword, brokerUrl, brokerSharedSecret, brokerPort,
    dmsContainerName, dmsContainerLabel, rspamdUrl, rspamdPassword, enableExecConsole,
    enableHsts, mcpEnabled]

theorem mem_all (key : ConfigKey) : key ∈ all := by
  cases key with
  | _ => decide

/-- The name of a variable in the environment. It is also the name under which the panel saves a
value for it. -/
def text : ConfigKey → String
  | appMode => "APP_MODE"
  | dangerouslyUseRealDocker => "DANGEROUSLY_USE_REAL_DOCKER"
  | port => "PORT"
  | host => "HOST"
  | logLevel => "LOG_LEVEL"
  | cookieSecret => "COOKIE_SECRET"
  | cookieSecure => "COOKIE_SECURE"
  | sessionAbsoluteTtlHours => "SESSION_ABSOLUTE_TTL_HOURS"
  | sessionIdleTtlHours => "SESSION_IDLE_TTL_HOURS"
  | dataDir => "DATA_DIR"
  | backupDir => "BACKUP_DIR"
  | staticDir => "STATIC_DIR"
  | bootstrapAdminEmail => "BOOTSTRAP_ADMIN_EMAIL"
  | bootstrapAdminPassword => "BOOTSTRAP_ADMIN_PASSWORD"
  | brokerUrl => "BROKER_URL"
  | brokerSharedSecret => "BROKER_SHARED_SECRET"
  | brokerPort => "BROKER_PORT"
  | dmsContainerName => "DMS_CONTAINER_NAME"
  | dmsContainerLabel => "DMS_CONTAINER_LABEL"
  | rspamdUrl => "RSPAMD_URL"
  | rspamdPassword => "RSPAMD_PASSWORD"
  | enableExecConsole => "ENABLE_EXEC_CONSOLE"
  | enableHsts => "ENABLE_HSTS"
  | mcpEnabled => "MCP_ENABLED"

theorem text_injective {key other : ConfigKey} (htext : key.text = other.text) :
    key = other := by
  have hall : ∀ key ∈ all, ∀ other ∈ all, key.text = other.text → key = other := by
    decide
  exact hall key (mem_all key) other (mem_all other) htext

end ConfigKey

/-- The variables that are set, with their text. One that is not set is different from one that
is empty. -/
abbrev ProcessEnv := ConfigKey → Option Text

/-- Development does without secrets that production insists on. -/
inductive AppMode where
  | development
  | production
deriving DecidableEq, Repr

/-- The spelling in the environment. -/
def AppMode.text : AppMode → String
  | .development => "development"
  | .production => "production"

/-- The modes in the order in which the schema lists them. -/
def AppMode.all : List AppMode := [.development, .production]

/-- How much the server writes to its log, with the levels in the order of the schema, from
fatal errors down to traces. -/
inductive ConfigLogLevel where
  | fatal
  | error
  | warn
  | info
  | debug
  | trace
deriving DecidableEq, Repr

/-- The spelling in the environment, which is also the one that the editor shows and saves. -/
def ConfigLogLevel.text : ConfigLogLevel → String
  | .fatal => "fatal"
  | .error => "error"
  | .warn => "warn"
  | .info => "info"
  | .debug => "debug"
  | .trace => "trace"

/-- The levels from the least output to the most. -/
def ConfigLogLevel.all : List ConfigLogLevel := [.fatal, .error, .warn, .info, .debug, .trace]

/-- What `z.number().positive()` lets through. It need not be whole. -/
structure PositiveNumber where
  value : ℚ
  positive : 0 < value
  double : Binary64.ofRat value = (value : WithTop ℚ)
deriving DecidableEq

/-- The checks of the validation package that the schema calls on texts. -/
structure Validators where
  /-- `new URL(text)` does not throw. -/
  isUrl : Text → Bool
  isEmail : Text → Bool
  isUrl_nil : isUrl [] = false

/- Fields -/

/-- A problem with a value; some keep the rules across variables from being checked. -/
structure FieldIssue where
  message : String
  aborts : Bool
deriving DecidableEq, Repr

/-- A failed field has at least one issue. -/
structure FieldIssues where
  first : FieldIssue
  others : List FieldIssue
deriving DecidableEq, Repr

/-- The issues in the order in which the schema reports them. -/
def FieldIssues.toList (issues : FieldIssues) : List FieldIssue := issues.first :: issues.others

/-- What a field is parsed to, or why it is not. -/
abbrev Parsed := Except FieldIssues

/-- A field with a single issue. One that aborts keeps the rules across variables from being
checked. -/
def invalid {α : Type} (message : String) (aborts : Bool) : Parsed α :=
  .error ⟨⟨message, aborts⟩, []⟩

/-- Accepts a few spellings of both answers, without regard to case or surrounding blanks. An
empty text is none of them. -/
def booleanVar (defaultValue : Bool) (raw : Option Text) : Parsed Bool :=
  match raw.map fun raw => (trim raw).map Char.toLower with
  | none => .ok defaultValue
  | some normalised =>
      if normalised = "true".toList ∨ normalised = "1".toList then .ok true
      else if normalised = "false".toList ∨ normalised = "0".toList then .ok false
      else invalid "must be \"true\" or \"false\"" false

/-- The text of a variable, unless it is absent or empty. -/
def present (raw : Option Text) : Option Text := raw.filter fun raw => !raw.isEmpty

/-- A whole number in the range of ports. A number that is too large to be exact breaks both
rules at once. -/
def portVar (defaultValue : Nat) (raw : Option Text) : Parsed Nat :=
  match present raw with
  | none => .ok defaultValue
  | some raw =>
      match toNumber raw with
      | .nan | .infinity _ => invalid "must be a number" true
      | .finite value =>
          let range : FieldIssue := ⟨"must be between 1 and 65535", false⟩
          if value.den ≠ 1 then invalid "must be a whole number" true
          else if 2 ^ 53 ≤ value.num.natAbs then
            .error ⟨⟨"must be a whole number", false⟩, [range]⟩
          else if value.num < 1 ∨ 65535 < value.num then .error ⟨range, []⟩
          else .ok value.num.toNat

/-- A finite number above zero, in whatever spelling the language reads as a number. -/
def positiveNumberVar (defaultValue : PositiveNumber) (raw : Option Text) :
    Parsed PositiveNumber :=
  match present raw with
  | none => .ok defaultValue
  | some raw =>
      match hread : toNumber raw with
      | .nan | .infinity _ => invalid "must be a number" true
      | .finite value =>
          if hpositive : 0 < value then .ok ⟨value, hpositive, toNumber_double hread hpositive⟩
          else invalid "must be greater than 0" false

/-- Any text; an empty one counts as not set. -/
def stringVar (defaultValue : Text) (raw : Option Text) : Parsed Text :=
  .ok ((present raw).getD defaultValue)

/-- A text or nothing. An empty text counts as nothing. -/
def optionalStringVar (raw : Option Text) : Parsed (Option Text) := .ok (present raw)

/-- One of a few words, trimmed. The schema knows no other spelling of them. -/
def wordVar {Word : Type} (words : List Word) (text : Word → String) (defaultValue : Word)
    (message : String) (raw : Option Text) : Parsed Word :=
  match raw with
  | none => .ok defaultValue
  | some raw =>
      match words.find? fun word => (text word).toList = trim raw with
      | some word => .ok word
      | none => invalid message false

section Validated

variable (validators : Validators)

/-- An address, by the validator of the schema library, or nothing. An empty variable counts as
absent. -/
def optionalEmailVar (raw : Option Text) : Parsed (Option Text) :=
  match present raw with
  | none => .ok none
  | some email =>
      if validators.isEmail email then .ok (some email)
      else invalid "must be a valid email address" false

/-- An address of a service, by the parser of URLs. Blanks around it are removed. -/
def urlVar (defaultValue : Text) (raw : Option Text) : Parsed Text :=
  let url := trim ((present raw).getD defaultValue)
  if validators.isUrl url then .ok url
  else invalid "must be a valid URL, e.g. http://host:port" false

end Validated

/- The schema -/

/-- What each variable is parsed to, as a type that depends on the variable. -/
abbrev ConfigKey.Value : ConfigKey → Type
  | .appMode => AppMode
  | .logLevel => ConfigLogLevel
  | .dangerouslyUseRealDocker | .cookieSecure | .enableExecConsole | .enableHsts
  | .mcpEnabled => Bool
  | .port | .brokerPort => Nat
  | .sessionAbsoluteTtlHours | .sessionIdleTtlHours => PositiveNumber
  | .host | .dataDir | .backupDir | .brokerUrl | .dmsContainerName | .rspamdUrl => Text
  | .cookieSecret | .staticDir | .bootstrapAdminEmail | .bootstrapAdminPassword
  | .brokerSharedSecret | .dmsContainerLabel | .rspamdPassword => Option Text

theorem twelve_pos : (0 : ℚ) < 12 := by
  norm_num

theorem ofRat_twelve : Binary64.ofRat 12 = ((12 : ℚ) : WithTop ℚ) :=
  Binary64.ofRat_natCast (n := 12) (by decide) (by decide)

theorem ofRat_two : Binary64.ofRat 2 = ((2 : ℚ) : WithTop ℚ) :=
  Binary64.ofRat_natCast (n := 2) (by decide) (by decide)

/-- The schema, variable by variable, with the defaults and messages that it has for them. -/
def parseField (validators : Validators) :
    (key : ConfigKey) → Option Text → Parsed key.Value
  | .appMode =>
      wordVar AppMode.all AppMode.text .development "must be one of: development, production"
  | .dangerouslyUseRealDocker => booleanVar false
  | .port => portVar 3000
  | .host => stringVar "0.0.0.0".toList
  | .logLevel =>
      wordVar ConfigLogLevel.all ConfigLogLevel.text .info
        "must be one of: fatal, error, warn, info, debug, trace"
  | .cookieSecret => optionalStringVar
  | .cookieSecure => booleanVar true
  | .sessionAbsoluteTtlHours => positiveNumberVar ⟨12, twelve_pos, ofRat_twelve⟩
  | .sessionIdleTtlHours => positiveNumberVar ⟨2, by norm_num, ofRat_two⟩
  | .dataDir => stringVar "./data".toList
  | .backupDir => stringVar "./backups".toList
  | .staticDir => optionalStringVar
  | .bootstrapAdminEmail => optionalEmailVar validators
  | .bootstrapAdminPassword => optionalStringVar
  | .brokerUrl => urlVar validators "http://broker:4000".toList
  | .brokerSharedSecret => optionalStringVar
  | .brokerPort => portVar 4000
  | .dmsContainerName => stringVar "mailserver".toList
  | .dmsContainerLabel => optionalStringVar
  | .rspamdUrl => urlVar validators "http://mailserver:11334".toList
  | .rspamdPassword => optionalStringVar
  | .enableExecConsole => booleanVar false
  | .enableHsts => booleanVar true
  | .mcpEnabled => booleanVar true

/-- An issue as a start of the server reports it. -/
structure Issue where
  path : ConfigKey
  message : String
deriving DecidableEq, Repr

/-- The length under which a secret is refused in production. -/
def minSecretLength : Nat := 32

/-- `text.length`: the characters outside the first plane take two units. -/
def utf16Length (text : Text) : Nat :=
  (text.map fun c => if c.toNat < 0x10000 then 1 else 2).sum

/-- What each variable of an environment is parsed to, failures included. -/
abbrev Fields := (key : ConfigKey) → Parsed key.Value

/-- The issues of one variable. -/
def fieldIssues (fields : Fields) (key : ConfigKey) : List FieldIssue :=
  match fields key with
  | .ok _ => []
  | .error issues => issues.toList

/-- A secret that is missing or too short in production. In development both are accepted. -/
def secretIssues (key : ConfigKey) (secret : Option Text) : List Issue :=
  match secret with
  | none =>
      [⟨key, key.text ++ " is required in production. Generate one with: openssl rand -hex 32"⟩]
  | some secret =>
      if utf16Length secret < minSecretLength then
        [⟨key, key.text ++ " must be at least 32 characters in production"⟩]
      else []

/-- A value that was refused is still there for the rules across variables. -/
def isNull (field : Parsed (Option Text)) : Bool :=
  match field with
  | .ok none => true
  | .ok (some _) | .error _ => false

/-- Whether the rules of production apply. A mode that could not be read does not bring them
into force. -/
def isProduction (field : Parsed AppMode) : Bool :=
  match field with
  | .ok .production => true
  | .ok .development | .error _ => false

/-- Of texts that any text is parsed to: the value, with nothing in place of a failure that
cannot occur. -/
def secretOf (field : Parsed (Option Text)) : Option Text :=
  match field with
  | .ok secret => secret
  | .error _ => none

/-- The first account needs both of its variables. With only one of them the issue names the
other. -/
def pairIssues (email password : Parsed (Option Text)) : List Issue :=
  if isNull email ≠ isNull password then
    let missing : ConfigKey :=
      if isNull email then .bootstrapAdminEmail else .bootstrapAdminPassword
    [⟨missing, missing.text ++ " must be set together with its counterpart, or not at all."⟩]
  else []

/-- The rules across variables, which the schema checks after all fields. -/
def crossIssues (fields : Fields) : List Issue :=
  pairIssues (fields .bootstrapAdminEmail) (fields .bootstrapAdminPassword) ++
    if isProduction (fields .appMode) then
      secretIssues .cookieSecret (secretOf (fields .cookieSecret)) ++
        secretIssues .brokerSharedSecret (secretOf (fields .brokerSharedSecret))
    else []

/-- All issues of an environment: those of the fields, and those across fields unless a field's
issue has aborted. -/
def issuesOf (fields : Fields) : List Issue :=
  let own := ConfigKey.all.flatMap fun key =>
    (fieldIssues fields key).map fun issue => ⟨key, issue.message⟩
  let aborted := ConfigKey.all.any fun key => (fieldIssues fields key).any FieldIssue.aborts
  own ++ if aborted then [] else crossIssues fields

/-- A configuration that has been read: every variable with its value. -/
abbrev RawEnv := (key : ConfigKey) → key.Value

/-- Reads every variable on its own. -/
def fieldsOf (validators : Validators) (env : ProcessEnv) : Fields :=
  fun key => parseField validators key (env key)

theorem fieldIssues_eq_nil_iff {fields : Fields} {key : ConfigKey} :
    fieldIssues fields key = [] ↔ (fields key).toOption.isSome = true := by
  rw [fieldIssues]
  cases hfield : fields key with
  | ok value => exact iff_of_true rfl rfl
  | error issues =>
      refine iff_of_false ?_ ?_
      · exact List.cons_ne_nil _ _
      · exact Bool.false_ne_true

/-- No problem, when each variable has a value and the rules across them hold. -/
theorem issuesOf_eq_nil_iff {fields : Fields} :
    issuesOf fields = [] ↔
      (∀ key, (fields key).toOption.isSome = true) ∧ crossIssues fields = [] := by
  have hown : (ConfigKey.all.flatMap fun key =>
      (fieldIssues fields key).map fun issue => (⟨key, issue.message⟩ : Issue)) = [] ↔
        ∀ key, (fields key).toOption.isSome = true := by
    rw [List.flatMap_eq_nil_iff]
    constructor
    · intro hall key
      exact fieldIssues_eq_nil_iff.mp (List.map_eq_nil_iff.mp (hall key key.mem_all))
    · intro hall key _
      rw [fieldIssues_eq_nil_iff.mpr (hall key), List.map_nil]
  rw [issuesOf, List.append_eq_nil_iff, hown]
  refine and_congr_right fun hall => ?_
  have haborted : (ConfigKey.all.any fun key =>
      (fieldIssues fields key).any FieldIssue.aborts) = false := by
    rw [List.any_eq_false]
    intro key _
    rw [fieldIssues_eq_nil_iff.mpr (hall key)]
    exact Bool.false_ne_true
  rw [haborted, if_neg Bool.false_ne_true]

/-- `rawEnvSchema.safeParse(env)`: the values of all variables, or all issues. -/
def safeParse (validators : Validators) (env : ProcessEnv) : Except (List Issue) RawEnv :=
  if hnone : issuesOf (fieldsOf validators env) = [] then
    .ok fun key =>
      (fieldsOf validators env key).toOption.get ((issuesOf_eq_nil_iff.mp hnone).1 key)
  else .error (issuesOf (fieldsOf validators env))

end Config

end MailPanel

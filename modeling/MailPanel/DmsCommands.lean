import MailPanel.DmsValidators

/-
The command lines for docker-mailserver: an argument vector built from literals and
validated leaf values, and an input for what must not stand in it.
-/

namespace MailPanel

namespace Dms

open NumberText

/-- The arguments of one command inside the mail container, and what is written to its input. -/
structure DmsCommand where
  argv : List String
  stdin : Option String
deriving DecidableEq, Repr

/-- A builder's command, or the message with which it refuses its parameters. -/
abbrev CommandResult := Except String DmsCommand

/-- A validator's verdict as a step of a builder: no message goes on, and a message ends the
builder. -/
def accept : Option String → Except String Unit
  | none => .ok ()
  | some error => .error error

/-- Every value passes, or the first that fails is reported. -/
def acceptAll (validate : String → Option String) : List String → Except String Unit
  | [] => .ok ()
  | value :: rest => do
      accept (validate value)
      acceptAll validate rest

/-- `String(number)`, as a number parameter becomes an argument: its digits, with a sign, a
point or an exponent where the number needs one. -/
def numberText : JsNumber → String
  | .nan => "NaN"
  | .infinity true => "-Infinity"
  | .infinity false => "Infinity"
  | .finite value =>
      if value = 0 then "0"
      else if value < 0 then "-" ++ String.ofList (toText (-value))
      else String.ofList (toText value)

/-- The password and again the password, each on a line of its own. `setup` asks for it twice. -/
def passwordStdin (password : String) : String := password ++ "\n" ++ password ++ "\n"

section Builders

variable (tables : UnicodeTables)

/-- A command with a mailbox at its end and a password for its prompt. -/
def passwordCommand (argv : List String) (email password : String) : CommandResult := do
  accept (validateAddressForArgv tables email false)
  accept (validatePassword password)
  return ⟨argv ++ [email], some (passwordStdin password)⟩

/-- `email.add`: a new mailbox, with its password on the input and never among the arguments. -/
def buildEmailAddCommand : String → String → CommandResult :=
  passwordCommand tables ["setup", "email", "add"]

/-- `email.update`: another password for a mailbox, on the input as above. -/
def buildEmailUpdateCommand : String → String → CommandResult :=
  passwordCommand tables ["setup", "email", "update"]

/-- `email.delete` for one or several mailboxes. Whether the stored mail goes too has to be said
in so many words. -/
def buildEmailDeleteCommand (emails : List String) (mailData : String) : CommandResult :=
  if mailData ≠ "delete" ∧ mailData ≠ "keep" then
    .error ("mailData must be exactly \"delete\" or \"keep\" — an explicit choice is " ++
      "required, there is no default")
  else if emails = [] then .error "at least one email address is required"
  else do
    acceptAll (fun email => validateAddressForArgv tables email false) emails
    let flag := if mailData = "delete" then "-y" else "-n"
    return ⟨["setup", "email", "del", flag] ++ emails, none⟩

/-- `email.restrict`: adds, removes or lists the addresses that may not send or receive. -/
def buildEmailRestrictCommand (action scope : String) (email : Option String) : CommandResult :=
  if action ≠ "add" ∧ action ≠ "del" ∧ action ≠ "list" then
    .error "action must be \"add\", \"del\" or \"list\""
  else if scope ≠ "send" ∧ scope ≠ "receive" then
    .error "scope must be \"send\" or \"receive\""
  else
    match email with
    | none =>
        if action ≠ "list" then .error ("email is required for action \"" ++ action ++ "\"")
        else .ok ⟨["setup", "email", "restrict", action, scope], none⟩
    | some email => do
        accept (validateAddressForArgv tables email false)
        return ⟨["setup", "email", "restrict", action, scope, email], none⟩

/-- `email.list`, which has no parameter. -/
def buildEmailListCommand : CommandResult := .ok ⟨["setup", "email", "list"], none⟩

/-- A command with an alias and its recipient at its end. -/
def aliasCommand (argv : List String) (aliasAddress recipient : String) : CommandResult := do
  accept (validateAddressForArgv tables aliasAddress true)
  accept (validateAddressForArgv tables recipient false)
  return ⟨argv ++ [aliasAddress, recipient], none⟩

/-- `alias.add`: one recipient of an alias. An alias with several is built up by several
commands. -/
def buildAliasAddCommand : String → String → CommandResult :=
  aliasCommand tables ["setup", "alias", "add"]

/-- `alias.del`: takes one recipient of an alias away. -/
def buildAliasDeleteCommand : String → String → CommandResult :=
  aliasCommand tables ["setup", "alias", "del"]

/-- `alias.list`, which has no parameter. -/
def buildAliasListCommand : CommandResult := .ok ⟨["setup", "alias", "list"], none⟩

/-- `quota.set`. A catch-all address has no quota and is refused. -/
def buildQuotaSetCommand (email quota : String) : CommandResult := do
  accept (validateAddressForArgv tables email false)
  accept (validateQuota quota)
  return ⟨["setup", "quota", "set", email, quota], none⟩

/-- A command with one mailbox at its end. The builders that are instances of it differ only in
the words before the mailbox. -/
def mailboxCommand (argv : List String) (email : String) : CommandResult := do
  accept (validateAddressForArgv tables email false)
  return ⟨argv ++ [email], none⟩

/-- `quota.del`: a mailbox goes back to having no limit. -/
def buildQuotaDeleteCommand : String → CommandResult :=
  mailboxCommand tables ["setup", "quota", "del"]

/-- How much of its quota a mailbox uses, as JSON. -/
def buildDoveadmQuotaGetCommand : String → CommandResult :=
  mailboxCommand tables ["doveadm", "-f", "json", "quota", "get", "-u"]

/-- The optional size of a DKIM key, with the word that introduces it. -/
def keysizeArguments : Option JsNumber → Except String (List String)
  | none => .ok []
  | some keysize => do
      accept (validateDkimKeysize keysize)
      return ["keysize", numberText keysize]

/-- The optional selector of a DKIM key, with the word that introduces it. -/
def selectorArguments : Option String → Except String (List String)
  | none => .ok []
  | some selector => do
      accept (validateDkimSelector selector)
      return ["selector", selector]

/-- The optional domains of a DKIM key, validated one by one and joined by commas into one
argument. -/
def domainArguments : Option (List String) → Except String (List String)
  | none => .ok []
  | some domains =>
      if domains = [] then .error "domains must not be an empty list"
      else do
        acceptAll (validateDomain tables) domains
        return ["domain", ",".intercalate domains]

/-- `config.dkim`: the three optional parts follow each other in a fixed order. -/
def buildConfigDkimCommand (keysize : Option JsNumber) (selector : Option String)
    (domains : Option (List String)) : CommandResult := do
  let size ← keysizeArguments keysize
  let name ← selectorArguments selector
  let list ← domainArguments tables domains
  return ⟨["setup", "config", "dkim"] ++ size ++ name ++ list, none⟩

/-- `fail2ban` without a verb lists what is banned. -/
def buildFail2banListCommand : CommandResult := .ok ⟨["setup", "fail2ban"], none⟩

/-- A command with an address of the network at its end. -/
def ipCommand (argv : List String) (ip : String) : CommandResult := do
  accept (validateIpAddress ip)
  return ⟨argv ++ [ip], none⟩

/-- `fail2ban.ban` for one address. -/
def buildFail2banBanCommand : String → CommandResult := ipCommand ["setup", "fail2ban", "ban"]

/-- `fail2ban.unban` for one address. -/
def buildFail2banUnbanCommand : String → CommandResult :=
  ipCommand ["setup", "fail2ban", "unban"]

/-- `fail2ban.log`, which has no parameter. -/
def buildFail2banLogCommand : CommandResult := .ok ⟨["setup", "fail2ban", "log"], none⟩

/-- `fail2ban.status`, which has no parameter. -/
def buildFail2banStatusCommand : CommandResult := .ok ⟨["setup", "fail2ban", "status"], none⟩

/-- Where the virus scanner listens inside the container. -/
def clamdSocketPath : String := "/var/run/clamav/clamd.ctl"

/-- Sends one word of the scanner's protocol over its socket, on the input. The request's schema
has a fixed list of such words. -/
def buildClamdCommand (verb : String) : CommandResult :=
  .ok ⟨["socat", "-", "UNIX-CONNECT:" ++ clamdSocketPath], some (verb ++ "\n")⟩

/-- Updates the signatures of the virus scanner. -/
def buildFreshclamCommand : CommandResult := .ok ⟨["freshclam"], none⟩

/-- The end of the mail log, in which the scanner's findings are looked for. -/
def buildClamavLogTailCommand : CommandResult :=
  .ok ⟨["tail", "-n", "5000", "/var/log/mail/mail.log"], none⟩

/-- The scripts of a mailbox, as JSON. -/
def buildSieveListCommand : String → CommandResult :=
  mailboxCommand tables ["doveadm", "-f", "json", "sieve", "list", "-u"]

/-- A command with a user and a script at its end, and possibly a script's text on its input. -/
def scriptCommand (argv : List String) (user script : String) (stdin : Option String) :
    CommandResult := do
  accept (validateAddressForArgv tables user false)
  accept (validateSieveScriptName script)
  return ⟨argv ++ [user, script], stdin⟩

/-- The text of a script. -/
def buildSieveGetCommand (user script : String) : CommandResult :=
  scriptCommand tables ["doveadm", "sieve", "get", "-u"] user script none

/-- Stores a script. Its text goes in on the input, so that no shell and no argument list ever
sees it. -/
def buildSievePutCommand (user script content : String) : CommandResult :=
  scriptCommand tables ["doveadm", "sieve", "put", "-u"] user script (some content)

/-- Makes a stored script the one that runs. -/
def buildSieveActivateCommand (user script : String) : CommandResult :=
  scriptCommand tables ["doveadm", "sieve", "activate", "-u"] user script none

/-- Leaves a mailbox without a script that runs. -/
def buildSieveDeactivateCommand : String → CommandResult :=
  mailboxCommand tables ["doveadm", "sieve", "deactivate", "-u"]

/-- The mail queue, as JSON. -/
def buildPostqueueJsonCommand : CommandResult := .ok ⟨["postqueue", "-j"], none⟩

end Builders

/-- The requests that a builder serves, each with the parameters that its schema lets through. -/
inductive DmsRequest where
  | emailAdd (email password : String)
  | emailUpdate (email password : String)
  | emailDel (emails : List String) (mailData : String)
  | emailRestrict (action scope : String) (email : Option String)
  | emailList
  | aliasAdd (aliasAddress recipient : String)
  | aliasDel (aliasAddress recipient : String)
  | aliasList
  | quotaSet (email quota : String)
  | quotaDel (email : String)
  | quotaGet (email : String)
  | dkimGenerate (keysize : Option JsNumber) (selector : Option String)
      (domains : Option (List String))
  | fail2banList
  | fail2banStatus
  | fail2banLog
  | fail2banBan (ip : String)
  | fail2banUnban (ip : String)
  | clamdControl (verb : String)
  | clamavUpdate
  | clamavLog
  | sieveList (user : String)
  | sieveGet (user script : String)
  | sievePut (user script content : String)
  | sieveActivate (user script : String)
  | sieveDeactivate (user : String)
  | queueList
deriving DecidableEq, Repr

/-- `DMS_COMMAND_BUILDERS`: the table that leads from a request to its builder. -/
def DmsRequest.build (tables : UnicodeTables) : DmsRequest → CommandResult
  | .emailAdd email password => buildEmailAddCommand tables email password
  | .emailUpdate email password => buildEmailUpdateCommand tables email password
  | .emailDel emails mailData => buildEmailDeleteCommand tables emails mailData
  | .emailRestrict action scope email => buildEmailRestrictCommand tables action scope email
  | .emailList => buildEmailListCommand
  | .aliasAdd aliasAddress recipient => buildAliasAddCommand tables aliasAddress recipient
  | .aliasDel aliasAddress recipient => buildAliasDeleteCommand tables aliasAddress recipient
  | .aliasList => buildAliasListCommand
  | .quotaSet email quota => buildQuotaSetCommand tables email quota
  | .quotaDel email => buildQuotaDeleteCommand tables email
  | .quotaGet email => buildDoveadmQuotaGetCommand tables email
  | .dkimGenerate keysize selector domains =>
      buildConfigDkimCommand tables keysize selector domains
  | .fail2banList => buildFail2banListCommand
  | .fail2banStatus => buildFail2banStatusCommand
  | .fail2banLog => buildFail2banLogCommand
  | .fail2banBan ip => buildFail2banBanCommand ip
  | .fail2banUnban ip => buildFail2banUnbanCommand ip
  | .clamdControl verb => buildClamdCommand verb
  | .clamavUpdate => buildFreshclamCommand
  | .clamavLog => buildClamavLogTailCommand
  | .sieveList user => buildSieveListCommand tables user
  | .sieveGet user script => buildSieveGetCommand tables user script
  | .sievePut user script content => buildSievePutCommand tables user script content
  | .sieveActivate user script => buildSieveActivateCommand tables user script
  | .sieveDeactivate user => buildSieveDeactivateCommand tables user
  | .queueList => buildPostqueueJsonCommand

/- The form of a command line -/

/-- Which rule a leaf value has passed. The rules are named after the validators, and a word of
an argument vector that comes from a request always carries the rule that let it in. -/
inductive LeafRule where
  | address (allowCatchAll : Bool)
  | quota
  | ip
  | selector
  | keysize
  | script
  | action
  | scope
deriving DecidableEq, Repr

/-- One argument: a literal of the operation, a leaf value of the request, or a list of
domains. -/
inductive Slot where
  | literal (text : String)
  | leaf (rule : LeafRule) (text : String)
  | domains (domains : List String)
deriving DecidableEq, Repr

namespace Slot

/-- The argument that a slot turns into. -/
def text : Slot → String
  | .literal text => text
  | .leaf _ text => text
  | .domains names => ",".intercalate names

/-- The values in a slot that came from outside. -/
def leaves : Slot → List String
  | .literal _ => []
  | .leaf _ text => [text]
  | .domains names => names

end Slot

/-- What it means to have passed a rule: the validator has no message for the text, and a key
size is the text of a number that it accepts. -/
def LeafRule.Passes (tables : UnicodeTables) (text : String) : LeafRule → Prop
  | .address allowCatchAll => validateAddressForArgv tables text allowCatchAll = none
  | .quota => validateQuota text = none
  | .ip => validateIpAddress text = none
  | .selector => validateDkimSelector text = none
  | .keysize => ∃ keysize, validateDkimKeysize keysize = none ∧ text = numberText keysize
  | .script => validateSieveScriptName text = none
  | .action => text ∈ ["add", "del", "list"]
  | .scope => text ∈ ["send", "receive"]

/-- A slot of the source's own words needs no validation, and every value from outside has
passed its rule. -/
def Slot.Validated (tables : UnicodeTables) : Slot → Prop
  | .literal _ => True
  | .leaf rule text => rule.Passes tables text
  | .domains names => names ≠ [] ∧ ∀ domain ∈ names, validateDomain tables domain = none

/-- Slots that hold words of the source. -/
def literals (texts : List String) : List Slot := texts.map Slot.literal

namespace DmsRequest

/-- The literals and leaf values of a request, in their places. It says the argument vector of
every request with what may stand where, and the builder's own vector is compared with it. -/
def slots : DmsRequest → List Slot
  | .emailAdd email _ => literals ["setup", "email", "add"] ++ [.leaf (.address false) email]
  | .emailUpdate email _ =>
      literals ["setup", "email", "update"] ++ [.leaf (.address false) email]
  | .emailDel emails mailData =>
      literals ["setup", "email", "del", if mailData = "delete" then "-y" else "-n"] ++
        emails.map (Slot.leaf (.address false))
  | .emailRestrict action scope email =>
      literals ["setup", "email", "restrict"] ++
        [.leaf .action action, .leaf .scope scope] ++
          email.toList.map (Slot.leaf (.address false))
  | .emailList => literals ["setup", "email", "list"]
  | .aliasAdd aliasAddress recipient =>
      literals ["setup", "alias", "add"] ++
        [.leaf (.address true) aliasAddress, .leaf (.address false) recipient]
  | .aliasDel aliasAddress recipient =>
      literals ["setup", "alias", "del"] ++
        [.leaf (.address true) aliasAddress, .leaf (.address false) recipient]
  | .aliasList => literals ["setup", "alias", "list"]
  | .quotaSet email quota =>
      literals ["setup", "quota", "set"] ++ [.leaf (.address false) email, .leaf .quota quota]
  | .quotaDel email => literals ["setup", "quota", "del"] ++ [.leaf (.address false) email]
  | .quotaGet email =>
      literals ["doveadm", "-f", "json", "quota", "get", "-u"] ++ [.leaf (.address false) email]
  | .dkimGenerate keysize selector domains =>
      literals ["setup", "config", "dkim"] ++
        keysize.toList.flatMap (fun size => [.literal "keysize", .leaf .keysize (numberText size)]) ++
          selector.toList.flatMap (fun name => [.literal "selector", .leaf .selector name]) ++
            domains.toList.flatMap (fun list => [.literal "domain", .domains list])
  | .fail2banList => literals ["setup", "fail2ban"]
  | .fail2banStatus => literals ["setup", "fail2ban", "status"]
  | .fail2banLog => literals ["setup", "fail2ban", "log"]
  | .fail2banBan ip => literals ["setup", "fail2ban", "ban"] ++ [.leaf .ip ip]
  | .fail2banUnban ip => literals ["setup", "fail2ban", "unban"] ++ [.leaf .ip ip]
  | .clamdControl _ => literals ["socat", "-", "UNIX-CONNECT:/var/run/clamav/clamd.ctl"]
  | .clamavUpdate => literals ["freshclam"]
  | .clamavLog => literals ["tail", "-n", "5000", "/var/log/mail/mail.log"]
  | .sieveList user =>
      literals ["doveadm", "-f", "json", "sieve", "list", "-u"] ++ [.leaf (.address false) user]
  | .sieveGet user script =>
      literals ["doveadm", "sieve", "get", "-u"] ++
        [.leaf (.address false) user, .leaf .script script]
  | .sievePut user script _ =>
      literals ["doveadm", "sieve", "put", "-u"] ++
        [.leaf (.address false) user, .leaf .script script]
  | .sieveActivate user script =>
      literals ["doveadm", "sieve", "activate", "-u"] ++
        [.leaf (.address false) user, .leaf .script script]
  | .sieveDeactivate user =>
      literals ["doveadm", "sieve", "deactivate", "-u"] ++ [.leaf (.address false) user]
  | .queueList => literals ["postqueue", "-j"]

/-- The same request with another password or script body. -/
def withSecret (secret : String) : DmsRequest → DmsRequest
  | .emailAdd email _ => .emailAdd email secret
  | .emailUpdate email _ => .emailUpdate email secret
  | .sievePut user script _ => .sievePut user script secret
  | request => request

theorem slots_withSecret (secret : String) (request : DmsRequest) :
    (request.withSecret secret).slots = request.slots := by
  cases request <;> rfl

end DmsRequest

section Accepted

variable {tables : UnicodeTables} {command : DmsCommand}

theorem accept_bind_eq_ok {Result : Type} {verdict : Option String}
    {next : Unit → Except String Result} {result : Result} :
    (accept verdict >>= next) = .ok result ↔ verdict = none ∧ next () = .ok result := by
  cases verdict with
  | none => simp [accept, bind, Except.bind]
  | some error => simp [accept, bind, Except.bind]

theorem acceptAll_eq_ok {validate : String → Option String} {values : List String} :
    acceptAll validate values = .ok () ↔ ∀ value ∈ values, validate value = none := by
  induction values with
  | nil => simp [acceptAll]
  | cons value rest ih => rw [acceptAll, accept_bind_eq_ok, ih, List.forall_mem_cons]

theorem acceptAll_bind_eq_ok {Result : Type} {validate : String → Option String}
    {values : List String} {next : Unit → Except String Result} {result : Result} :
    (acceptAll validate values >>= next) = .ok result ↔
      (∀ value ∈ values, validate value = none) ∧ next () = .ok result := by
  rw [← acceptAll_eq_ok]
  cases acceptAll validate values with
  | error error => simp [bind, Except.bind]
  | ok done => simp [bind, Except.bind]

theorem passwordCommand_eq_ok {argv : List String} {email password : String}
    (hok : passwordCommand tables argv email password = .ok command) :
    validateAddressForArgv tables email false = none ∧ validatePassword password = none ∧
      command = ⟨argv ++ [email], some (passwordStdin password)⟩ := by
  rw [passwordCommand, accept_bind_eq_ok, accept_bind_eq_ok] at hok
  exact ⟨hok.1, hok.2.1, (Except.ok.inj hok.2.2).symm⟩

theorem aliasCommand_eq_ok {argv : List String} {aliasAddress recipient : String}
    (hok : aliasCommand tables argv aliasAddress recipient = .ok command) :
    validateAddressForArgv tables aliasAddress true = none ∧
      validateAddressForArgv tables recipient false = none ∧
        command = ⟨argv ++ [aliasAddress, recipient], none⟩ := by
  rw [aliasCommand, accept_bind_eq_ok, accept_bind_eq_ok] at hok
  exact ⟨hok.1, hok.2.1, (Except.ok.inj hok.2.2).symm⟩

theorem mailboxCommand_eq_ok {argv : List String} {email : String}
    (hok : mailboxCommand tables argv email = .ok command) :
    validateAddressForArgv tables email false = none ∧ command = ⟨argv ++ [email], none⟩ := by
  rw [mailboxCommand, accept_bind_eq_ok] at hok
  exact ⟨hok.1, (Except.ok.inj hok.2).symm⟩

theorem ipCommand_eq_ok {argv : List String} {ip : String}
    (hok : ipCommand argv ip = .ok command) :
    validateIpAddress ip = none ∧ command = ⟨argv ++ [ip], none⟩ := by
  rw [ipCommand, accept_bind_eq_ok] at hok
  exact ⟨hok.1, (Except.ok.inj hok.2).symm⟩

theorem scriptCommand_eq_ok {argv : List String} {user script : String} {stdin : Option String}
    (hok : scriptCommand tables argv user script stdin = .ok command) :
    validateAddressForArgv tables user false = none ∧ validateSieveScriptName script = none ∧
      command = ⟨argv ++ [user, script], stdin⟩ := by
  rw [scriptCommand, accept_bind_eq_ok, accept_bind_eq_ok] at hok
  exact ⟨hok.1, hok.2.1, (Except.ok.inj hok.2.2).symm⟩

theorem buildEmailDeleteCommand_eq_ok {emails : List String} {mailData : String}
    (hok : buildEmailDeleteCommand tables emails mailData = .ok command) :
    (∀ email ∈ emails, validateAddressForArgv tables email false = none) ∧
      command = ⟨["setup", "email", "del", if mailData = "delete" then "-y" else "-n"] ++ emails,
        none⟩ := by
  rw [buildEmailDeleteCommand] at hok
  by_cases hchoice : mailData ≠ "delete" ∧ mailData ≠ "keep"
  · rw [if_pos hchoice] at hok
    cases hok
  · by_cases hempty : emails = []
    · rw [if_neg hchoice, if_pos hempty] at hok
      cases hok
    · rw [if_neg hchoice, if_neg hempty, acceptAll_bind_eq_ok] at hok
      exact ⟨hok.1, (Except.ok.inj hok.2).symm⟩

theorem buildEmailRestrictCommand_eq_ok {action scope : String} {email : Option String}
    (hok : buildEmailRestrictCommand tables action scope email = .ok command) :
    action ∈ ["add", "del", "list"] ∧ scope ∈ ["send", "receive"] ∧
      (∀ address ∈ email, validateAddressForArgv tables address false = none) ∧
        command = ⟨["setup", "email", "restrict", action, scope] ++ email.toList, none⟩ := by
  unfold buildEmailRestrictCommand at hok
  by_cases haction : action ≠ "add" ∧ action ≠ "del" ∧ action ≠ "list"
  · rw [if_pos haction] at hok
    cases hok
  by_cases hscope : scope ≠ "send" ∧ scope ≠ "receive"
  · rw [if_neg haction, if_pos hscope] at hok
    cases hok
  rw [if_neg haction, if_neg hscope] at hok
  refine ⟨?_, ?_, ?_⟩
  · simp only [List.mem_cons, List.not_mem_nil, or_false]
    tauto
  · simp only [List.mem_cons, List.not_mem_nil, or_false]
    tauto
  · cases email with
    | none =>
        dsimp only at hok
        by_cases hlist : action ≠ "list"
        · rw [if_pos hlist] at hok
          cases hok
        · rw [if_neg hlist] at hok
          exact ⟨by simp, (Except.ok.inj hok).symm⟩
    | some address =>
        dsimp only at hok
        rw [accept_bind_eq_ok] at hok
        exact ⟨by simpa using hok.1, (Except.ok.inj hok.2).symm⟩

theorem buildQuotaSetCommand_eq_ok {email quota : String}
    (hok : buildQuotaSetCommand tables email quota = .ok command) :
    validateAddressForArgv tables email false = none ∧ validateQuota quota = none ∧
      command = ⟨["setup", "quota", "set", email, quota], none⟩ := by
  rw [buildQuotaSetCommand, accept_bind_eq_ok, accept_bind_eq_ok] at hok
  exact ⟨hok.1, hok.2.1, (Except.ok.inj hok.2.2).symm⟩

theorem keysizeArguments_eq_ok {keysize : Option JsNumber} {arguments : List String}
    (hok : keysizeArguments keysize = .ok arguments) :
    (∀ size ∈ keysize, validateDkimKeysize size = none) ∧
      arguments = keysize.toList.flatMap fun size => ["keysize", numberText size] := by
  cases keysize with
  | none => exact ⟨by simp, (Except.ok.inj hok).symm⟩
  | some size =>
      rw [keysizeArguments, accept_bind_eq_ok] at hok
      exact ⟨by simpa using hok.1, (Except.ok.inj hok.2).symm⟩

theorem selectorArguments_eq_ok {selector : Option String} {arguments : List String}
    (hok : selectorArguments selector = .ok arguments) :
    (∀ name ∈ selector, validateDkimSelector name = none) ∧
      arguments = selector.toList.flatMap fun name => ["selector", name] := by
  cases selector with
  | none => exact ⟨by simp, (Except.ok.inj hok).symm⟩
  | some name =>
      rw [selectorArguments, accept_bind_eq_ok] at hok
      exact ⟨by simpa using hok.1, (Except.ok.inj hok.2).symm⟩

theorem domainArguments_eq_ok {domains : Option (List String)} {arguments : List String}
    (hok : domainArguments tables domains = .ok arguments) :
    (∀ list ∈ domains, list ≠ [] ∧ ∀ domain ∈ list, validateDomain tables domain = none) ∧
      arguments = domains.toList.flatMap fun list => ["domain", ",".intercalate list] := by
  cases domains with
  | none => exact ⟨by simp, (Except.ok.inj hok).symm⟩
  | some list =>
      rw [domainArguments] at hok
      by_cases hempty : list = []
      · rw [if_pos hempty] at hok
        cases hok
      · rw [if_neg hempty, acceptAll_bind_eq_ok] at hok
        refine ⟨?_, (Except.ok.inj hok.2).symm⟩
        intro other hother
        obtain rfl := Option.mem_some_iff.mp hother
        exact ⟨hempty, hok.1⟩

theorem bind_eq_ok {Value Result : Type} {first : Except String Value}
    {next : Value → Except String Result} {result : Result}
    (hok : (first >>= next) = .ok result) : ∃ value, first = .ok value ∧ next value = .ok result := by
  cases first with
  | error error => cases hok
  | ok value => exact ⟨value, rfl, hok⟩

theorem buildConfigDkimCommand_eq_ok {keysize : Option JsNumber} {selector : Option String}
    {domains : Option (List String)}
    (hok : buildConfigDkimCommand tables keysize selector domains = .ok command) :
    ∃ size name list, keysizeArguments keysize = .ok size ∧ selectorArguments selector = .ok name ∧
      domainArguments tables domains = .ok list ∧
        command = ⟨["setup", "config", "dkim"] ++ size ++ name ++ list, none⟩ := by
  rw [buildConfigDkimCommand] at hok
  obtain ⟨size, hsize, hok⟩ := bind_eq_ok hok
  obtain ⟨name, hname, hok⟩ := bind_eq_ok hok
  obtain ⟨list, hlist, hok⟩ := bind_eq_ok hok
  exact ⟨size, name, list, hsize, hname, hlist, (Except.ok.inj hok).symm⟩

end Accepted

section Form

variable {tables : UnicodeTables} {command : DmsCommand}

@[simp]
theorem text_literals (texts : List String) : (literals texts).map Slot.text = texts := by
  rw [literals, List.map_map]
  exact List.map_id texts

theorem validated_literals (texts : List String) :
    ∀ slot ∈ literals texts, slot.Validated tables := by
  intro slot hslot
  obtain ⟨text, -, rfl⟩ := List.mem_map.mp hslot
  trivial

/-- Literals and one leaf value. -/
theorem validated_append {before after : List Slot}
    (hbefore : ∀ slot ∈ before, slot.Validated tables)
    (hafter : ∀ slot ∈ after, slot.Validated tables) :
    ∀ slot ∈ before ++ after, slot.Validated tables :=
  List.forall_mem_append.mpr ⟨hbefore, hafter⟩

/-- A command is what its request's slots say, and every leaf value has passed its rule. -/
def Formed (tables : UnicodeTables) (request : DmsRequest) (command : DmsCommand) : Prop :=
  command.argv = request.slots.map Slot.text ∧ ∀ slot ∈ request.slots, slot.Validated tables

theorem formed_dkimGenerate {keysize : Option JsNumber} {selector : Option String}
    {domains : Option (List String)}
    (hok : buildConfigDkimCommand tables keysize selector domains = .ok command) :
    Formed tables (.dkimGenerate keysize selector domains) command := by
  obtain ⟨size, name, list, hsize, hname, hlist, rfl⟩ := buildConfigDkimCommand_eq_ok hok
  obtain ⟨hkeysize, rfl⟩ := keysizeArguments_eq_ok hsize
  obtain ⟨hselector, rfl⟩ := selectorArguments_eq_ok hname
  obtain ⟨hdomains, rfl⟩ := domainArguments_eq_ok hlist
  constructor
  · cases keysize <;> cases selector <;> cases domains <;> rfl
  · refine validated_append (validated_append (validated_append (validated_literals _) ?_) ?_) ?_
    · intro slot hslot
      cases keysize with
      | none => exact absurd hslot List.not_mem_nil
      | some size =>
          rcases List.mem_pair.mp (by simpa using hslot) with rfl | rfl
          · trivial
          · exact ⟨size, hkeysize size rfl, rfl⟩
    · intro slot hslot
      cases selector with
      | none => exact absurd hslot List.not_mem_nil
      | some name =>
          rcases List.mem_pair.mp (by simpa using hslot) with rfl | rfl
          · trivial
          · exact hselector name rfl
    · intro slot hslot
      cases domains with
      | none => exact absurd hslot List.not_mem_nil
      | some list =>
          rcases List.mem_pair.mp (by simpa using hslot) with rfl | rfl
          · trivial
          · exact hdomains list rfl

theorem formed_emailDel {emails : List String} {mailData : String}
    (hok : buildEmailDeleteCommand tables emails mailData = .ok command) :
    Formed tables (.emailDel emails mailData) command := by
  obtain ⟨hemails, rfl⟩ := buildEmailDeleteCommand_eq_ok hok
  constructor
  · simp [DmsRequest.slots, Slot.text, Function.comp_def]
  · apply validated_append (validated_literals _)
    intro slot hslot
    obtain ⟨email, hemail, rfl⟩ := List.mem_map.mp hslot
    exact hemails email hemail

theorem formed_emailRestrict {action scope : String} {email : Option String}
    (hok : buildEmailRestrictCommand tables action scope email = .ok command) :
    Formed tables (.emailRestrict action scope email) command := by
  obtain ⟨haction, hscope, hemail, rfl⟩ := buildEmailRestrictCommand_eq_ok hok
  constructor
  · cases email <;> rfl
  · refine validated_append (validated_append (validated_literals _) ?_) ?_
    · exact List.forall_mem_cons.mpr ⟨haction, List.forall_mem_singleton.mpr hscope⟩
    · intro slot hslot
      obtain ⟨address, haddress, rfl⟩ := List.mem_map.mp hslot
      exact hemail address (Option.mem_toList.mp haddress)

theorem formed_of_build {request : DmsRequest} (hok : request.build tables = .ok command) :
    Formed tables request command := by
  have hone : ∀ {slot : Slot}, slot.Validated tables → ∀ other ∈ [slot], other.Validated tables :=
    fun hslot => List.forall_mem_singleton.mpr hslot
  have htwo : ∀ {first second : Slot}, first.Validated tables → second.Validated tables →
      ∀ other ∈ [first, second], other.Validated tables :=
    fun hfirst hsecond => List.forall_mem_cons.mpr ⟨hfirst, hone hsecond⟩
  cases request with
  | emailAdd email password =>
      obtain ⟨hemail, -, rfl⟩ := passwordCommand_eq_ok hok
      exact ⟨rfl, validated_append (validated_literals _) (hone hemail)⟩
  | emailUpdate email password =>
      obtain ⟨hemail, -, rfl⟩ := passwordCommand_eq_ok hok
      exact ⟨rfl, validated_append (validated_literals _) (hone hemail)⟩
  | emailDel emails mailData => exact formed_emailDel hok
  | emailRestrict action scope email => exact formed_emailRestrict hok
  | aliasAdd aliasAddress recipient =>
      obtain ⟨halias, hrecipient, rfl⟩ := aliasCommand_eq_ok hok
      exact ⟨rfl, validated_append (validated_literals _) (htwo halias hrecipient)⟩
  | aliasDel aliasAddress recipient =>
      obtain ⟨halias, hrecipient, rfl⟩ := aliasCommand_eq_ok hok
      exact ⟨rfl, validated_append (validated_literals _) (htwo halias hrecipient)⟩
  | quotaSet email quota =>
      obtain ⟨hemail, hquota, rfl⟩ := buildQuotaSetCommand_eq_ok hok
      exact ⟨rfl, validated_append (validated_literals _) (htwo hemail hquota)⟩
  | quotaDel email =>
      obtain ⟨hemail, rfl⟩ := mailboxCommand_eq_ok hok
      exact ⟨rfl, validated_append (validated_literals _) (hone hemail)⟩
  | quotaGet email =>
      obtain ⟨hemail, rfl⟩ := mailboxCommand_eq_ok hok
      exact ⟨rfl, validated_append (validated_literals _) (hone hemail)⟩
  | dkimGenerate keysize selector domains => exact formed_dkimGenerate hok
  | fail2banBan ip =>
      obtain ⟨hip, rfl⟩ := ipCommand_eq_ok hok
      exact ⟨rfl, validated_append (validated_literals _) (hone hip)⟩
  | fail2banUnban ip =>
      obtain ⟨hip, rfl⟩ := ipCommand_eq_ok hok
      exact ⟨rfl, validated_append (validated_literals _) (hone hip)⟩
  | sieveList user =>
      obtain ⟨huser, rfl⟩ := mailboxCommand_eq_ok hok
      exact ⟨rfl, validated_append (validated_literals _) (hone huser)⟩
  | sieveGet user script =>
      obtain ⟨huser, hscript, rfl⟩ := scriptCommand_eq_ok hok
      exact ⟨rfl, validated_append (validated_literals _) (htwo huser hscript)⟩
  | sievePut user script content =>
      obtain ⟨huser, hscript, rfl⟩ := scriptCommand_eq_ok hok
      exact ⟨rfl, validated_append (validated_literals _) (htwo huser hscript)⟩
  | sieveActivate user script =>
      obtain ⟨huser, hscript, rfl⟩ := scriptCommand_eq_ok hok
      exact ⟨rfl, validated_append (validated_literals _) (htwo huser hscript)⟩
  | sieveDeactivate user =>
      obtain ⟨huser, rfl⟩ := mailboxCommand_eq_ok hok
      exact ⟨rfl, validated_append (validated_literals _) (hone huser)⟩
  | _ =>
      obtain rfl := (Except.ok.inj hok).symm
      exact ⟨rfl, validated_literals _⟩

theorem plainLeaf_of_mem {text : String} {words : List String} (hword : text ∈ words)
    (hwords : ∀ word ∈ words, validateDkimSelector word = none) : PlainLeaf text :=
  PlainLeaf.of_selector (hwords text hword)

theorem LeafRule.Passes.plain {rule : LeafRule} {text : String}
    (hpasses : rule.Passes tables text) : PlainLeaf text := by
  cases rule with
  | address allowCatchAll => exact PlainLeaf.of_address hpasses
  | quota => exact PlainLeaf.of_quota hpasses
  | ip => exact PlainLeaf.of_ip hpasses
  | selector => exact PlainLeaf.of_selector hpasses
  | keysize =>
      obtain ⟨keysize, hvalid, rfl⟩ := hpasses
      obtain ⟨size, rfl, hpos, hplain⟩ := PlainLeaf.of_keysize hvalid
      rw [numberText, if_neg hpos.ne', if_neg hpos.not_gt]
      exact hplain
  | script => exact PlainLeaf.of_sieveScriptName hpasses
  | action => exact plainLeaf_of_mem hpasses (by decide)
  | scope => exact plainLeaf_of_mem hpasses (by decide)

theorem Slot.Validated.plain {slot : Slot} (hvalidated : slot.Validated tables) :
    ∀ text ∈ slot.leaves, PlainLeaf text := by
  cases slot with
  | literal text => exact fun text htext => absurd htext List.not_mem_nil
  | leaf rule text => exact List.forall_mem_singleton.mpr (LeafRule.Passes.plain hvalidated)
  | domains names => exact fun name hname => PlainLeaf.of_domain (hvalidated.2 name hname)

/-- No mailbox is mistaken for one of the flags. -/
theorem count_flag {emails : List String} {flag : String}
    (hemails : ∀ email ∈ emails, validateAddressForArgv tables email false = none)
    (hflag : flag.toList.head? = some '-') : emails.count flag = 0 := by
  apply List.count_eq_zero_of_not_mem
  intro hmem
  exact (PlainLeaf.of_address (hemails flag hmem)).dash hflag

theorem splitOn_joined {names : List String} (hne : names ≠ [])
    (hnames : ∀ name ∈ names, validateDomain tables name = none) :
    ((",".intercalate names).toList.splitOn ',').map String.ofList = names := by
  have hcomma : ∀ text ∈ names.map String.toList, ',' ∉ text := by
    intro text htext hmem
    obtain ⟨name, hname, rfl⟩ := List.mem_map.mp htext
    obtain ⟨-, -, hshape⟩ := validateDomain_eq_none (hnames name hname)
    exact (domainChar_spec (mem_domain hshape hmem)).2.1 rfl
  have hseparator : ",".toList = [','] := by decide
  have hsplit := List.splitOn_intercalate ',' hcomma (by simpa using hne)
  rw [String.toList_intercalate, hseparator, hsplit, List.map_map]
  have hback : String.ofList ∘ String.toList = id := funext fun name => String.ofList_toList
  rw [hback, List.map_id]

end Form

/-- What holds of every command that a builder returns: each argument is a word of the source or
a validated value, and none can be taken for an option. -/
structure DmsCommand.Safe (tables : UnicodeTables) (request : DmsRequest)
    (command : DmsCommand) : Prop where
  argv : command.argv = request.slots.map Slot.text
  validated : ∀ slot ∈ request.slots, slot.Validated tables
  plain : ∀ slot ∈ request.slots, ∀ text ∈ slot.leaves, PlainLeaf text
  /-- With another password or script body the arguments are the same. -/
  secret : ∀ secret other, (request.withSecret secret).build tables = .ok other →
    other.argv = command.argv
  deletion : ∀ emails mailData, request = .emailDel emails mailData →
    command.argv.count "-y" + command.argv.count "-n" = 1
  domains : ∀ keysize selector names, request = .dkimGenerate keysize selector (some names) →
    ∃ before joined, command.argv = before ++ ["domain", joined] ∧
      (joined.toList.splitOn ',').map String.ofList = names

/-- Whatever a builder returns is safe: its program and subcommand are words of the source,
every value from the request has passed the rule for its place, none of them can be taken for an
option, and secrets and scripts are on the input only. -/
theorem safe_of_build (tables : UnicodeTables) (request : DmsRequest) (command : DmsCommand)
    (hok : request.build tables = .ok command) : command.Safe tables request := by
  obtain ⟨hargv, hvalidated⟩ := formed_of_build hok
  refine ⟨hargv, hvalidated, fun slot hslot => (hvalidated slot hslot).plain, ?_, ?_, ?_⟩
  · intro secret other hother
    obtain ⟨hsame, -⟩ := formed_of_build hother
    rw [hsame, hargv, request.slots_withSecret]
  · rintro emails mailData rfl
    obtain ⟨hemails, rfl⟩ := buildEmailDeleteCommand_eq_ok hok
    rw [List.count_append, List.count_append, count_flag hemails (by decide),
      count_flag hemails (by decide)]
    by_cases hdelete : mailData = "delete"
    · rw [if_pos hdelete]
      decide
    · rw [if_neg hdelete]
      decide
  · rintro keysize selector names rfl
    obtain ⟨size, name, list, -, -, hlist, rfl⟩ := buildConfigDkimCommand_eq_ok hok
    obtain ⟨hdomains, rfl⟩ := domainArguments_eq_ok hlist
    obtain ⟨hne, hnames⟩ := hdomains names rfl
    refine ⟨["setup", "config", "dkim"] ++ size ++ name, ",".intercalate names, ?_,
      splitOn_joined hne hnames⟩
    simp

/-- The answer to the prompt of a deletion is its one flag, and an address cannot bring another. -/
example :
    (DmsRequest.emailDel ["ann@example.com", "bob@example.com"] "delete").build .ascii =
        .ok ⟨["setup", "email", "del", "-y", "ann@example.com", "bob@example.com"], none⟩ ∧
      (DmsRequest.emailDel ["ann@example.com", "-y"] "delete").build .ascii =
        .error "address must not start with \"-\" (would be read as a command-line flag)" := by
  decide +kernel

namespace TwoDomains

def request : DmsRequest :=
  .dkimGenerate (some (.finite 2048)) (some "mail") (some ["example.com", "example.org"])

def line : DmsCommand :=
  ⟨["setup", "config", "dkim", "keysize", "2048", "selector", "mail", "domain",
    "example.com,example.org"], none⟩

/-- A key for two domains: all three optional parts are there, and the domains make one
argument. -/
theorem line_safe : request.build .ascii = .ok line ∧ line.Safe .ascii request :=
  have hbuild : request.build .ascii = .ok line := by decide +kernel
  ⟨hbuild, safe_of_build .ascii request line hbuild⟩

end TwoDomains

/- The prompt for a password -/

/-- The first line, and what follows it; there is none without its line break. -/
def readLine (input : List Char) : Option (List Char × List Char) :=
  match input.dropWhile (· ≠ '\n') with
  | [] => none
  | _ :: rest => some (input.takeWhile (· ≠ '\n'), rest)

/-- The password, its confirmation, and what is left of the input. -/
def readPrompt (input : List Char) : Option (String × String × String) :=
  (readLine input).bind fun (password, input) =>
    (readLine input).map fun (confirmation, input) =>
      (String.ofList password, String.ofList confirmation, String.ofList input)

/-- The prompt reads the password twice, and nothing is left over. -/
def Delivers (command : DmsCommand) (password : String) : Prop :=
  ∃ input, command.stdin = some input ∧ readPrompt input.toList = some (password, password, "")

theorem readLine_append {line : List Char} (hline : '\n' ∉ line) (rest : List Char) :
    readLine (line ++ '\n' :: rest) = some (line, rest) := by
  have hall : ∀ c ∈ line, (decide (c ≠ '\n')) = true := by
    intro c hc
    rw [decide_eq_true_eq]
    rintro rfl
    exact hline hc
  have hdrop : (line ++ '\n' :: rest).dropWhile (· ≠ '\n') = '\n' :: rest := by
    rw [List.dropWhile_append_of_pos hall, List.dropWhile_cons_of_neg (by decide)]
  have htake : (line ++ '\n' :: rest).takeWhile (· ≠ '\n') = line := by
    rw [List.takeWhile_append_of_pos hall, List.takeWhile_cons_of_neg (by decide),
      List.append_nil]
  rw [readLine, hdrop, htake]

/-- What is read of a line has no line break. -/
theorem not_mem_of_readLine {input line rest : List Char}
    (hread : readLine input = some (line, rest)) : '\n' ∉ line := by
  rw [readLine] at hread
  cases hdrop : input.dropWhile (· ≠ '\n') with
  | nil =>
      rw [hdrop] at hread
      cases hread
  | cons c other =>
      rw [hdrop] at hread
      obtain ⟨rfl, -⟩ := Prod.mk.inj (Option.some.inj hread)
      intro hmem
      simpa using List.mem_takeWhile_imp hmem

/-- The two lines that the builders write are read back unless the password has a line break, in
either command. The password's own rules are about its length and let a line break through. -/
theorem delivers_iff (tables : UnicodeTables) (email password : String) (command : DmsCommand)
    (hok : (DmsRequest.emailAdd email password).build tables = .ok command ∨
      (DmsRequest.emailUpdate email password).build tables = .ok command) :
    Delivers command password ↔ '\n' ∉ password.toList := by
  have hstdin : command.stdin = some (passwordStdin password) := by
    rcases hok with hok | hok
    · obtain ⟨-, -, rfl⟩ := passwordCommand_eq_ok hok
      rfl
    · obtain ⟨-, -, rfl⟩ := passwordCommand_eq_ok hok
      rfl
  have hinput : (passwordStdin password).toList =
      password.toList ++ '\n' :: (password.toList ++ '\n' :: []) := by
    simp [passwordStdin]
  constructor
  · rintro ⟨input, hinputs, hread⟩
    rw [readPrompt, Option.bind_eq_some_iff] at hread
    obtain ⟨⟨line, rest⟩, hline, hconfirmed⟩ := hread
    obtain ⟨⟨confirmation, left⟩, -, hsame⟩ := Option.map_eq_some_iff.mp hconfirmed
    obtain ⟨hpassword, -⟩ := Prod.mk.inj hsame
    rw [← hpassword, String.toList_ofList]
    exact not_mem_of_readLine hline
  · intro hplain
    refine ⟨passwordStdin password, hstdin, ?_⟩
    rw [hinput, readPrompt, readLine_append hplain, Option.bind_some]
    dsimp only
    rw [readLine_append hplain, Option.map_some, String.ofList_toList]

namespace TwoLines

/-- An accepted password whose two lines are the same. -/
def password : String := "first line 1\nfirst line 1"

def line (password : String) : DmsCommand :=
  ⟨["setup", "email", "add", "a@example.com"], some (passwordStdin password)⟩

/-- A password of one line, which is stored as it was chosen. -/
theorem single_delivered : Delivers (line "first line 1") "first line 1" :=
  (delivers_iff .ascii "a@example.com" "first line 1" (line "first line 1")
    (Or.inl (by decide))).mpr (by decide)

/-- The prompt takes the first line for the password, and finds it confirmed by the second line
of the password itself: the command succeeds, and another password than the chosen one is
stored. -/
theorem first_line_stored :
    (DmsRequest.emailAdd "a@example.com" password).build .ascii = .ok (line password) ∧
      readPrompt (passwordStdin password).toList =
        some ("first line 1", "first line 1", "first line 1\nfirst line 1\n") ∧
      ¬ Delivers (line password) password := by
  have hread : readPrompt (passwordStdin password).toList =
      some ("first line 1", "first line 1", "first line 1\nfirst line 1\n") := by
    decide
  refine ⟨by decide, hread, ?_⟩
  rintro ⟨input, hinput, hdelivered⟩
  obtain rfl := Option.some.inj hinput
  rw [hread] at hdelivered
  exact absurd hdelivered (by decide)

end TwoLines

end Dms

end MailPanel

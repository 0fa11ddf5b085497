import MailPanel.GraphWalk
import MailPanel.PostfixVirtual

/-
The alias service: a new or changed alias is walked through the alias map before it is
written, line by line, through the driver.
-/

namespace MailPanel

namespace Aliases

/-- The codes of the errors that the service ends with: those it throws itself, and one for
whatever the driver threw, which the service passes on as it is. -/
inductive ErrorCode where
  | validationFailed
  | notFound
  | capabilityUnsupported
  | internal
  /-- What the driver threw. -/
  | driver
deriving DecidableEq, Repr

/-- An error by its code and the text for it. -/
structure AppError where
  code : ErrorCode
  message : String
deriving DecidableEq, Repr

/-- Whether the installation supports something, and the reason if it does not. -/
structure Capability where
  supported : Bool
  reason : Option String
deriving DecidableEq, Repr

/-- The mail server, as far as aliases go: what it lists, and what its two commands do to it. -/
structure DmsDriver (State : Type) where
  localAccountManagement : State → Capability
  localDomains : State → List String
  listAliases : State → List PostfixVirtualEntry
  addAlias : State → String → String → Except AppError State
  deleteAlias : State → String → String → Except AppError State

/-- Where the recipients of an alias are: all here, all elsewhere, or some of each. -/
inductive AliasType where
  | internal
  | external
  | mixed
deriving DecidableEq, Repr

/-- An alias as the panel shows it: one entry for an address, with all its recipients and the
kind that is read off the address and off how many recipients there are. -/
structure AliasSummary where
  id : String
  address : String
  isCatchAll : Bool
  domain : String
  recipients : List String
  type : AliasType
deriving DecidableEq, Repr

section Service

variable (toLowerCase : String → String)

/-- What follows the last `@` of an address, in lower case. -/
def domainOf (address : String) : String :=
  if '@' ∈ address.toList then
    toLowerCase (String.ofList (address.toList.reverse.takeWhile (· ≠ '@')).reverse)
  else ""

/-- Compares the recipients' domains with those of the local mailboxes. -/
def classifyAliasType (recipients localDomains : List String) : AliasType :=
  let internalCount :=
    recipients.countP fun recipient => domainOf toLowerCase recipient ∈ localDomains
  if internalCount = recipients.length then .internal
  else if internalCount = 0 then .external
  else .mixed

/-- The summary of one listed line. The kind is decided by how many recipients there are and by
the domains that the mail server itself serves. -/
def toAliasSummaryDto (entry : PostfixVirtualEntry) (localDomains : List String) :
    AliasSummary where
  id := entry.address
  address := entry.address
  isCatchAll := entry.isCatchAll
  domain := entry.domain
  recipients := entry.recipients
  type := classifyAliasType toLowerCase entry.recipients localDomains

/-- The pairs that the map is built from, in the order of the listing. -/
abbrev AliasMap := List (String × List String)

/-- The last pair of a key counts, since the map's constructor overwrites the earlier ones. -/
def AliasMap.get (aliasMap : AliasMap) (key : String) : List String :=
  ((aliasMap.reverse.find? fun pair => pair.1 = key).map Prod.snd).getD []

/-- Every line is a pair, under its address in lower case. -/
def toAliasMap (entries : List PostfixVirtualEntry) : AliasMap :=
  entries.map fun entry => (toLowerCase entry.address, entry.recipients)

/-- The turns that the loop takes at most: every address is visited once, with all its
recipients. -/
def AliasMap.turns (aliasMap : AliasMap) (candidateRecipients : List String) : Nat :=
  candidateRecipients.length + (aliasMap.map fun pair => (aliasMap.get pair.1).length).sum

/-- Whether the source can be reached from the candidates through the map. The last candidate is
on top of the stack. -/
def detectsAliasLoop (aliasAddress : String) (candidateRecipients : List String)
    (aliasMap : AliasMap) : Bool :=
  GraphWalk.walk toLowerCase (fun current => (aliasMap.get current).reverse)
    (toLowerCase aliasAddress) (aliasMap.turns candidateRecipients) []
    candidateRecipients.reverse

variable {State : Type} (driver : DmsDriver State)

/-- The first line of an address, however its case is spelled. -/
def findEntry (entries : List PostfixVirtualEntry) (address : String) :
    Option PostfixVirtualEntry :=
  entries.find? fun entry => toLowerCase entry.address = toLowerCase address

/-- The alias as the panel shows it, read from the mail server at this moment. -/
def getByAddress (state : State) (address : String) : Option AliasSummary :=
  (findEntry toLowerCase (driver.listAliases state) address).map fun entry =>
    toAliasSummaryDto toLowerCase entry (driver.localDomains state)

/-- One call for each recipient, up to the first that throws. What the calls before it did
stays, and their state goes on to the handler of the error. -/
def forEach (call : State → String → String → Except AppError State)
    (aliasAddress : String) : List String → State → State × Option AppError
  | [], state => (state, none)
  | recipient :: rest, state =>
      match call state aliasAddress recipient with
      | .error error => (state, some error)
      | .ok next => forEach call aliasAddress rest next

/-- An installation with accounts of its own elsewhere does not have its aliases changed. -/
def assertLocalAccountManagementSupported (state : State) : Option AppError :=
  let capability := driver.localAccountManagement state
  if capability.supported then none
  else some ⟨.capabilityUnsupported, capability.reason.getD
    "Local mailbox/alias management is unsupported on this deployment."⟩

/-- `create`: the checks, then one command for each recipient, and at the end the alias as it is
listed. -/
def create (state : State) (aliasAddress : String) (recipients : List String) :
    State × Except AppError AliasSummary :=
  match assertLocalAccountManagementSupported driver state with
  | some error => (state, .error error)
  | none =>
      if detectsAliasLoop toLowerCase aliasAddress recipients
          (toAliasMap toLowerCase (driver.listAliases state)) then
        (state, .error ⟨.validationFailed, "Adding this alias would create a loop: one of its " ++
          "recipients eventually forwards back to " ++ aliasAddress ++ "."⟩)
      else
        match forEach driver.addAlias aliasAddress recipients state with
        | (next, some error) => (next, .error error)
        | (next, none) =>
            match getByAddress toLowerCase driver next aliasAddress with
            | none =>
                (next, .error ⟨.internal, "The alias was created but could not be read back."⟩)
            | some created => (next, .ok created)

/-- The members of a set that another does not have, each once. -/
def difference (these those : List String) : List String :=
  these.eraseDups.filter fun recipient => recipient ∉ those

theorem mem_difference {these those : List String} {recipient : String} :
    recipient ∈ difference these those ↔ recipient ∈ these ∧ recipient ∉ those := by
  rw [difference, List.mem_filter, List.mem_eraseDups, decide_eq_true_eq]

/-- `update`: the recipients that are new are added first, and only then those that are gone are
taken away. -/
def update (state : State) (address : String) (recipients : List String) :
    State × Except AppError AliasSummary :=
  match assertLocalAccountManagementSupported driver state with
  | some error => (state, .error error)
  | none =>
      match findEntry toLowerCase (driver.listAliases state) address with
      | none => (state, .error ⟨.notFound, "No alias exists for " ++ address ++ "."⟩)
      | some existing =>
          if detectsAliasLoop toLowerCase existing.address recipients
              (toAliasMap toLowerCase (driver.listAliases state)) then
            (state, .error ⟨.validationFailed, "Updating this alias would create a loop: " ++
              "one of its recipients eventually forwards back to " ++ existing.address ++ "."⟩)
          else
            match forEach driver.addAlias existing.address
                (difference recipients existing.recipients) state with
            | (added, some error) => (added, .error error)
            | (added, none) =>
                match forEach driver.deleteAlias existing.address
                    (difference existing.recipients recipients) added with
                | (next, some error) => (next, .error error)
                | (next, none) =>
                    match getByAddress toLowerCase driver next existing.address with
                    | none =>
                        (next, .error ⟨.notFound, "Alias " ++ existing.address ++
                          " no longer exists."⟩)
                    | some updated => (next, .ok updated)

/-- What the routes call; the recipients of a request are never empty. -/
inductive Operation where
  | create (aliasAddress : String) (recipients : List String)
  | update (address : String) (recipients : List String)
deriving DecidableEq, Repr

/-- The alias that an operation is about. -/
def Operation.aliasAddress : Operation → String
  | .create aliasAddress _ => aliasAddress
  | .update address _ => address

/-- The recipients that an operation asks for. -/
def Operation.recipients : Operation → List String
  | .create _ recipients | .update _ recipients => recipients

/-- An operation as the function of its name. -/
def perform (state : State) : Operation → State × Except AppError AliasSummary
  | .create aliasAddress recipients => create toLowerCase driver state aliasAddress recipients
  | .update address recipients => update toLowerCase driver state address recipients

/-- The mail server after an operation, whether it succeeded or not. -/
def step (state : State) (operation : Operation) : State :=
  (perform toLowerCase driver state operation).1

/-- An operation with recipients that ends without an error. -/
def succeeds (state : State) (operation : Operation) : Bool :=
  !operation.recipients.isEmpty &&
    match (perform toLowerCase driver state operation).2 with
    | .ok _ => true
    | .error _ => false

end Service

/-- What the two alias calls accept: an address or, for the first, a catch-all. -/
structure Validators where
  aliasAddress : String → Option String
  recipient : String → Option String

/-- The fixture checks both addresses before it changes anything; the first message is the one
that it throws. -/
def Validators.assertValid (validators : Validators) (aliasAddress recipient : String) : Option AppError :=
  ((validators.aliasAddress aliasAddress).orElse fun _ =>
    validators.recipient recipient).map fun reason => ⟨.driver, reason⟩

/-- The driver of a mail server: the panel reads the file itself, and has the server's own
commands write it. -/
def realDmsDriver {State : Type} (toLowerCase : String → String) (validators : Validators)
    (capability : State → Capability) (localDomains : State → List String)
    (readFile : State → Option (List Char)) (run : State → List String → Except AppError State) :
    DmsDriver State where
  localAccountManagement := capability
  localDomains := localDomains
  listAliases := fun state =>
    (parsePostfixVirtual toLowerCase ((readFile state).getD [])).entries
  addAlias := fun state aliasAddress recipient =>
    match validators.assertValid aliasAddress recipient with
    | some error => .error error
    | none => run state ["setup", "alias", "add", aliasAddress, recipient]
  deleteAlias := fun state aliasAddress recipient =>
    match validators.assertValid aliasAddress recipient with
    | some error => .error error
    | none => run state ["setup", "alias", "del", aliasAddress, recipient]

/- The driver that keeps the table in memory. -/

namespace FakeDmsDriver

variable (toLowerCase : String → String) (validators : Validators)

/-- The parts of an address as the fixture keeps them. A catch-all has no local part. -/
def splitAliasForFixture (address : String) : String × String :=
  match address.toList with
  | '@' :: domain => ("", toLowerCase (String.ofList domain))
  | chars =>
      (String.ofList (chars.takeWhile (· ≠ '@')),
        toLowerCase (String.ofList ((chars.dropWhile (· ≠ '@')).drop 1)))

/-- Adds a recipient to an alias, once, or a line for a new alias at the end. It is the
fixture's own edit, which checks both addresses first and throws where one is not valid. -/
def addAlias (aliases : List PostfixVirtualEntry) (aliasAddress recipient : String) :
    Except AppError (List PostfixVirtualEntry) :=
  match validators.assertValid aliasAddress recipient with
  | some error => .error error
  | none =>
      match aliases.find? fun entry => entry.address = aliasAddress with
      | some existing =>
          if recipient ∈ existing.recipients then .ok aliases
          else .ok (aliases.map fun entry =>
            if entry.address = aliasAddress then
              { entry with recipients := entry.recipients ++ [recipient] }
            else entry)
      | none =>
          let split := splitAliasForFixture toLowerCase aliasAddress
          .ok (aliases ++ [{
            address := aliasAddress
            isCatchAll := aliasAddress.toList.head? = some '@'
            localPart := split.1
            domain := split.2
            recipients := [recipient] }])

/-- Takes a recipient off an alias, and the line with its last recipient. An alias or a
recipient that is not there is an error, with the text that the fixture gives it. -/
def deleteAlias (aliases : List PostfixVirtualEntry) (aliasAddress recipient : String) :
    Except AppError (List PostfixVirtualEntry) :=
  match validators.assertValid aliasAddress recipient with
  | some error => .error error
  | none =>
      let missing : AppError := ⟨.driver, "No alias \"" ++ aliasAddress ++
        "\" with recipient \"" ++ recipient ++ "\" exists."⟩
      match aliases.find? fun entry => entry.address = aliasAddress with
      | none => .error missing
      | some existing =>
          if recipient ∉ existing.recipients then .error missing
          else
            .ok ((aliases.map fun entry =>
              if entry.address = aliasAddress then
                { entry with
                  recipients := entry.recipients.filter fun other => other ≠ recipient }
              else entry).filter fun entry => !entry.recipients.isEmpty)

end FakeDmsDriver

/-- Every account domain is local, and so is every aliasAddress domain. -/
def fakeDmsDriver (toLowerCase : String → String) (validators : Validators)
    (accountDomains : List String) : DmsDriver (List PostfixVirtualEntry) where
  localAccountManagement := fun _ => ⟨true, none⟩
  localDomains := fun aliases => accountDomains ++ aliases.map PostfixVirtualEntry.domain
  listAliases := fun aliases => aliases
  addAlias := FakeDmsDriver.addAlias toLowerCase validators
  deleteAlias := FakeDmsDriver.deleteAlias validators

end Aliases

end MailPanel

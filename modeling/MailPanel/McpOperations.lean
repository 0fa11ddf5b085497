import MailPanel.McpBearer

/-
Sending mail through the `mail_send` tool: the table of write operations, and what
the tool does between one wait and the next.
-/

namespace MailPanel

namespace Mcp

open RowTable

/-- The calls of which a row is kept, since they change the mailbox. -/
inductive OperationKind where
  | send
  | delete
  | restore
deriving DecidableEq, Repr

/-- A row starts pending. `unknown` is for a message that may or may not have gone out. -/
inductive OperationStatus where
  | pending
  | completed
  | failed
  | unknown
deriving DecidableEq, Repr

/-- What the answer to a repeated call is made of. Which fields are there depends on the kind
and the end of the operation. -/
structure OperationDetails where
  messageId : Option String
  recipients : Option Nat
  savedToSent : Option Bool
  accepted : Option Nat
  rejected : Option Nat
deriving DecidableEq, Repr

/-- One operation, written before it begins and finished once its fate is known. A crash in
between leaves it as it was written. -/
structure OperationRow where
  id : Id
  connectionId : Id
  kind : OperationKind
  status : OperationStatus
  idempotencyKey : Option String
  details : OperationDetails
  error : Option String
  createdAt : Time
  completedAt : Option Time
deriving DecidableEq, Repr

/-- Both rows have the key, and the unique index tells their keys apart only by value. -/
def OperationRow.sameIdempotencyKey (left right : OperationRow) : Bool :=
  left.connectionId = right.connectionId && left.kind = right.kind &&
    left.idempotencyKey.isSome && left.idempotencyKey = right.idempotencyKey

/-- Two rows that the table cannot hold together: the same id, or the same key for one kind of
call of one connection. -/
def OperationRow.conflicts (left right : OperationRow) : Bool :=
  left.id = right.id || left.sameIdempotencyKey right

/-- `mcp_operations`, with its primary key and its unique index. -/
structure Operations where
  rows : List OperationRow
  unique : rows.Pairwise fun left right => left.conflicts right = false

namespace Operations

/-- The table at the beginning. -/
def empty : Operations := ⟨[], List.Pairwise.nil⟩

/-- The insert throws when a constraint refuses the row, and the table stays as it was. -/
def create (operations : Operations) (row : OperationRow) : Option Operations :=
  if hfree : ∀ old ∈ operations.rows, old.conflicts row = false then
    some ⟨operations.rows ++ [row], List.pairwise_append.mpr
      ⟨operations.unique, List.pairwise_singleton _ row, fun old hold other hother => by
        rw [List.mem_singleton.mp hother]
        exact hfree old hold⟩⟩
  else none

/-- The rows that an idempotency key of a connection's calls leads to. -/
def ofKey (connectionId : Id) (kind : OperationKind) (key : String) (row : OperationRow) :
    Bool :=
  row.connectionId = connectionId && row.kind = kind && row.idempotencyKey = some key

/-- The row of an earlier call with this key. The unique index leaves at most one. -/
def findByIdempotencyKey (operations : Operations) (connectionId : Id) (kind : OperationKind)
    (key : String) : Option OperationRow :=
  operations.rows.find? (ofKey connectionId kind key)

/-- A row at the end of its operation. Its id, connection, kind and key are what they were. -/
def finished (id : Id) (status : OperationStatus) (details : OperationDetails)
    (error : Option String) (now : Time) (row : OperationRow) : OperationRow :=
  if row.id = id then
    { row with
      status := status
      details := details
      error := error.map fun text => String.ofList (text.toList.take 300)
      completedAt := some now }
  else row

section Finished

variable (id : Id) (status : OperationStatus) (details : OperationDetails)
  (error : Option String) (now : Time) (row : OperationRow)

@[simp]
theorem finished_id : (finished id status details error now row).id = row.id := by
  rw [finished]
  split <;> rfl

@[simp]
theorem finished_connectionId :
    (finished id status details error now row).connectionId = row.connectionId := by
  rw [finished]
  split <;> rfl

@[simp]
theorem finished_kind : (finished id status details error now row).kind = row.kind := by
  rw [finished]
  split <;> rfl

@[simp]
theorem finished_idempotencyKey :
    (finished id status details error now row).idempotencyKey = row.idempotencyKey := by
  rw [finished]
  split <;> rfl

theorem conflicts_finished (left right : OperationRow) :
    (finished id status details error now left).conflicts
        (finished id status details error now right) = left.conflicts right := by
  simp [OperationRow.conflicts, OperationRow.sameIdempotencyKey]

end Finished

/-- Finishes the row of one operation. The constraint still holds, as it speaks of nothing that
changes. -/
def finish (operations : Operations) (id : Id) (status : OperationStatus)
    (details : OperationDetails) (error : Option String) (now : Time) : Operations where
  rows := operations.rows.map (finished id status details error now)
  unique := by
    apply List.pairwise_map.mpr
    apply operations.unique.imp
    intro left right hfree
    rw [conflicts_finished]
    exact hfree

/-- Sends that count against the limits: those that may have reached the SMTP server. -/
def countSendsSince (operations : Operations) (connectionId : Id) (since : Time) : Nat :=
  operations.rows.countP fun row =>
    row.connectionId = connectionId && row.kind = .send &&
      (row.status = .pending || row.status = .completed || row.status = .unknown) &&
      since ≤ row.createdAt

end Operations

/-- The settings that only the tools read: the limits on calls, sends, recipients and
attachments, and whether a copy of a sent message is kept. -/
structure ToolSettings where
  toolCallsPerMinute : Nat
  sendsPerHour : Nat
  sendsPerDay : Nat
  maxRecipientsPerMessage : Nat
  maxAttachmentBytes : Nat
  saveSentCopies : Bool
deriving DecidableEq, Repr

/-- What went wrong with the mail server, as far as the tools tell the cases apart. One of them
says that nobody knows whether a message was sent. -/
inductive MailErrorKind where
  | authFailed
  | unavailable
  | notFound
  | staleReference
  | invalid
  | tooLarge
  | sendUncertain
  | sendRejected
deriving DecidableEq, Repr

/-- What a tool's code throws: a refusal of its own, an error of the mail server, or anything
else. -/
inductive ToolError where
  | toolFailure (message : String)
  | mailError (kind : MailErrorKind) (message : String)
  | other (message : String)
deriving DecidableEq, Repr

/-- The text that every error carries. -/
def ToolError.message : ToolError → String
  | .toolFailure message => message
  | .mailError _ message => message
  | .other message => message

/-- A message as its folder numbers it, under one validity of the numbers. -/
structure MessageRef where
  folder : String
  uidValidity : Nat
  uid : Nat
deriving DecidableEq, Repr

/-- A part of an outgoing message, already decoded. -/
structure Attachment where
  filename : String
  contentType : String
  content : List UInt8
deriving DecidableEq, Repr

/-- The tool's input as its schema admits it, attachments decoded.  A reply names a
message by an id that may decode to nothing. -/
structure SendArgs where
  «to» : List String
  cc : List String
  bcc : List String
  subject : String
  text : Option String
  html : Option String
  «from» : Option String
  fromName : Option String
  replyToMessageId : Option (Option MessageRef)
  attachments : List Attachment
  idempotencyKey : Option String
deriving DecidableEq, Repr

/-- The credential with which a mailbox is opened. -/
structure MailAccount where
  address : String
  password : String
deriving DecidableEq, Repr

/-- All that the SMTP client is given. The message id is drawn before the operation's row is
written. -/
structure OutgoingMessage where
  fromName : Option String
  fromAddress : String
  «to» : List String
  cc : List String
  bcc : List String
  subject : String
  text : Option String
  html : Option String
  inReplyTo : Option String
  references : Option String
  attachments : List Attachment
  messageId : String
deriving DecidableEq, Repr

/-- What the mail server did: whom it accepted, and whether the copy for the sent folder was
stored. -/
structure SendResult where
  accepted : List String
  rejected : List String
  savedToSent : Bool
  sentFolderError : Option String
deriving DecidableEq, Repr

/-- The headers of the message that is replied to, from which the new message's references are
made. -/
structure RepliedMessage where
  messageId : Option String
  references : Option String
deriving DecidableEq, Repr

/-- What a call of `mail_send` answers with. -/
inductive SendAnswer where
  | sent (messageId : String) (result : SendResult)
  | alreadySent (messageId : String) (savedToSent : Bool)
  | error (message : String)
deriving DecidableEq, Repr

/-- What a call keeps across its waits: who calls, the arguments, the account it opens, and when
it began. -/
structure SendWait where
  ctx : McpAuthContext
  args : SendArgs
  fromAddress : String
  account : MailAccount
  saveSentCopies : Bool
  startedAt : Time
deriving DecidableEq, Repr

/-- A call of the tool at a wait; `none` is the answer of a call that a crash cut off. Each case
keeps what the call has read and written so far. -/
inductive SendTask where
  | reading (wait : SendWait)
  | composing (wait : SendWait) (operation : Id) (message : OutgoingMessage)
  | submitting (wait : SendWait) (operation : Id) (message : OutgoingMessage)
  | filing (wait : SendWait) (operation : Id) (message : OutgoingMessage)
      (accepted rejected : List String)
  | ended (answer : Option SendAnswer)
deriving DecidableEq, Repr

/-- A message handed to the SMTP server, whatever became of it there. The list of them is
history: it is what the claims about duplicates count. -/
structure Submission where
  call : Nat
  operation : Id
  connectionId : Id
  idempotencyKey : Option String
  message : OutgoingMessage
deriving DecidableEq, Repr

/-- The state behind the tools: the service, the operation table, and the memory of the
limiter. -/
structure Tools where
  server : Server
  settings : ToolSettings
  operations : Operations
  /-- The limiter's memory: the calls it let through, with their times. -/
  toolCalls : List (Id × Time)
  nextDraw : Nat
  /-- Newest last; no code reads it. -/
  submissions : List Submission

/-- An id that no earlier draw has led to, under the sender's domain. -/
def generateMessageId (draw : Nat) (fromAddress : String) : String :=
  let domain := String.ofList (fromAddress.toList.reverse.takeWhile (· ≠ '@')).reverse
  "<" ++ toString draw ++ ".mcp@" ++ (if domain = "" then "localhost" else domain) ++ ">"

/-- Everybody the message goes to, counted with repetitions. -/
def SendArgs.recipients (args : SendArgs) : Nat :=
  args.to.length + args.cc.length + args.bcc.length

/-- The answer to a call whose key an earlier operation has. Only a completed one answers with
success; an unknown one is never tried again. -/
def answerPrevious (previous : OperationRow) : Except ToolError SendAnswer :=
  match previous.status with
  | .completed =>
      .ok (.alreadySent (previous.details.messageId.getD "")
        (previous.details.savedToSent = some true))
  | .failed =>
      .error (.toolFailure
        "A previous send with this idempotencyKey failed. Use a new key to try again.")
  | .pending | .unknown =>
      .error (.toolFailure ("A previous send with this idempotencyKey has an unknown or " ++
        "in-progress outcome; it will not be retried automatically. Check the Sent folder."))

namespace Tools

variable (t : Tools)

/-- The sliding window of the call limiter: a call is counted when it is let through and not
otherwise. -/
def allow (connectionId : Id) : Bool × Tools :=
  let recent := t.toolCalls.filter fun call =>
    call.1 = connectionId && t.server.now - call.2 < 60000
  let others := t.toolCalls.filter fun call => call.1 ≠ connectionId
  if recent.length ≥ t.settings.toolCallsPerMinute then
    (false, { t with toolCalls := others ++ recent })
  else (true, { t with toolCalls := others ++ recent ++ [(connectionId, t.server.now)] })

/-- The mailbox of the binding, with its credential opened. -/
def account (ctx : McpAuthContext) : Except ToolError MailAccount :=
  match t.server.findBinding ctx.bindingId with
  | none => .error (.toolFailure "This connection is not usable.")
  | some binding =>
      if binding.mailbox ≠ ctx.mailbox then
        .error (.toolFailure "This connection is not usable.")
      else
        match t.server.getCredential binding.id with
        | none => .error (.toolFailure unavailable)
        | some stored =>
            if t.server.vaultKeyId = some stored.keyId then
              .ok ⟨binding.mailbox, stored.password⟩
            else .error (.toolFailure unavailable)
where
  unavailable : String :=
    "The mailbox credential is unavailable on the server. Ask your postmaster to check " ++
      "the MCP connection."

/-- What is checked of the message itself; the sender's address in lower case. -/
def checkMessage (ctx : McpAuthContext) (args : SendArgs) : Except ToolError String :=
  let allowedFrom := (ctx.mailbox :: ctx.senderIdentities).map String.toLower
  let fromAddress := (args.from.getD ctx.mailbox).toLower
  if args.text = none ∧ args.html = none then
    .error (.toolFailure "Provide a text or html body.")
  else if args.recipients > t.settings.maxRecipientsPerMessage then
    .error (.toolFailure ("At most " ++ toString t.settings.maxRecipientsPerMessage ++
      " recipients are allowed per message."))
  else if fromAddress ∉ allowedFrom then
    .error (.toolFailure ("This connection may only send as: " ++
      String.intercalate ", " allowedFrom ++ "."))
  else if (args.attachments.map fun attachment => attachment.content.length).sum >
      t.settings.maxAttachmentBytes then
    .error (.toolFailure ("Attachments exceed the " ++
      toString ((t.settings.maxAttachmentBytes + 512) / 1024) ++ " KB limit."))
  else .ok fromAddress

/-- The row of an earlier call with the same idempotency key, if the call carries one. -/
def previous (ctx : McpAuthContext) (args : SendArgs) : Option OperationRow :=
  args.idempotencyKey.bind fun key =>
    t.operations.findByIdempotencyKey ctx.connectionId .send key

/-- The sending limits of the connection, then its account. The operations are counted here,
before the call's first wait. -/
def openWait (ctx : McpAuthContext) (args : SendArgs) (fromAddress : String) :
    Except ToolError SendWait :=
  let sentLastHour := t.operations.countSendsSince ctx.connectionId (t.server.now - 3600000)
  let sentLastDay := t.operations.countSendsSince ctx.connectionId (t.server.now - 86400000)
  if sentLastHour ≥ t.settings.sendsPerHour ∨ sentLastDay ≥ t.settings.sendsPerDay then
    .error (.toolFailure
      "The sending limit for this connection has been reached. Try again later.")
  else
    (t.account ctx).map fun account =>
      ⟨ctx, args, fromAddress, account, t.settings.saveSentCopies, t.server.now⟩

/-- How the wrapper around every tool ends a call: errors become texts, and a credential that
the mail server turned down makes the binding invalid. -/
def endCall (ctx : McpAuthContext) : Except ToolError SendAnswer → Tools × SendTask
  | .ok answer => (t, .ended (some answer))
  | .error (.toolFailure message) => (t, .ended (some (.error message)))
  | .error (.mailError .authFailed _) =>
      let server := match t.server.findBinding ctx.bindingId with
        | none => t.server
        | some binding => t.server.markCredentialRejected binding
      ({ t with server := server }, .ended (some (.error
        ("The mail server rejected this connection’s mailbox credential. Access has been " ++
          "suspended; ask your postmaster to re-provision it."))))
  | .error (.mailError _ message) => (t, .ended (some (.error message)))
  | .error (.other _) =>
      (t, .ended (some (.error "The tool failed because of an internal error.")))

/-- The message as the call has put it together once the message that it replies to is known. -/
def outgoing (wait : SendWait) (reply : Option RepliedMessage) : OutgoingMessage where
  fromName := wait.args.fromName
  fromAddress := wait.fromAddress
  «to» := wait.args.to
  cc := wait.args.cc
  bcc := wait.args.bcc
  subject := wait.args.subject
  text := wait.args.text
  html := wait.args.html
  inReplyTo := reply.bind RepliedMessage.messageId
  references := reply.bind fun original =>
    let known := [original.references, original.messageId].filterMap id
    if String.intercalate " " known = "" then none else some (String.intercalate " " known)
  attachments := wait.args.attachments
  messageId := generateMessageId t.nextDraw wait.fromAddress

/-- The operation of this call, before it has an outcome. It counts from the moment at which the
call began. -/
def pendingRow (wait : SendWait) (message : OutgoingMessage) : OperationRow where
  id := t.nextDraw + 1
  connectionId := wait.ctx.connectionId
  kind := .send
  status := .pending
  idempotencyKey := wait.args.idempotencyKey
  details := ⟨some message.messageId, some wait.args.recipients, none, none, none⟩
  error := none
  createdAt := wait.startedAt
  completedAt := none

/-- The row goes in before the message goes out, so that a crash leaves a trace of it. -/
def createOperation (wait : SendWait) (reply : Option RepliedMessage) : Tools × SendTask :=
  let message := t.outgoing wait reply
  let row := t.pendingRow wait message
  let drawn := { t with nextDraw := t.nextDraw + 2 }
  match t.operations.create row with
  | none =>
      drawn.endCall wait.ctx
        (.error (.toolFailure "A send with this idempotencyKey is already in progress."))
  | some operations =>
      ({ drawn with operations := operations }, .composing wait row.id message)

/-- The call up to its first wait: its arguments are checked, an earlier call of its key is
answered again, and a reply has to be permitted and to name a message. -/
def sendChecked (ctx : McpAuthContext) (args : SendArgs) : Tools × SendTask :=
  match t.checkMessage ctx args with
  | .error error => t.endCall ctx (.error error)
  | .ok fromAddress =>
      match t.previous ctx args with
      | some row => t.endCall ctx (answerPrevious row)
      | none =>
          match t.openWait ctx args fromAddress with
          | .error error => t.endCall ctx (.error error)
          | .ok wait =>
              match args.replyToMessageId with
              | none => t.createOperation wait none
              | some ref =>
                  if .mailRead ∉ ctx.scopes then
                    t.endCall ctx (.error (.toolFailure
                      "Replying in a thread requires read permission on this connection."))
                  else
                    match ref with
                    | none =>
                        t.endCall ctx
                          (.error (.toolFailure "replyToMessageId is not a valid message id."))
                    | some _ => (t, .reading wait)

/-- `mail_send`: the permission first, then the limiter, and then the call itself. -/
def mailSend (ctx : McpAuthContext) (args : SendArgs) : Tools × SendTask :=
  if .mailSend ∉ ctx.scopes then
    (t, .ended (some (.error "This connection is not permitted to use mail_send.")))
  else
    let (allowed, next) := t.allow ctx.connectionId
    if allowed then next.sendChecked ctx args
    else (next, .ended (some (.error
      "Too many requests for this mailbox connection. Wait a minute and try again.")))

/-- The submission failed or threw: the outcome is recorded and the error goes on. -/
def sendFailed (wait : SendWait) (operation : Id) (message : OutgoingMessage)
    (error : ToolError) : Tools × SendTask :=
  let status := match error with
    | .mailError .sendUncertain _ => OperationStatus.unknown
    | _ => OperationStatus.failed
  let finished := { t with
    operations := t.operations.finish operation status
      ⟨some message.messageId, some wait.args.recipients, none, none, none⟩
      (some error.message) t.server.now }
  finished.endCall wait.ctx (.error error)

/-- The SMTP server has accepted the message, and the row says how it ended. -/
def sendDone (wait : SendWait) (operation : Id) (message : OutgoingMessage)
    (result : SendResult) : Tools × SendTask :=
  let finished := { t with
    operations := t.operations.finish operation .completed
      ⟨some message.messageId, some wait.args.recipients, some result.savedToSent,
        some result.accepted.length, some result.rejected.length⟩ none t.server.now }
  finished.endCall wait.ctx (.ok (.sent message.messageId result))

/-- The transport takes the composed message: this is the submission. -/
def submit (call : Nat) (wait : SendWait) (operation : Id) (message : OutgoingMessage) :
    Tools × SendTask :=
  ({ t with submissions := t.submissions ++
      [⟨call, operation, wait.ctx.connectionId, wait.args.idempotencyKey, message⟩] },
    .submitting wait operation message)

end Tools

end Mcp

end MailPanel

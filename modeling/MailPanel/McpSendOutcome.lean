import MailPanel.McpSending

/-
The outcome of a send as it goes on record.  The submission, the copy in Sent, the writes to
the operation and those to the audit log may each throw; what stands in the operation
afterwards, and what the caller is told, is compared with what the mail server did.
-/

namespace MailPanel

namespace Mcp

open RowTable

/- The mail server's part -/

/-- What the transport throws. -/
structure SmtpError where
  code : Option String
  command : Option String
  responseCode : Option Nat
deriving DecidableEq, Repr

inductive SmtpAnswer where
  | info (accepted rejected : List String)
  | thrown (error : SmtpError)
deriving DecidableEq, Repr

/-- A message handed over, and whether the server accepted it.  The transport reports
success of no other message; of one that it reports an error about, anything may be true. -/
structure Handover where
  taken : Bool
  answer : SmtpAnswer
  confirmed : ∀ accepted rejected, answer = .info accepted rejected → taken = true

/-- The commands before the data of a message. -/
def preData : List String :=
  ["CONN", "EHLO", "HELO", "STARTTLS", "AUTH PLAIN", "AUTH LOGIN", "AUTH", "MAIL FROM",
    "RCPT TO", "API"]

namespace SmtpError

/-- The connection failed during or after the data. -/
def uncertain : ToolError :=
  .mailError .sendUncertain ("The connection failed while the message was being " ++
    "submitted; it may or may not have been sent. It will not be retried automatically.")

/-- The error as the backend passes it on. -/
def classify (error : SmtpError) : ToolError :=
  if error.code = some "EAUTH" ∨ error.responseCode = some 535 then
    .mailError .authFailed "The mail server rejected the mailbox credential for SMTP."
  else
    match error.responseCode with
    | some responseCode =>
        .mailError .sendRejected ("The mail server rejected the message (SMTP " ++
          toString responseCode ++ "). It was not sent.")
    | none =>
        if error.command.any fun command => command ∈ preData then
          .mailError .unavailable
            "The SMTP submission server could not be reached. The message was not sent."
        else uncertain

end SmtpError

def ToolError.isUncertain : ToolError → Bool
  | .mailError .sendUncertain _ => true
  | _ => false

theorem SmtpError.classify_of_isUncertain {error : SmtpError}
    (huncertain : error.classify.isUncertain = true) : error.classify = uncertain := by
  rw [classify] at huncertain ⊢
  split at huncertain
  · cases huncertain
  rename_i hauth
  rw [if_neg hauth]
  cases hcode : error.responseCode with
  | some responseCode =>
      rw [hcode] at huncertain
      cases huncertain
  | none =>
      rw [hcode] at huncertain
      dsimp only at huncertain ⊢
      split at huncertain
      · cases huncertain
      · rename_i hcommand
        rw [if_neg hcommand]

inductive Attempt where
  /-- The message could not even be composed. -/
  | uncomposed (message : String)
  | handedOver (handover : Handover)

/-- What befalls a send: the attempt, the copy in Sent, and the error that each write throws
in case it does. -/
structure SendFates where
  attempt : Attempt
  sentCopy : Option ToolError
  finishSent : Option String
  auditSent : Option String
  finishFailed : Option String
  auditFailed : Option String
  auditCalled : Option String

namespace SendFates

variable (fates : SendFates)

/-- Whether the server accepted the message. -/
def taken : Bool :=
  match fates.attempt with
  | .uncomposed _ => false
  | .handedOver handover => handover.taken

def sentFolderError : ToolError → String
  | .mailError _ message => message
  | _ => "Could not file a copy in Sent."

/-- The backend: a copy that cannot be filed fails no send. Where the server has accepted the
message, nothing that comes after it throws. -/
def send (saveToSent : Bool) : Except ToolError SendResult :=
  match fates.attempt with
  | .uncomposed message => .error (.other message)
  | .handedOver handover =>
      match handover.answer with
      | .thrown error => .error error.classify
      | .info accepted rejected =>
          if saveToSent then
            .ok ⟨accepted, rejected, fates.sentCopy.isNone, fates.sentCopy.map sentFolderError⟩
          else .ok ⟨accepted, rejected, false, none⟩

end SendFates

/- The tool's part -/

namespace Tools

variable (t : Tools) (wait : SendWait) (operation : Id) (message : OutgoingMessage)
  (fates : SendFates)

/-- The handler of whatever was thrown: the outcome goes on record, and the error on. -/
def catchSend (operations : Operations) (error : ToolError) :
    Except ToolError SendAnswer × Operations :=
  match fates.finishFailed with
  | some thrown => (.error (.other thrown), operations)
  | none =>
      let recorded := operations.finish operation
        (if error.isUncertain then .unknown else .failed)
        ⟨some message.messageId, some wait.args.recipients, none, none, none⟩
        (some error.message) t.server.now
      match fates.auditFailed with
      | some thrown => (.error (.other thrown), recorded)
      | none => (.error error, recorded)

/-- The submission, and what is put on record of it.  Both writes are under the handler. -/
def trySend : Except ToolError SendAnswer × Operations :=
  match fates.send wait.saveSentCopies with
  | .error error => t.catchSend wait operation message fates t.operations error
  | .ok result =>
      match fates.finishSent with
      | some thrown => t.catchSend wait operation message fates t.operations (.other thrown)
      | none =>
          let recorded := t.operations.finish operation .completed
            ⟨some message.messageId, some wait.args.recipients, some result.savedToSent,
              some result.accepted.length, some result.rejected.length⟩ none t.server.now
          match fates.auditSent with
          | some thrown => t.catchSend wait operation message fates recorded (.other thrown)
          | none => (.ok (.sent message.messageId result), recorded)

/-- The rest of a call from its submission on; no answer where the last audit write throws. -/
def sendAndRecord : Tools × Option SendAnswer :=
  let (result, operations) := t.trySend wait operation message fates
  match { t with operations := operations }.endCall wait.ctx result with
  | (ended, .ended answer) => (ended, if fates.auditCalled = none then answer else none)
  | (ended, _) => (ended, none)

end Tools

/- What is on record -/

def Operations.statusOf (operations : Operations) (id : Id) : Option OperationStatus :=
  (lookup OperationRow.id id operations.rows).map OperationRow.status

theorem Operations.statusOf_finish (operations : Operations) (id : Id)
    (status : OperationStatus) (details : OperationDetails) (error : Option String)
    (now : Time) : (operations.finish id status details error now).statusOf id =
      (operations.statusOf id).map fun _ => status := by
  simp only [statusOf, finish, lookup]
  induction operations.rows with
  | nil => rfl
  | cons row rows ih =>
      rw [List.map_cons, List.find?_cons, List.find?_cons, finished_id]
      by_cases hid : row.id = id
      · rw [decide_eq_true hid]
        simp [finished, hid]
      · rw [decide_eq_false hid]
        exact ih

/-- The operation of a call that goes on to its submission is pending. It is written before
anything is sent. -/
theorem Tools.createOperation_pending {t next : Tools} {wait : SendWait}
    {reply : Option RepliedMessage} {operation : Id} {message : OutgoingMessage}
    (hcreated : t.createOperation wait reply = (next, .composing wait operation message)) :
    next.operations.statusOf operation = some .pending := by
  rw [createOperation] at hcreated
  dsimp only at hcreated
  split at hcreated
  · obtain ⟨answer, hended⟩ := endCall_ended { t with nextDraw := t.nextDraw + 2 } wait.ctx
      (.error (.toolFailure "A send with this idempotencyKey is already in progress."))
    rw [hcreated] at hended
    cases hended
  · rename_i operations hcreate
    obtain ⟨htools, htask⟩ := Prod.mk.inj hcreated
    injection htask with _ hid _
    rw [Operations.create] at hcreate
    split at hcreate
    · rename_i hfree
      have hfresh : lookup OperationRow.id operation t.operations.rows = none := by
        rw [lookup, List.find?_eq_none]
        intro old hold hsame
        have hconflict := hfree old hold
        rw [OperationRow.conflicts, Bool.or_eq_false_iff] at hconflict
        rw [← hid] at hsame
        simp [hsame] at hconflict
      rw [← htools, ← Option.some.inj hcreate, Operations.statusOf, lookup_append, hfresh,
        Option.none_or, if_pos hid]
      rfl
    · cases hcreate

/-- The message says that nothing was sent. -/
def SaysNotSent (message : String) : Prop := "not sent".toList <:+: message.toList

instance (message : String) : Decidable (SaysNotSent message) :=
  inferInstanceAs (Decidable (_ <:+: _))

/-- What stands in the operation, and what the caller is told, agrees with what the server
did. -/
structure TruthfulRecord (fates : SendFates) (status : Option OperationStatus)
    (answer : Option SendAnswer) : Prop where
  recorded : status.isSome = true
  completed : status = some .completed → fates.taken = true
  failed : status = some .failed → fates.taken = false
  told : fates.taken = true → ∀ message, answer = some (.error message) → ¬ SaysNotSent message

/-- The server accepted the message, and the handler records a failure: of an error that
sounds certain, or of a write that threw after the acceptance. -/
def SendFates.Misleads (fates : SendFates) : Prop :=
  fates.finishFailed = none ∧ ∃ handover, fates.attempt = .handedOver handover ∧
    handover.taken = true ∧
      match handover.answer with
      | .thrown error => error.classify.isUncertain = false
      | .info _ _ => fates.finishSent ≠ none ∨ fates.auditSent ≠ none

namespace Tools

variable {t : Tools} {wait : SendWait} {operation : Id} {message : OutgoingMessage}
  {fates : SendFates}

/-- The handler leaves the status where its own write throws, so an operation may stay pending
although its call has ended. -/
theorem catchSend_statusOf (t : Tools) (wait : SendWait) (message : OutgoingMessage)
    (fates : SendFates) {operations : Operations} {status : OperationStatus}
    (hstatus : operations.statusOf operation = some status) (error : ToolError) :
    (t.catchSend wait operation message fates operations error).2.statusOf operation =
      if fates.finishFailed = none then some (if error.isUncertain then .unknown else .failed)
      else some status := by
  rw [catchSend]
  cases fates.finishFailed with
  | some thrown => exact hstatus
  | none =>
      rw [if_pos rfl]
      dsimp only
      cases fates.auditFailed with
      | some thrown =>
          rw [Operations.statusOf_finish, hstatus]
          rfl
      | none =>
          rw [Operations.statusOf_finish, hstatus]
          rfl

/-- The handler records no success. -/
theorem catchSend_not_completed (t : Tools) (wait : SendWait) (message : OutgoingMessage)
    (fates : SendFates) {operations : Operations} {status : OperationStatus}
    (hstatus : operations.statusOf operation = some status) (hne : status ≠ .completed)
    (error : ToolError) :
    ∃ after, (t.catchSend wait operation message fates operations error).2.statusOf operation =
      some after ∧ after ≠ .completed := by
  rw [catchSend_statusOf t wait message fates hstatus error]
  split
  · refine ⟨_, rfl, ?_⟩
    split
    · decide
    · decide
  · exact ⟨status, rfl, hne⟩

/-- The handler passes on what it was given, or what one of its writes threw. -/
theorem catchSend_error (operations : Operations) (error : ToolError) :
    (t.catchSend wait operation message fates operations error).1 = .error error ∨
      ∃ thrown, (t.catchSend wait operation message fates operations error).1 =
        .error (.other thrown) := by
  rw [catchSend]
  cases fates.finishFailed with
  | some thrown => exact Or.inr ⟨thrown, rfl⟩
  | none =>
      dsimp only
      cases fates.auditFailed with
      | some thrown => exact Or.inr ⟨thrown, rfl⟩
      | none => exact Or.inl rfl

/-- The result denies no submission. -/
inductive Admits : Except ToolError SendAnswer → Prop
  | sent (messageId : String) (result : SendResult) : Admits (.ok (.sent messageId result))
  | broken (thrown : String) : Admits (.error (.other thrown))
  | uncertain : Admits (.error SmtpError.uncertain)

theorem catchSend_admits (operations : Operations) {error : ToolError}
    (hadmits : Admits (.error error)) :
    Admits (t.catchSend wait operation message fates operations error).1 := by
  rcases catchSend_error operations error with hsame | ⟨thrown, hthrown⟩
  · rw [hsame]
    exact hadmits
  · rw [hthrown]
    exact .broken thrown

/-- The caller of a result that denies nothing is told nothing of the kind. -/
theorem endCall_admits {result : Except ToolError SendAnswer} (hadmits : Admits result)
    (ctx : McpAuthContext) {text : String}
    (hanswer : (t.endCall ctx result).2 = .ended (some (.error text))) : ¬ SaysNotSent text := by
  have hbroken : ¬ SaysNotSent "The tool failed because of an internal error." := by
    rw [SaysNotSent, String.toList_ofList, String.toList_ofList]
    decide
  have huncertain : ¬ SaysNotSent SmtpError.uncertain.message := by
    rw [SaysNotSent, SmtpError.uncertain, ToolError.message, String.toList_append,
      String.toList_ofList, String.toList_ofList, String.toList_ofList]
    decide +kernel
  have htext : ∀ told, (t.endCall ctx result).2 = .ended (some (.error told)) → told = text := by
    intro told htold
    rw [htold] at hanswer
    exact SendAnswer.error.inj (Option.some.inj (SendTask.ended.inj hanswer))
  cases hadmits with
  | sent messageId result => cases hanswer
  | broken thrown =>
      rw [← htext _ rfl]
      exact hbroken
  | uncertain =>
      rw [← htext _ rfl]
      exact huncertain

/-- The end of the call keeps the operations, and tells the caller what the wrapper says. -/
theorem sendAndRecord_spec :
    (t.sendAndRecord wait operation message fates).1.operations =
        (t.trySend wait operation message fates).2 ∧
      ∀ answer, (t.sendAndRecord wait operation message fates).2 = some answer →
        ({ t with operations := (t.trySend wait operation message fates).2 }.endCall wait.ctx
          (t.trySend wait operation message fates).1).2 = .ended (some answer) := by
  rw [sendAndRecord]
  generalize t.trySend wait operation message fates = tried
  obtain ⟨result, operations⟩ := tried
  dsimp only
  obtain ⟨answer, hended⟩ := endCall_ended { t with operations := operations } wait.ctx result
  have htables := (endCall_tables { t with operations := operations } wait.ctx result).1
  generalize { t with operations := operations }.endCall wait.ctx result = ending at hended htables
  obtain ⟨ended, task⟩ := ending
  dsimp only at hended htables
  rw [hended]
  dsimp only
  refine ⟨htables, ?_⟩
  intro told htold
  split at htold
  · rw [htold]
  · cases htold

/-- The record of a message that the server did not accept: anything but a success. -/
theorem truthful_of_not_taken (htaken : fates.taken = false) {status : OperationStatus}
    (hstatus : (t.trySend wait operation message fates).2.statusOf operation = some status)
    (hne : status ≠ .completed) :
    TruthfulRecord fates
      ((t.sendAndRecord wait operation message fates).1.operations.statusOf operation)
      (t.sendAndRecord wait operation message fates).2 := by
  rw [sendAndRecord_spec.1, hstatus]
  refine ⟨rfl, ?_, ?_, ?_⟩
  · intro hcompleted
    exact absurd (Option.some.inj hcompleted) hne
  · intro _
    exact htaken
  · intro htrue
    rw [htaken] at htrue
    cases htrue

/-- The record of a message that the server accepted: anything but a failure. -/
theorem truthful_of_taken (htaken : fates.taken = true) {status : OperationStatus}
    (hstatus : (t.trySend wait operation message fates).2.statusOf operation = some status)
    (hne : status ≠ .failed) (hadmits : Admits (t.trySend wait operation message fates).1) :
    TruthfulRecord fates
      ((t.sendAndRecord wait operation message fates).1.operations.statusOf operation)
      (t.sendAndRecord wait operation message fates).2 := by
  rw [sendAndRecord_spec.1, hstatus]
  refine ⟨rfl, fun _ => htaken, ?_, ?_⟩
  · intro hfailed
    exact absurd (Option.some.inj hfailed) hne
  · intro _ text htext
    exact endCall_admits hadmits wait.ctx (sendAndRecord_spec.2 _ htext)

/-- The handler records a failure of an accepted message when its own write goes through and
the error sounds certain. -/
theorem caught_truthful_iff (htaken : fates.taken = true) {operations : Operations}
    {status : OperationStatus} {error : ToolError}
    (htry : t.trySend wait operation message fates =
      t.catchSend wait operation message fates operations error)
    (hstatus : operations.statusOf operation = some status) (hne : status ≠ .failed)
    (hadmits : error.isUncertain = true → Admits (.error error)) :
    TruthfulRecord fates
        ((t.sendAndRecord wait operation message fates).1.operations.statusOf operation)
        (t.sendAndRecord wait operation message fates).2 ↔
      ¬ (fates.finishFailed = none ∧ error.isUncertain = false) := by
  have hcaught := catchSend_statusOf t wait message fates hstatus error
  rw [← htry] at hcaught
  cases hfinish : fates.finishFailed with
  | some thrown =>
      rw [hfinish, if_neg (Option.some_ne_none thrown)] at hcaught
      have hresult : (t.trySend wait operation message fates).1 = .error (.other thrown) := by
        rw [htry, catchSend, hfinish]
      refine iff_of_true (truthful_of_taken htaken hcaught hne ?_) ?_
      · rw [hresult]
        exact .broken thrown
      · rintro ⟨hnone, -⟩
        cases hnone
  | none =>
      rw [hfinish, if_pos rfl] at hcaught
      cases huncertain : error.isUncertain with
      | true =>
          rw [huncertain, if_pos rfl] at hcaught
          refine iff_of_true (truthful_of_taken htaken hcaught (by decide) ?_) ?_
          · rw [htry]
            exact catchSend_admits operations (hadmits huncertain)
          · rintro ⟨-, hfalse⟩
            cases hfalse
      | false =>
          rw [huncertain, if_neg Bool.false_ne_true] at hcaught
          refine iff_of_false ?_ (not_not.mpr ⟨rfl, rfl⟩)
          intro htruthful
          have hfailed := htruthful.failed (by rw [sendAndRecord_spec.1, hcaught])
          rw [htaken] at hfailed
          cases hfailed

/-- What is left on record of a send is true unless its fate misleads the handler. A fate
misleads it when something throws after the server has accepted the message and the handler
takes that for a failure of the submission. -/
theorem sendAndRecord_truthful_iff
    (hpending : t.operations.statusOf operation = some .pending) :
    TruthfulRecord fates
        ((t.sendAndRecord wait operation message fates).1.operations.statusOf operation)
        (t.sendAndRecord wait operation message fates).2 ↔ ¬ fates.Misleads := by
  cases hattempt : fates.attempt with
  | uncomposed thrown =>
      have htaken : fates.taken = false := by
        rw [SendFates.taken, hattempt]
      have htry : t.trySend wait operation message fates =
          t.catchSend wait operation message fates t.operations (.other thrown) := by
        rw [trySend, SendFates.send, hattempt]
      obtain ⟨status, hstatus, hne⟩ := catchSend_not_completed t wait message fates hpending
        (by decide) (.other thrown)
      rw [← htry] at hstatus
      refine iff_of_true (truthful_of_not_taken htaken hstatus hne) ?_
      · rintro ⟨-, handover, hhanded, -⟩
        rw [hattempt] at hhanded
        cases hhanded
  | handedOver handover =>
      have htaken : fates.taken = handover.taken := by
        rw [SendFates.taken, hattempt]
      have hmisleads : fates.Misleads ↔ fates.finishFailed = none ∧ handover.taken = true ∧
          match handover.answer with
          | .thrown error => error.classify.isUncertain = false
          | .info _ _ => fates.finishSent ≠ none ∨ fates.auditSent ≠ none := by
        rw [SendFates.Misleads, hattempt]
        simp only [Attempt.handedOver.injEq, exists_eq_left']
      rw [hmisleads]
      cases hanswer : handover.answer with
      | thrown error =>
          have htry : t.trySend wait operation message fates =
              t.catchSend wait operation message fates t.operations error.classify := by
            rw [trySend, SendFates.send, hattempt]
            dsimp only
            rw [hanswer]
          cases hserver : handover.taken with
          | true =>
              have hcaught := caught_truthful_iff (htaken.trans hserver) htry hpending
                (by decide) (by
                  intro huncertain
                  rw [SmtpError.classify_of_isUncertain huncertain]
                  exact .uncertain)
              rw [hcaught]
              simp
          | false =>
              obtain ⟨status, hstatus, hne⟩ := catchSend_not_completed t wait message fates
                hpending (by decide) error.classify
              rw [← htry] at hstatus
              refine iff_of_true
                (truthful_of_not_taken (htaken.trans hserver) hstatus hne) ?_
              rintro ⟨-, htrue, -⟩
              cases htrue
      | info accepted rejected =>
          have hserver : handover.taken = true := handover.confirmed accepted rejected hanswer
          obtain ⟨result, hsend⟩ : ∃ result, fates.send wait.saveSentCopies = .ok result := by
            rw [SendFates.send, hattempt]
            dsimp only
            rw [hanswer]
            dsimp only
            split
            · exact ⟨_, rfl⟩
            · exact ⟨_, rfl⟩
          have hbroken : ∀ thrown, (ToolError.other thrown).isUncertain = true →
              Admits (.error (.other thrown)) := fun thrown _ => .broken thrown
          cases hfinish : fates.finishSent with
          | some thrown =>
              have htry : t.trySend wait operation message fates =
                  t.catchSend wait operation message fates t.operations (.other thrown) := by
                rw [trySend, hsend]
                dsimp only
                rw [hfinish]
              rw [caught_truthful_iff (htaken.trans hserver) htry hpending (by decide)
                (hbroken thrown)]
              simp [hserver, ToolError.isUncertain]
          | none =>
              have hrecorded := t.operations.statusOf_finish operation .completed
                ⟨some message.messageId, some wait.args.recipients, some result.savedToSent,
                  some result.accepted.length, some result.rejected.length⟩ none t.server.now
              rw [hpending, Option.map_some] at hrecorded
              cases haudit : fates.auditSent with
              | some thrown =>
                  have htry : t.trySend wait operation message fates =
                      t.catchSend wait operation message fates (t.operations.finish operation
                        .completed ⟨some message.messageId, some wait.args.recipients,
                          some result.savedToSent, some result.accepted.length,
                          some result.rejected.length⟩ none t.server.now) (.other thrown) := by
                    rw [trySend, hsend]
                    dsimp only
                    rw [hfinish]
                    dsimp only
                    rw [haudit]
                  rw [caught_truthful_iff (htaken.trans hserver) htry hrecorded (by decide)
                    (hbroken thrown)]
                  simp [hserver, ToolError.isUncertain]
              | none =>
                  have htry : t.trySend wait operation message fates =
                      (.ok (.sent message.messageId result), t.operations.finish operation
                        .completed ⟨some message.messageId, some wait.args.recipients,
                          some result.savedToSent, some result.accepted.length,
                          some result.rejected.length⟩ none t.server.now) := by
                    rw [trySend, hsend]
                    dsimp only
                    rw [hfinish]
                    dsimp only
                    rw [haudit]
                  refine iff_of_true ?_ ?_
                  · apply truthful_of_taken (htaken.trans hserver) (by rw [htry]; exact hrecorded)
                      (by decide)
                    rw [htry]
                    exact .sent message.messageId result
                  · rintro ⟨-, -, hthrown⟩
                    rcases hthrown with hthrown | hthrown
                    · exact hthrown rfl
                    · exact hthrown rfl

end Tools

namespace RetriedSend

/-- The message that the first call hands over. -/
def handedMessage : OutgoingMessage where
  fromName := none
  fromAddress := "user@example.com"
  «to» := ["other@example.org"]
  cc := []
  bcc := []
  subject := "Hello"
  text := some "Text"
  html := none
  inReplyTo := none
  references := none
  attachments := []
  messageId := "<100.mcp@example.com>"

def handedWait : SendWait :=
  ⟨ctx, reply, "user@example.com", ⟨"user@example.com", "secret"⟩, true, 1000⟩

/-- The first call, with its operation 101 in the table and its message not yet handed over. -/
def handing : Tools where
  server := server
  settings := start.tools.settings
  operations := ⟨[start.tools.pendingRow handedWait handedMessage], List.pairwise_singleton _ _⟩
  toolCalls := []
  nextDraw := 102
  submissions := []

def accepted : Handover :=
  ⟨true, .info ["other@example.org"] [], fun _ _ _ => rfl⟩

/-- All goes well. -/
def delivered : SendFates := ⟨.handedOver accepted, none, none, none, none, none, none⟩

/-- The message is accepted and filed, and the operation says so. -/
theorem delivered_truthful :
    TruthfulRecord delivered
      ((handing.sendAndRecord handedWait 101 handedMessage delivered).1.operations.statusOf 101)
      (handing.sendAndRecord handedWait 101 handedMessage delivered).2 := by
  apply (Tools.sendAndRecord_truthful_iff (by decide)).mpr
  rintro ⟨-, handover, hhanded, -, hthrown⟩
  injection hhanded with hhanded
  rw [← hhanded] at hthrown
  rcases hthrown with hthrown | hthrown
  · exact hthrown rfl
  · exact hthrown rfl

/-- The server accepts the message, and the audit log cannot be written just then. -/
def unaudited : SendFates :=
  ⟨.handedOver accepted, none, none, some "database is locked", none, none, none⟩

/-- The server accepts the message, the record of the audit cannot be written, and the operation
says that the send failed. -/
theorem accepted_recorded_failed :
    ¬ ∀ (t : Tools) wait operation message fates,
      t.operations.statusOf operation = some .pending →
        TruthfulRecord fates
          ((t.sendAndRecord wait operation message fates).1.operations.statusOf operation)
          (t.sendAndRecord wait operation message fates).2 := by
  intro hclaim
  have hpending : handing.operations.statusOf 101 = some .pending := by
    decide
  have htruthful := hclaim handing handedWait 101 handedMessage unaudited hpending
  have hstatus : (handing.sendAndRecord handedWait 101 handedMessage
      unaudited).1.operations.statusOf 101 = some .failed := by
    decide
  have htaken := htruthful.failed hstatus
  cases htaken

end RetriedSend

end Mcp

end MailPanel

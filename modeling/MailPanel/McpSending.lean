import Mathlib.Data.List.Pairwise
import MailPanel.McpMachine
import MailPanel.McpOperations

/-
Calls of `mail_send` in any order, with crashes: a key submits at most one message,
because the operation's row goes in, or is refused, before the message goes out.
-/

namespace MailPanel

namespace Mcp

open StepRun

/-- What a wait of a call ends with: the message that is replied to, a composed message, the
server's answer for each recipient, the filing in the folder of sent messages, or an error. -/
inductive SendReply where
  | original (message : RepliedMessage)
  | composed
  | answered (accepted rejected : List String)
  | filed (sentFolderError : Option String)
  | thrown (error : ToolError)
deriving DecidableEq, Repr

/-- One thing that happens around the tool: it is called, a wait of a call ends, the process
crashes, the rest of the service does something, or the settings are changed. -/
inductive SendLabel where
  | call (ctx : McpAuthContext) (args : SendArgs)
  | resume (call : Nat) (reply : SendReply)
  /-- The process dies and comes back with an empty memory. -/
  | crash
  /-- Whatever the rest of the service does, and the clock. -/
  | serve (server : Server)
  | configure (settings : ToolSettings)

structure SendSystem where
  tools : Tools
  tasks : List SendTask

namespace Tools

variable (t : Tools)

def resumeSend (call : Nat) : SendTask → SendReply → Tools × SendTask
  | .reading wait, .original message => t.createOperation wait (some message)
  | .reading wait, .thrown error => t.endCall wait.ctx (.error error)
  | .composing wait operation message, .composed => t.submit call wait operation message
  | .composing wait operation message, .thrown error =>
      t.sendFailed wait operation message error
  | .submitting wait operation message, .answered accepted rejected =>
      if wait.saveSentCopies then (t, .filing wait operation message accepted rejected)
      else t.sendDone wait operation message ⟨accepted, rejected, false, none⟩
  | .submitting wait operation message, .thrown error =>
      t.sendFailed wait operation message error
  | .filing wait operation message accepted rejected, .filed error =>
      t.sendDone wait operation message ⟨accepted, rejected, error.isNone, error⟩
  | task, _ => (t, task)

end Tools

def SendTask.cutOff : SendTask → SendTask
  | .ended answer => .ended answer
  | _ => .ended none

namespace SendSystem

variable (s : SendSystem)

def step : SendLabel → SendSystem
  | .call ctx args =>
      let (tools, task) := s.tools.mailSend ctx args
      ⟨tools, s.tasks ++ [task]⟩
  | .resume call reply =>
      match s.tasks[call]? with
      | none => s
      | some task =>
          let (tools, next) := s.tools.resumeSend call task reply
          ⟨tools, s.tasks.set call next⟩
  | .crash => ⟨{ s.tools with toolCalls := [] }, s.tasks.map SendTask.cutOff⟩
  | .serve server => ⟨{ s.tools with server := server }, s.tasks⟩
  | .configure settings => ⟨{ s.tools with settings := settings }, s.tasks⟩

/-- The service with the operations of earlier processes. -/
def initial (server : Server) (settings : ToolSettings) (operations : Operations)
    (nextDraw : Nat) : SendSystem :=
  ⟨⟨server, settings, operations, [], nextDraw, []⟩, []⟩

variable {s}

theorem step_resume {call : Nat} {task : SendTask} (reply : SendReply)
    (htask : s.tasks[call]? = some task) :
    s.step (.resume call reply) = ⟨(s.tools.resumeSend call task reply).1,
      s.tasks.set call (s.tools.resumeSend call task reply).2⟩ := by
  simp only [step, htask]

theorem step_resume_of_none {call : Nat} (reply : SendReply) (htask : s.tasks[call]? = none) :
    s.step (.resume call reply) = s := by
  simp only [step, htask]

end SendSystem

/- What the functions of the tool do to the table and to the log. -/

/-- The columns of an operation that no update changes. -/
structure OperationKey where
  id : Id
  connectionId : Id
  kind : OperationKind
  idempotencyKey : Option String
deriving DecidableEq, Repr

def OperationRow.key (row : OperationRow) : OperationKey :=
  ⟨row.id, row.connectionId, row.kind, row.idempotencyKey⟩

def SendWait.key (wait : SendWait) (operation : Id) : OperationKey :=
  ⟨operation, wait.ctx.connectionId, .send, wait.args.idempotencyKey⟩

def Submission.key (submission : Submission) : OperationKey :=
  ⟨submission.operation, submission.connectionId, .send, submission.idempotencyKey⟩

def Operations.keys (operations : Operations) : List OperationKey :=
  operations.rows.map OperationRow.key

theorem Operations.keys_finish (operations : Operations) (id : Id) (status : OperationStatus)
    (details : OperationDetails) (error : Option String) (now : Time) :
    (operations.finish id status details error now).keys = operations.keys := by
  simp [Operations.keys, Operations.finish, OperationRow.key]

theorem Operations.create_eq_some {operations after : Operations} {row : OperationRow}
    (hcreate : operations.create row = some after) :
    after.keys = operations.keys ++ [row.key] ∧
      ∀ key ∈ operations.keys, key.id ≠ row.id := by
  rw [Operations.create] at hcreate
  by_cases hfree : ∀ old ∈ operations.rows, old.conflicts row = false
  · rw [dif_pos hfree] at hcreate
    obtain rfl := Option.some.inj hcreate
    constructor
    · simp [Operations.keys]
    · intro key hkey
      obtain ⟨old, hold, rfl⟩ := List.mem_map.mp hkey
      have hconflict := hfree old hold
      rw [OperationRow.conflicts, Bool.or_eq_false_iff] at hconflict
      simpa [OperationRow.key] using hconflict.1
  · rw [dif_neg hfree] at hcreate
    exact absurd hcreate.symm (Option.some_ne_none after)

theorem OperationRow.conflicts_comm (left right : OperationRow) :
    left.conflicts right = right.conflicts left := by
  rw [Bool.eq_iff_iff]
  simp only [conflicts, sameIdempotencyKey, Bool.or_eq_true, Bool.and_eq_true,
    decide_eq_true_eq]
  constructor
  · rintro (hid | ⟨⟨⟨hconnection, hkind⟩, hsome⟩, hkey⟩)
    · exact Or.inl hid.symm
    · exact Or.inr ⟨⟨⟨hconnection.symm, hkind.symm⟩, hkey ▸ hsome⟩, hkey.symm⟩
  · rintro (hid | ⟨⟨⟨hconnection, hkind⟩, hsome⟩, hkey⟩)
    · exact Or.inl hid.symm
    · exact Or.inr ⟨⟨⟨hconnection.symm, hkind.symm⟩, hkey ▸ hsome⟩, hkey.symm⟩

/-- The unique index: a key of a connection belongs to one operation. It is what stands between
two calls with one key, once both have looked for an earlier one. -/
theorem Operations.eq_of_idempotencyKey {operations : Operations} {left right : OperationKey}
    (hleft : left ∈ operations.keys) (hright : right ∈ operations.keys)
    (hconnection : left.connectionId = right.connectionId) (hkind : left.kind = right.kind)
    {text : String} (htext : left.idempotencyKey = some text)
    (hsame : right.idempotencyKey = some text) : left.id = right.id := by
  obtain ⟨row, hrow, rfl⟩ := List.mem_map.mp hleft
  obtain ⟨other, hother, rfl⟩ := List.mem_map.mp hright
  by_contra hne
  have hrows : row ≠ other := fun heq => hne (by rw [heq])
  have hsymm : Std.Symm fun left right : OperationRow => left.conflicts right = false :=
    ⟨fun first second hfree => by rw [OperationRow.conflicts_comm, hfree]⟩
  have hfree := operations.unique.forall hrow hother hrows
  rw [OperationRow.conflicts, Bool.or_eq_false_iff] at hfree
  have hconflict : row.sameIdempotencyKey other = true := by
    simp only [OperationRow.key] at hconnection hkind htext hsame
    simp [OperationRow.sameIdempotencyKey, hconnection, hkind, htext, hsame]
  rw [hconflict] at hfree
  exact Bool.false_ne_true hfree.2.symm

/-- A step of a call that hands nothing to the SMTP server: it keeps the operations, or
adds the one that it is about to submit. -/
inductive Tools.Advances (t next : Tools) : SendTask → Prop
  | keeps (task : SendTask) (hkeys : next.operations.keys = t.operations.keys)
      (hsubmissions : next.submissions = t.submissions)
      (htask : ∀ wait operation message, task ≠ .composing wait operation message) :
      Advances t next task
  | creates (wait : SendWait) (operation : Id) (message : OutgoingMessage)
      (hkeys : next.operations.keys = t.operations.keys ++ [wait.key operation])
      (hfresh : ∀ key ∈ t.operations.keys, key.id ≠ operation)
      (hsubmissions : next.submissions = t.submissions) :
      Advances t next (.composing wait operation message)

namespace Tools

variable {t : Tools}

theorem endCall_ended (t : Tools) (ctx : McpAuthContext)
    (result : Except ToolError SendAnswer) :
    ∃ answer, (t.endCall ctx result).2 = .ended (some answer) := by
  cases result with
  | ok answer => exact ⟨answer, rfl⟩
  | error error =>
      cases error with
      | toolFailure message => exact ⟨_, rfl⟩
      | mailError kind message => cases kind <;> exact ⟨_, rfl⟩
      | other message => exact ⟨_, rfl⟩

theorem endCall_tables (t : Tools) (ctx : McpAuthContext)
    (result : Except ToolError SendAnswer) :
    (t.endCall ctx result).1.operations = t.operations ∧
      (t.endCall ctx result).1.submissions = t.submissions := by
  cases result with
  | ok answer => exact ⟨rfl, rfl⟩
  | error error =>
      cases error with
      | toolFailure message => exact ⟨rfl, rfl⟩
      | mailError kind message => cases kind <;> exact ⟨rfl, rfl⟩
      | other message => exact ⟨rfl, rfl⟩

theorem endCall_advances {next : Tools} (hkeys : next.operations.keys = t.operations.keys)
    (hsubmissions : next.submissions = t.submissions) (ctx : McpAuthContext)
    (result : Except ToolError SendAnswer) :
    Advances t (next.endCall ctx result).1 (next.endCall ctx result).2 := by
  obtain ⟨answer, hanswer⟩ := next.endCall_ended ctx result
  obtain ⟨hoperations, hsubmitted⟩ := next.endCall_tables ctx result
  rw [hanswer]
  apply Advances.keeps
  · rw [hoperations, hkeys]
  · rw [hsubmitted, hsubmissions]
  · intro wait operation message heq
    cases heq

theorem createOperation_advances (wait : SendWait) (reply : Option RepliedMessage) :
    Advances t (t.createOperation wait reply).1 (t.createOperation wait reply).2 := by
  simp only [createOperation]
  cases hcreate : t.operations.create (t.pendingRow wait (t.outgoing wait reply)) with
  | none =>
      refine endCall_advances ?_ ?_ wait.ctx _
      · rfl
      · rfl
  | some operations =>
      obtain ⟨hkeys, hfresh⟩ := Operations.create_eq_some hcreate
      exact Advances.creates wait _ _ hkeys hfresh rfl

theorem sendChecked_advances (ctx : McpAuthContext) (args : SendArgs) :
    Advances t (t.sendChecked ctx args).1 (t.sendChecked ctx args).2 := by
  have hend : ∀ result, Advances t (t.endCall ctx result).1 (t.endCall ctx result).2 :=
    endCall_advances rfl rfl ctx
  rw [sendChecked]
  split
  · exact hend _
  split
  · exact hend _
  split
  · exact hend _
  split
  · exact createOperation_advances _ none
  split
  · exact hend _
  split
  · exact hend _
  · exact Advances.keeps _ rfl rfl fun _ _ _ heq => by cases heq

theorem allow_tables (t : Tools) (connectionId : Id) :
    (t.allow connectionId).2.operations = t.operations ∧
      (t.allow connectionId).2.submissions = t.submissions := by
  simp only [allow]
  split <;> exact ⟨rfl, rfl⟩

theorem Advances.of_tables {before next : Tools} {task : SendTask}
    (h : Advances before next task) (hoperations : before.operations = t.operations)
    (hsubmissions : before.submissions = t.submissions) : Advances t next task := by
  cases h with
  | keeps task hkeys hsubmitted htask =>
      rw [hoperations] at hkeys
      rw [hsubmissions] at hsubmitted
      exact Advances.keeps task hkeys hsubmitted htask
  | creates wait operation message hkeys hfresh hsubmitted =>
      rw [hoperations] at hkeys hfresh
      rw [hsubmissions] at hsubmitted
      exact Advances.creates wait operation message hkeys hfresh hsubmitted

theorem mailSend_advances (ctx : McpAuthContext) (args : SendArgs) :
    Advances t (t.mailSend ctx args).1 (t.mailSend ctx args).2 := by
  obtain ⟨hoperations, hsubmissions⟩ := t.allow_tables ctx.connectionId
  simp only [mailSend]
  by_cases hscope : .mailSend ∉ ctx.scopes
  · simp only [hscope, not_false_eq_true, if_true]
    exact Advances.keeps _ rfl rfl fun _ _ _ heq => by cases heq
  · simp only [hscope, if_false]
    by_cases hallowed : (t.allow ctx.connectionId).1 = true
    · simp only [hallowed, if_true]
      exact (sendChecked_advances ctx args).of_tables hoperations hsubmissions
    · simp only [hallowed, if_false, Bool.false_eq_true]
      exact Advances.keeps _ (by rw [hoperations]) hsubmissions fun _ _ _ heq => by cases heq

theorem sendFailed_advances (wait : SendWait) (operation : Id) (message : OutgoingMessage)
    (error : ToolError) :
    Advances t (t.sendFailed wait operation message error).1
      (t.sendFailed wait operation message error).2 := by
  simp only [sendFailed]
  refine endCall_advances ?_ ?_ wait.ctx _
  · exact Operations.keys_finish ..
  · rfl

theorem sendDone_advances (wait : SendWait) (operation : Id) (message : OutgoingMessage)
    (result : SendResult) :
    Advances t (t.sendDone wait operation message result).1
      (t.sendDone wait operation message result).2 := by
  rw [sendDone]
  refine endCall_advances ?_ ?_ wait.ctx _
  · exact Operations.keys_finish ..
  · rfl

/-- A resumed call goes on without a submission, stays where it is, or submits. -/
theorem resumeSend_cases (t : Tools) (call : Nat) (task : SendTask) (reply : SendReply) :
    Advances t (t.resumeSend call task reply).1 (t.resumeSend call task reply).2 ∨
      t.resumeSend call task reply = (t, task) ∨
      ∃ wait operation message, task = .composing wait operation message ∧
        t.resumeSend call task reply = t.submit call wait operation message := by
  cases task with
  | reading wait =>
      cases reply with
      | original message => exact Or.inl (createOperation_advances wait (some message))
      | thrown error => exact Or.inl (endCall_advances rfl rfl wait.ctx _)
      | _ => exact Or.inr (Or.inl rfl)
  | composing wait operation message =>
      cases reply with
      | composed => exact Or.inr (Or.inr ⟨wait, operation, message, rfl, rfl⟩)
      | thrown error => exact Or.inl (sendFailed_advances wait operation message error)
      | _ => exact Or.inr (Or.inl rfl)
  | submitting wait operation message =>
      cases reply with
      | answered accepted rejected =>
          simp only [resumeSend]
          by_cases hsave : wait.saveSentCopies = true
          · simp only [hsave, if_true]
            exact Or.inl (Advances.keeps _ rfl rfl fun _ _ _ heq => by cases heq)
          · simp only [hsave, if_false, Bool.false_eq_true]
            exact Or.inl (sendDone_advances wait operation message _)
      | thrown error => exact Or.inl (sendFailed_advances wait operation message error)
      | _ => exact Or.inr (Or.inl rfl)
  | filing wait operation message accepted rejected =>
      cases reply with
      | filed error => exact Or.inl (sendDone_advances wait operation message _)
      | _ => exact Or.inr (Or.inl rfl)
  | ended answer => exact Or.inr (Or.inl rfl)

end Tools

namespace SendSystem

/-- Every message that went out, and every call about to send one, has an operation of its
own in the table. -/
structure Sound (s : SendSystem) : Prop where
  recorded : ∀ submission ∈ s.tools.submissions, submission.key ∈ s.tools.operations.keys
  once : (s.tools.submissions.map Submission.operation).Nodup
  early : ∀ submission ∈ s.tools.submissions, submission.call < s.tasks.length
  prepared : ∀ (index : Nat) wait operation message,
    s.tasks[index]? = some (.composing wait operation message) →
      wait.key operation ∈ s.tools.operations.keys ∧
        operation ∉ s.tools.submissions.map Submission.operation
  apart : ∀ (left right : Nat) wait wait' operation message message',
    s.tasks[left]? = some (.composing wait operation message) →
      s.tasks[right]? = some (.composing wait' operation message') → left = right

theorem initial_sound (server : Server) (settings : ToolSettings) (operations : Operations)
    (nextDraw : Nat) : (initial server settings operations nextDraw).Sound where
  recorded := fun _ hmem => absurd hmem List.not_mem_nil
  once := List.nodup_nil
  early := fun _ hmem => absurd hmem List.not_mem_nil
  prepared := fun _ _ _ _ htask => absurd htask.symm (Option.some_ne_none _)
  apart := fun _ _ _ _ _ _ _ htask => absurd htask.symm (Option.some_ne_none _)

namespace Sound

variable {s : SendSystem}

/-- The waits of a call list hold no call about to send that the old list did not. -/
def Derived (old new : List SendTask) (added : Nat) (task : SendTask) : Prop :=
  ∀ (index : Nat) wait operation message,
    new[index]? = some (.composing wait operation message) →
      (index = added ∧ task = .composing wait operation message) ∨
        (index ≠ added ∧ old[index]? = some (.composing wait operation message))

theorem derived_append (tasks : List SendTask) (task : SendTask) :
    Derived tasks (tasks ++ [task]) tasks.length task := by
  intro index wait operation message hnew
  by_cases hindex : index < tasks.length
  · rw [List.getElem?_append_left hindex] at hnew
    exact Or.inr ⟨Nat.ne_of_lt hindex, hnew⟩
  · rw [List.getElem?_append_right (Nat.not_lt.mp hindex)] at hnew
    have hzero : index - tasks.length = 0 := by
      by_contra hne
      rw [List.getElem?_eq_none (by simp; omega)] at hnew
      exact absurd hnew.symm (Option.some_ne_none _)
    rw [hzero] at hnew
    exact Or.inl ⟨by omega, Option.some.inj hnew⟩

theorem derived_set (tasks : List SendTask) (call : Nat) (task : SendTask) :
    Derived tasks (tasks.set call task) call task := by
  intro index wait operation message hnew
  rw [List.getElem?_set] at hnew
  by_cases hcall : call = index
  · rw [if_pos hcall] at hnew
    by_cases hlt : call < tasks.length
    · rw [if_pos hlt] at hnew
      exact Or.inl ⟨hcall.symm, Option.some.inj hnew⟩
    · rw [if_neg hlt] at hnew
      exact absurd hnew.symm (Option.some_ne_none _)
  · rw [if_neg hcall] at hnew
    exact Or.inr ⟨fun heq => hcall heq.symm, hnew⟩

theorem of_advances (hsound : s.Sound) {next : Tools} {task : SendTask}
    {tasks : List SendTask} {added : Nat} (hadvances : s.tools.Advances next task)
    (hderived : Derived s.tasks tasks added task) (hlength : s.tasks.length ≤ tasks.length) :
    Sound ⟨next, tasks⟩ := by
  cases hadvances with
  | keeps task hkeys hsubmissions htask =>
      have hold : ∀ (index : Nat) wait operation message,
          tasks[index]? = some (.composing wait operation message) →
            s.tasks[index]? = some (.composing wait operation message) := by
        intro index wait operation message hnew
        rcases hderived index wait operation message hnew with ⟨-, heq⟩ | ⟨-, hold⟩
        · exact absurd heq (htask wait operation message)
        · exact hold
      refine ⟨?_, ?_, ?_, ?_, ?_⟩
      · intro submission hmem
        rw [hsubmissions] at hmem
        rw [hkeys]
        exact hsound.recorded submission hmem
      · rw [hsubmissions]
        exact hsound.once
      · intro submission hmem
        rw [hsubmissions] at hmem
        exact Nat.lt_of_lt_of_le (hsound.early submission hmem) hlength
      · intro index wait operation message hnew
        rw [hkeys, hsubmissions]
        exact hsound.prepared index wait operation message (hold _ _ _ _ hnew)
      · intro left right wait wait' operation message message' hleft hright
        exact hsound.apart left right wait wait' operation message message'
          (hold _ _ _ _ hleft) (hold _ _ _ _ hright)
  | creates wait operation message hkeys hfresh hsubmissions =>
      have hunsent : operation ∉ s.tools.submissions.map Submission.operation := by
        intro hmem
        obtain ⟨submission, hsubmission, heq⟩ := List.mem_map.mp hmem
        exact hfresh _ (hsound.recorded submission hsubmission) heq
      have hother : ∀ (index : Nat) wait' message',
          s.tasks[index]? ≠ some (.composing wait' operation message') := by
        intro index wait' message' hold
        exact hfresh _ (hsound.prepared index wait' operation message' hold).1 rfl
      refine ⟨?_, ?_, ?_, ?_, ?_⟩
      · intro submission hmem
        rw [hsubmissions] at hmem
        rw [hkeys]
        exact List.mem_append_left _ (hsound.recorded submission hmem)
      · rw [hsubmissions]
        exact hsound.once
      · intro submission hmem
        rw [hsubmissions] at hmem
        exact Nat.lt_of_lt_of_le (hsound.early submission hmem) hlength
      · intro index wait' operation' message' hnew
        rw [hkeys, hsubmissions]
        rcases hderived index wait' operation' message' hnew with ⟨-, heq⟩ | ⟨-, hold⟩
        · cases heq
          exact ⟨List.mem_append_right _ List.mem_cons_self, hunsent⟩
        · obtain ⟨hkey, hnot⟩ := hsound.prepared index wait' operation' message' hold
          exact ⟨List.mem_append_left _ hkey, hnot⟩
      · intro left right wait₁ wait₂ operation' message₁ message₂ hleft hright
        rcases hderived left wait₁ operation' message₁ hleft with ⟨hl, heql⟩ | ⟨-, holdl⟩
        · rcases hderived right wait₂ operation' message₂ hright with ⟨hr, -⟩ | ⟨-, holdr⟩
          · rw [hl, hr]
          · cases heql
            exact absurd holdr (hother right wait₂ message₂)
        · rcases hderived right wait₂ operation' message₂ hright with ⟨-, heqr⟩ | ⟨-, holdr⟩
          · cases heqr
            exact absurd holdl (hother left wait₁ message₁)
          · exact hsound.apart left right wait₁ wait₂ operation' message₁ message₂ holdl holdr

theorem submit (hsound : s.Sound) {call : Nat} {wait : SendWait} {operation : Id}
    {message : OutgoingMessage}
    (htask : s.tasks[call]? = some (.composing wait operation message)) :
    Sound ⟨(s.tools.submit call wait operation message).1,
      s.tasks.set call (.submitting wait operation message)⟩ := by
  obtain ⟨hkey, hunsent⟩ := hsound.prepared call wait operation message htask
  have hlt : call < s.tasks.length := (List.getElem?_eq_some_iff.mp htask).1
  have hold : ∀ (index : Nat) wait' operation' message',
      (s.tasks.set call (.submitting wait operation message))[index]? =
          some (.composing wait' operation' message') →
        index ≠ call ∧ s.tasks[index]? = some (.composing wait' operation' message') := by
    intro index wait' operation' message' hnew
    rcases derived_set s.tasks call _ index wait' operation' message' hnew with
      ⟨-, heq⟩ | hrest
    · cases heq
    · exact hrest
  refine ⟨?_, ?_, ?_, ?_, ?_⟩
  · intro submission hmem
    rcases List.mem_append.mp hmem with hmem | hmem
    · exact hsound.recorded submission hmem
    · rw [List.mem_singleton.mp hmem]
      exact hkey
  · simp only [Tools.submit, List.map_append, List.map_cons, List.map_nil]
    apply List.Nodup.append hsound.once (List.nodup_singleton _)
    intro other hother hsame
    rw [List.mem_singleton] at hsame
    exact hunsent (hsame ▸ hother)
  · intro submission hmem
    rw [List.length_set]
    rcases List.mem_append.mp hmem with hmem | hmem
    · exact hsound.early submission hmem
    · rw [List.mem_singleton.mp hmem]
      exact hlt
  · intro index wait' operation' message' hnew
    obtain ⟨hne, hwas⟩ := hold index wait' operation' message' hnew
    obtain ⟨hkey', hunsent'⟩ := hsound.prepared index wait' operation' message' hwas
    refine ⟨hkey', ?_⟩
    simp only [Tools.submit, List.map_append, List.map_cons, List.map_nil, List.mem_append,
      List.mem_singleton, not_or]
    refine ⟨hunsent', ?_⟩
    intro hsame
    subst hsame
    exact hne (hsound.apart index call wait' wait operation' message' message hwas htask)
  · intro left right wait₁ wait₂ operation' message₁ message₂ hleft hright
    exact hsound.apart left right wait₁ wait₂ operation' message₁ message₂
      (hold _ _ _ _ hleft).2 (hold _ _ _ _ hright).2

theorem cutOff_ne_composing (task : SendTask) (wait : SendWait) (operation : Id)
    (message : OutgoingMessage) : task.cutOff ≠ .composing wait operation message := by
  cases task <;> exact SendTask.noConfusion

theorem step (hsound : s.Sound) (label : SendLabel) : (s.step label).Sound := by
  cases label with
  | call ctx args =>
      apply hsound.of_advances (Tools.mailSend_advances ctx args) (derived_append _ _)
      simp
  | resume call reply =>
      cases htask : s.tasks[call]? with
      | none =>
          rw [step_resume_of_none reply htask]
          exact hsound
      | some task =>
          rw [step_resume reply htask]
          rcases s.tools.resumeSend_cases call task reply with
            hadvances | hstays | ⟨wait, operation, message, rfl, hsubmit⟩
          · apply hsound.of_advances hadvances (derived_set _ _ _)
            simp
          · have hset : s.tasks.set call task = s.tasks := by
              obtain ⟨hlt, heq⟩ := List.getElem?_eq_some_iff.mp htask
              rw [← heq, List.set_getElem_self]
            rw [hstays, hset]
            exact hsound
          · rw [hsubmit]
            exact hsound.submit htask
  | crash =>
      have hnone : ∀ (index : Nat) wait operation message,
          (s.tasks.map SendTask.cutOff)[index]? ≠
            some (.composing wait operation message) := by
        intro index wait operation message heq
        rw [List.getElem?_map] at heq
        obtain ⟨task, -, hcut⟩ := Option.map_eq_some_iff.mp heq
        exact cutOff_ne_composing task wait operation message hcut
      refine ⟨hsound.recorded, hsound.once, ?_, ?_, ?_⟩
      · intro submission hmem
        simpa [SendSystem.step] using hsound.early submission hmem
      · intro index wait operation message htask
        exact absurd htask (hnone index wait operation message)
      · intro left right wait wait' operation message message' hleft
        exact absurd hleft (hnone left wait operation message)
  | serve server =>
      exact ⟨hsound.recorded, hsound.once, hsound.early, hsound.prepared, hsound.apart⟩
  | configure settings =>
      exact ⟨hsound.recorded, hsound.once, hsound.early, hsound.prepared, hsound.apart⟩

/-- One submission for one key of one connection. -/
theorem submissions_le_one (hsound : s.Sound) (connectionId : Id) (key : String) :
    s.tools.submissions.countP (fun submission =>
      submission.connectionId = connectionId && submission.idempotencyKey = some key) ≤ 1 := by
  apply RowTable.countP_le_one hsound.once
  intro left hleft right hright hmeetsLeft hmeetsRight
  simp only [Bool.and_eq_true, decide_eq_true_eq] at hmeetsLeft hmeetsRight
  exact Operations.eq_of_idempotencyKey (hsound.recorded left hleft)
    (hsound.recorded right hright) (hmeetsLeft.1.trans hmeetsRight.1.symm) rfl
    hmeetsLeft.2 hmeetsRight.2

end Sound

/-- This call is over and has sent nothing. -/
def Declined (s : SendSystem) (call : Nat) : Prop :=
  (∃ answer, s.tasks[call]? = some (.ended answer)) ∧
    ∀ submission ∈ s.tools.submissions, submission.call ≠ call

theorem submissions_of_advances {t next : Tools} {task : SendTask}
    (hadvances : t.Advances next task) : next.submissions = t.submissions := by
  cases hadvances with
  | keeps task hkeys hsubmissions htask => exact hsubmissions
  | creates wait operation message hkeys hfresh hsubmissions => exact hsubmissions

theorem declined_of_advances {s : SendSystem} {call : Nat} {next : Tools} {task : SendTask}
    {tasks : List SendTask} (hdeclined : s.Declined call)
    (hadvances : s.tools.Advances next task) (htasks : tasks[call]? = s.tasks[call]?) :
    Declined ⟨next, tasks⟩ call := by
  refine ⟨?_, ?_⟩
  · rw [htasks]
    exact hdeclined.1
  · rw [submissions_of_advances hadvances]
    exact hdeclined.2

theorem declined_step {s : SendSystem} {call : Nat} (hdeclined : s.Declined call)
    (label : SendLabel) : (s.step label).Declined call := by
  obtain ⟨⟨answer, hended⟩, hunsent⟩ := hdeclined
  have hlt : call < s.tasks.length := (List.getElem?_eq_some_iff.mp hended).1
  cases label with
  | call ctx args =>
      exact declined_of_advances ⟨⟨answer, hended⟩, hunsent⟩
        (Tools.mailSend_advances ctx args) (List.getElem?_append_left hlt)
  | resume other reply =>
      by_cases hother : other = call
      · subst hother
        rw [step_resume reply hended]
        refine ⟨⟨answer, ?_⟩, hunsent⟩
        simp [Tools.resumeSend, hlt]
      · cases htask : s.tasks[other]? with
        | none =>
            rw [step_resume_of_none reply htask]
            exact ⟨⟨answer, hended⟩, hunsent⟩
        | some task =>
            rw [step_resume reply htask]
            have hkept : ∀ next, (s.tasks.set other next)[call]? = s.tasks[call]? :=
              fun next => List.getElem?_set_ne hother
            rcases s.tools.resumeSend_cases other task reply with
              hadvances | hstays | ⟨wait, operation, message, rfl, hsubmit⟩
            · exact declined_of_advances ⟨⟨answer, hended⟩, hunsent⟩ hadvances (hkept _)
            · rw [hstays]
              exact ⟨⟨answer, (hkept _).trans hended⟩, hunsent⟩
            · rw [hsubmit]
              refine ⟨⟨answer, (hkept _).trans hended⟩, ?_⟩
              intro submission hmem
              rcases List.mem_append.mp hmem with hmem | hmem
              · exact hunsent submission hmem
              · rw [List.mem_singleton.mp hmem]
                exact hother
  | crash =>
      refine ⟨⟨answer, ?_⟩, hunsent⟩
      simp [step, hended, SendTask.cutOff]
  | serve server => exact ⟨⟨answer, hended⟩, hunsent⟩
  | configure settings => exact ⟨⟨answer, hended⟩, hunsent⟩

end SendSystem

namespace Tools

variable {t : Tools}

/-- A call whose key has an operation ends where it starts, with the answer that belongs to the
operation's status. -/
theorem mailSend_ends_of_previous {ctx : McpAuthContext} {args : SendArgs}
    (hprevious : t.previous ctx args ≠ none) :
    ∃ answer, (t.mailSend ctx args).2 = .ended answer := by
  have hend : ∀ (next : Tools) result, ∃ answer, (next.endCall ctx result).2 = .ended answer :=
    fun next result => (next.endCall_ended ctx result).imp' some fun _ heq => heq
  simp only [mailSend]
  split
  · exact ⟨_, rfl⟩
  split
  · rw [sendChecked]
    split
    · exact hend _ _
    split
    · exact hend _ _
    · rename_i hnone
      rw [previous, (t.allow_tables ctx.connectionId).1] at hnone
      exact absurd hnone hprevious
  · exact ⟨_, rfl⟩

end Tools

namespace SendSystem

theorem declined_of_previous {s : SendSystem} (hsound : s.Sound) {ctx : McpAuthContext}
    {args : SendArgs} (hprevious : s.tools.previous ctx args ≠ none) :
    (s.step (.call ctx args)).Declined s.tasks.length := by
  obtain ⟨answer, hended⟩ := Tools.mailSend_ends_of_previous hprevious
  refine ⟨⟨answer, ?_⟩, ?_⟩
  · simp [step, hended]
  · intro submission hmem
    have hsame : (s.step (.call ctx args)).tools.submissions = s.tools.submissions :=
      submissions_of_advances (Tools.mailSend_advances ctx args)
    rw [hsame] at hmem
    exact Nat.ne_of_lt (hsound.early submission hmem)

variable (server : Server) (settings : ToolSettings) (operations : Operations)
  (nextDraw : Nat) (labels : List SendLabel)

theorem run_sound : (run step (initial server settings operations nextDraw) labels).Sound :=
  invariant_of_run step Sound (fun _ label hsound => hsound.step label) labels
    (initial_sound server settings operations nextDraw)

/-- Every run hands at most one message to the SMTP server for one key of one connection, and a
call that finds an operation of its key hands it none. Calls may overlap at every wait and the
service may crash at any time: the row is inserted under a unique index before the message goes
out. -/
theorem mailSend_submits_once :
    let start := initial server settings operations nextDraw
    (∀ connectionId key,
      (run step start labels).tools.submissions.countP (fun submission =>
        submission.connectionId = connectionId &&
          submission.idempotencyKey = some key) ≤ 1) ∧
      ∀ before ctx args after, labels = before ++ .call ctx args :: after →
        (run step start before).tools.previous ctx args ≠ none →
          ∀ submission ∈ (run step start labels).tools.submissions,
            submission.call ≠ (run step start before).tasks.length := by
  intro start
  constructor
  · intro connectionId key
    exact (run_sound server settings operations nextDraw labels).submissions_le_one
      connectionId key
  · intro before ctx args after hlabels hprevious
    have hsound := run_sound server settings operations nextDraw before
    have hdeclined := declined_of_previous hsound hprevious
    have hend := invariant_of_run step (fun s => s.Declined (run step start before).tasks.length)
      (fun _ label h => declined_step h label) after hdeclined
    rw [hlabels, run_append, run_cons]
    exact hend.2

end SendSystem

/- Two calls with one key look for it at the same time; one of them is cut off after its
submission, and a third comes after the restart. -/
namespace RetriedSend

open SendSystem

def settings : McpSettings where
  enabled := true
  publicBaseUrl := some "https://mcp.example.com"
  setupCredentialTtlHours := 24
  connectionExpiryDays := none
  maxConnectionsPerMailbox := 5
  accessTokenTtlMinutes := 15
  refreshTokenTtlDays := 30
  sendsPerHour := 10
  sendsPerDay := 50
  dynamicRegistration := false
  metadataDocuments := true

def server : Server :=
  { Server.initial settings (some "k1") 1000 with
    bindings := [⟨2, "user@example.com", "f1", .active, none, none, none, none⟩]
    credentials := [⟨2, "k1", "secret", 1⟩] }

def ctx : McpAuthContext where
  connectionId := 1
  bindingId := 2
  mailbox := "user@example.com"
  grantId := 3
  clientId := "client"
  scopes := [.mailRead, .mailSend]
  senderIdentities := []

def reply : SendArgs where
  «to» := ["other@example.org"]
  cc := []
  bcc := []
  subject := "Hello"
  text := some "Text"
  html := none
  «from» := none
  fromName := none
  replyToMessageId := some (some ⟨"INBOX", 1, 7⟩)
  attachments := []
  idempotencyKey := some "retry-key"

def start : SendSystem :=
  initial server ⟨60, 10, 50, 25, 1048576, true⟩ Operations.empty 100

/-- Both calls wait for the message they reply to; the first gets its row, the second is
refused it, and the first submits before the crash. -/
def overlapped : List SendLabel :=
  [.call ctx reply, .call ctx reply, .resume 0 (.original ⟨none, none⟩),
    .resume 1 (.original ⟨none, none⟩), .resume 0 .composed, .crash]

example : ((run step start overlapped).tools.submissions.map Submission.call) = [0] := by
  decide +kernel

/-- The first call is cut off by a crash after its submission. The call after the restart finds
the operation and sends nothing. -/
theorem retried_call_sends_nothing :
    ∀ submission ∈ (run step start (overlapped ++ [.call ctx reply])).tools.submissions,
      submission.call ≠ 2 := by
  have hfound : (run step start overlapped).tools.previous ctx reply ≠ none := by
    decide +kernel
  have hcall : (run step start overlapped).tasks.length = 2 := by decide
  have hdeclined := (mailSend_submits_once server ⟨60, 10, 50, 25, 1048576, true⟩
    Operations.empty 100 (overlapped ++ [.call ctx reply])).2 overlapped ctx reply [] rfl hfound
  intro submission hmem
  rw [← hcall]
  exact hdeclined submission hmem

end RetriedSend

end Mcp

end MailPanel

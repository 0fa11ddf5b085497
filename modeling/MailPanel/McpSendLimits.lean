import MailPanel.McpSending

/-
The sending limits of a connection against calls that overlap: how many operations of one
window go to the SMTP server.
-/

namespace MailPanel

namespace Mcp

open StepRun

def oneHour : Time := 3600000

def oneDay : Time := 86400000

/-- The status counts against the limits. -/
def OperationRow.counts (row : OperationRow) : Bool :=
  row.status = .pending || row.status = .completed || row.status = .unknown

/-- A send of the connection, created within this time from the opening of a window on. -/
def OperationRow.sentWithin (connectionId : Id) (opening length : Time) (row : OperationRow) :
    Bool :=
  row.connectionId = connectionId && row.kind = .send && opening ≤ row.createdAt &&
    row.createdAt ≤ opening + length

/-- Every window with this time in it has room for another counted send. -/
def Operations.RoomAt (operations : Operations) (connectionId : Id) (time length : Time)
    (limit : Nat) : Prop :=
  ∀ opening, opening ≤ time → time ≤ opening + length →
    (operations.rows.countP fun row =>
      row.counts && row.sentWithin connectionId opening length) < limit

/-- Room in the hours and in the days. -/
structure Tools.RoomFor (t : Tools) (connectionId : Id) (time : Time) : Prop where
  hour : t.operations.RoomAt connectionId time oneHour t.settings.sendsPerHour
  day : t.operations.RoomAt connectionId time oneDay t.settings.sendsPerDay

namespace SendSystem

/-- The operations of one window that went to the SMTP server. -/
def submittedWithin (s : SendSystem) (connectionId : Id) (opening length : Time) : Nat :=
  s.tools.operations.rows.countP fun row =>
    row.id ∈ s.tools.submissions.map Submission.operation &&
      row.sentWithin connectionId opening length

structure WithinLimits (s : SendSystem) (settings : ToolSettings) : Prop where
  hour : ∀ connectionId opening,
    s.submittedWithin connectionId opening oneHour ≤ settings.sendsPerHour
  day : ∀ connectionId opening,
    s.submittedWithin connectionId opening oneDay ≤ settings.sendsPerDay

/-- A call that has waited for the message it replies to finds room as it goes on; what went
to the SMTP server does not end as failed; and the limits stay. -/
def KeepsCount (s : SendSystem) : SendLabel → Prop
  | .resume call reply =>
      match s.tasks[call]?, reply with
      | some (.reading wait), .original _ =>
          s.tools.RoomFor wait.ctx.connectionId wait.startedAt
      | some (.submitting _ _ _), .thrown error => ∃ message, error = .mailError .sendUncertain message
      | _, _ => True
  | .configure settings => settings.sendsPerHour = s.tools.settings.sendsPerHour ∧
      settings.sendsPerDay = s.tools.settings.sendsPerDay
  | _ => True

end SendSystem

/- The operations of the calls under way -/

def SendTask.composed : SendTask → Option Id
  | .composing _ operation _ => some operation
  | _ => none

namespace SendSystem

/-- The operations that went to the SMTP server, or are about to. -/
def live (s : SendSystem) : List Id :=
  s.tools.submissions.map Submission.operation ++ s.tasks.filterMap SendTask.composed

def liveWithin (s : SendSystem) (connectionId : Id) (opening length : Time) : Nat :=
  s.tools.operations.rows.countP fun row =>
    row.id ∈ s.live && row.sentWithin connectionId opening length

/-- The bound, of the operations that went out and of those about to, which all count. Live are
the operations that have been or may yet be handed to the mail server. -/
structure Bounded (s : SendSystem) (settings : ToolSettings) : Prop where
  perHour : s.tools.settings.sendsPerHour = settings.sendsPerHour
  perDay : s.tools.settings.sendsPerDay = settings.sendsPerDay
  counted : ∀ row ∈ s.tools.operations.rows, row.id ∈ s.live → row.counts = true
  hour : ∀ connectionId opening,
    s.liveWithin connectionId opening oneHour ≤ settings.sendsPerHour
  day : ∀ connectionId opening,
    s.liveWithin connectionId opening oneDay ≤ settings.sendsPerDay

theorem Bounded.withinLimits {s : SendSystem} {settings : ToolSettings}
    (hbounded : s.Bounded settings) : s.WithinLimits settings := by
  have hle : ∀ connectionId opening length,
      s.submittedWithin connectionId opening length ≤
        s.liveWithin connectionId opening length := by
    intro connectionId opening length
    apply List.countP_mono_left
    intro row _ hrow
    rw [Bool.and_eq_true, decide_eq_true_eq] at hrow ⊢
    exact ⟨List.mem_append_left _ hrow.1, hrow.2⟩
  refine ⟨?_, ?_⟩
  · intro connectionId opening
    exact Nat.le_trans (hle _ _ _) (hbounded.hour connectionId opening)
  · intro connectionId opening
    exact Nat.le_trans (hle _ _ _) (hbounded.day connectionId opening)

/-- A step that adds no operation: it may finish one, and a live one goes on counting. Times and
connections of the rows stay as they are. -/
structure Carries (s next : SendSystem) : Prop where
  perHour : next.tools.settings.sendsPerHour = s.tools.settings.sendsPerHour
  perDay : next.tools.settings.sendsPerDay = s.tools.settings.sendsPerDay
  live : ∀ id ∈ next.live, id ∈ s.live
  rows : ∃ change : OperationRow → OperationRow,
    next.tools.operations.rows = s.tools.operations.rows.map change ∧
      ∀ row, (change row).id = row.id ∧
        (∀ connectionId opening length, (change row).sentWithin connectionId opening length =
          row.sentWithin connectionId opening length) ∧
        (row.id ∈ next.live → row.counts = true → (change row).counts = true)

/-- A step that adds an operation, with room for it: its row is new, it counts from now on, and
the check that it passed was made in the same segment. -/
structure Adds (s next : SendSystem) (row : OperationRow) : Prop where
  settings : next.tools.settings = s.tools.settings
  rows : next.tools.operations.rows = s.tools.operations.rows ++ [row]
  fresh : ∀ old ∈ s.tools.operations.rows, old.id ≠ row.id
  live : ∀ id ∈ next.live, id ∈ s.live ∨ id = row.id
  counts : row.counts = true
  room : s.tools.RoomFor row.connectionId row.createdAt

variable {s next : SendSystem} {settings : ToolSettings}

theorem Bounded.carries (hbounded : s.Bounded settings) (hcarries : s.Carries next) :
    next.Bounded settings := by
  obtain ⟨change, hrows, hchange⟩ := hcarries.rows
  have hle : ∀ connectionId opening length, next.liveWithin connectionId opening length ≤
      s.liveWithin connectionId opening length := by
    intro connectionId opening length
    rw [liveWithin, liveWithin, hrows, List.countP_map]
    apply List.countP_mono_left
    intro row _ hrow
    obtain ⟨hid, hsent, -⟩ := hchange row
    rw [Function.comp_apply, Bool.and_eq_true, decide_eq_true_eq, hid, hsent] at hrow
    rw [Bool.and_eq_true, decide_eq_true_eq]
    exact ⟨hcarries.live row.id hrow.1, hrow.2⟩
  refine ⟨hcarries.perHour.trans hbounded.perHour, hcarries.perDay.trans hbounded.perDay,
    ?_, ?_, ?_⟩
  · intro row hrow hlive
    rw [hrows] at hrow
    obtain ⟨old, hold, rfl⟩ := List.mem_map.mp hrow
    obtain ⟨hid, -, hcounts⟩ := hchange old
    rw [hid] at hlive
    exact hcounts hlive (hbounded.counted old hold (hcarries.live old.id hlive))
  · intro connectionId opening
    exact Nat.le_trans (hle _ _ _) (hbounded.hour connectionId opening)
  · intro connectionId opening
    exact Nat.le_trans (hle _ _ _) (hbounded.day connectionId opening)

/-- The window of one limit after an operation is added: it holds one more than before at most,
and there was room for it. -/
theorem Adds.liveWithin_le {row : OperationRow} (hadds : s.Adds next row)
    (hcounted : ∀ row ∈ s.tools.operations.rows, row.id ∈ s.live → row.counts = true)
    {length : Time} {limit : Nat}
    (hroom : s.tools.operations.RoomAt row.connectionId row.createdAt length limit)
    (hbound : ∀ connectionId opening, s.liveWithin connectionId opening length ≤ limit)
    (connectionId : Id) (opening : Time) :
    next.liveWithin connectionId opening length ≤ limit := by
  have hold : (s.tools.operations.rows.countP fun old =>
      old.id ∈ next.live && old.sentWithin connectionId opening length) ≤
        s.liveWithin connectionId opening length := by
    apply List.countP_mono_left
    intro old hold hsent
    rw [Bool.and_eq_true, decide_eq_true_eq] at hsent ⊢
    refine ⟨?_, hsent.2⟩
    rcases hadds.live old.id hsent.1 with hlive | hsame
    · exact hlive
    · exact absurd hsame (hadds.fresh old hold)
  rw [liveWithin, hadds.rows, List.countP_append]
  by_cases hsent : row.sentWithin connectionId opening length = true
  · have hwindow := hsent
    simp only [OperationRow.sentWithin, Bool.and_eq_true, decide_eq_true_eq] at hwindow
    obtain ⟨⟨⟨hconnection, -⟩, hopening⟩, hclosing⟩ := hwindow
    have hfree := hroom opening hopening hclosing
    rw [hconnection] at hfree
    have hcount : s.liveWithin connectionId opening length ≤
        s.tools.operations.rows.countP fun old =>
          old.counts && old.sentWithin connectionId opening length := by
      apply List.countP_mono_left
      intro old hold hlive
      rw [Bool.and_eq_true, decide_eq_true_eq] at hlive
      rw [Bool.and_eq_true]
      exact ⟨hcounted old hold hlive.1, hlive.2⟩
    have hone := List.countP_le_length (p := fun old : OperationRow =>
      old.id ∈ next.live && old.sentWithin connectionId opening length) (l := [row])
    rw [List.length_singleton] at hone
    omega
  · have hnone : ([row].countP fun old : OperationRow =>
        old.id ∈ next.live && old.sentWithin connectionId opening length) = 0 := by
      rw [List.countP_eq_zero]
      intro old hmem
      rw [List.mem_singleton.mp hmem, Bool.and_eq_true]
      exact fun h => hsent h.2
    have hlimit := hbound connectionId opening
    omega

theorem Bounded.adds (hbounded : s.Bounded settings) {row : OperationRow}
    (hadds : s.Adds next row) : next.Bounded settings := by
  have hroom := hadds.room
  refine ⟨?_, ?_, ?_, ?_, ?_⟩
  · rw [hadds.settings]
    exact hbounded.perHour
  · rw [hadds.settings]
    exact hbounded.perDay
  · intro found hfound hlive
    rw [hadds.rows] at hfound
    rcases List.mem_append.mp hfound with hold | hnew
    · rcases hadds.live found.id hlive with hlive | hsame
      · exact hbounded.counted found hold hlive
      · exact absurd hsame (hadds.fresh found hold)
    · rw [List.mem_singleton.mp hnew]
      exact hadds.counts
  · apply hadds.liveWithin_le hbounded.counted _ hbounded.hour
    rw [← hbounded.perHour]
    exact hroom.hour
  · apply hadds.liveWithin_le hbounded.counted _ hbounded.day
    rw [← hbounded.perDay]
    exact hroom.day

end SendSystem

/- What each part of a call does -/

namespace Tools

variable {t : Tools}

theorem endCall_settings (t : Tools) (ctx : McpAuthContext)
    (result : Except ToolError SendAnswer) : (t.endCall ctx result).1.settings = t.settings := by
  cases result with
  | ok answer => rfl
  | error error =>
      cases error with
      | toolFailure message => rfl
      | mailError kind message => cases kind <;> rfl
      | other message => rfl

/-- The tables and the settings are left as they are. -/
structure Keeps (t next : Tools) : Prop where
  operations : next.operations = t.operations
  submissions : next.submissions = t.submissions
  settings : next.settings = t.settings

theorem Keeps.trans {between next : Tools} (hfirst : t.Keeps between)
    (hsecond : between.Keeps next) : t.Keeps next :=
  ⟨hsecond.operations.trans hfirst.operations, hsecond.submissions.trans hfirst.submissions,
    hsecond.settings.trans hfirst.settings⟩

theorem endCall_keeps (t : Tools) (ctx : McpAuthContext)
    (result : Except ToolError SendAnswer) : t.Keeps (t.endCall ctx result).1 :=
  ⟨(t.endCall_tables ctx result).1, (t.endCall_tables ctx result).2, t.endCall_settings ctx result⟩

theorem endCall_composed (t : Tools) (ctx : McpAuthContext)
    (result : Except ToolError SendAnswer) : (t.endCall ctx result).2.composed = none := by
  obtain ⟨answer, hended⟩ := t.endCall_ended ctx result
  rw [hended]
  rfl

/-- The operation that a call starts to send: its row is written with the id that the call goes
on with, and this step hands nothing to the mail server. -/
structure Starts (t next : Tools) (wait : SendWait) (task : SendTask) (row : OperationRow) :
    Prop where
  rows : next.operations.rows = t.operations.rows ++ [row]
  fresh : ∀ old ∈ t.operations.rows, old.id ≠ row.id
  submissions : next.submissions = t.submissions
  settings : next.settings = t.settings
  composed : task.composed = some row.id
  counts : row.counts = true
  connection : row.connectionId = wait.ctx.connectionId
  createdAt : row.createdAt = wait.startedAt

theorem createOperation_cases (t : Tools) (wait : SendWait) (reply : Option RepliedMessage) :
    (t.Keeps (t.createOperation wait reply).1 ∧
        (t.createOperation wait reply).2.composed = none) ∨
      ∃ row, t.Starts (t.createOperation wait reply).1 wait (t.createOperation wait reply).2
        row := by
  rw [createOperation]
  dsimp only
  split
  · refine Or.inl ⟨?_, endCall_composed _ _ _⟩
    have hdrawn : t.Keeps { t with nextDraw := t.nextDraw + 2 } := ⟨rfl, rfl, rfl⟩
    exact hdrawn.trans (endCall_keeps _ _ _)
  · rename_i operations hcreate
    refine Or.inr ⟨t.pendingRow wait (t.outgoing wait reply), ?_⟩
    rw [Operations.create] at hcreate
    split at hcreate
    · rename_i hfree
      have hrows : operations.rows =
          t.operations.rows ++ [t.pendingRow wait (t.outgoing wait reply)] := by
        rw [← Option.some.inj hcreate]
      refine ⟨hrows, ?_, rfl, rfl, rfl, rfl, rfl, rfl⟩
      intro old hold hsame
      have hconflict := hfree old hold
      rw [OperationRow.conflicts, Bool.or_eq_false_iff, decide_eq_false_iff_not] at hconflict
      exact hconflict.1 hsame
    · cases hcreate

/-- A call that passes the limits finds room at its start. What follows may wait, and the room
be taken by another call. -/
theorem openWait_roomFor {ctx : McpAuthContext} {args : SendArgs} {fromAddress : String}
    {wait : SendWait} (hopen : t.openWait ctx args fromAddress = .ok wait) :
    t.RoomFor wait.ctx.connectionId wait.startedAt := by
  rw [openWait] at hopen
  split at hopen
  · cases hopen
  rename_i hlimits
  obtain ⟨account, -, rfl⟩ : ∃ account, t.account ctx = .ok account ∧
      ⟨ctx, args, fromAddress, account, t.settings.saveSentCopies, t.server.now⟩ = wait := by
    cases haccount : t.account ctx with
    | error error =>
        rw [haccount] at hopen
        cases hopen
    | ok account =>
        rw [haccount] at hopen
        exact ⟨account, rfl, Except.ok.inj hopen⟩
  have hroom : ∀ length limit,
      t.operations.countSendsSince ctx.connectionId (t.server.now - length) < limit →
        t.operations.RoomAt ctx.connectionId t.server.now length limit := by
    intro length limit hcount opening hopening hclosing
    refine Nat.lt_of_le_of_lt ?_ hcount
    apply List.countP_mono_left
    intro row _ hrow
    simp only [OperationRow.counts, OperationRow.sentWithin, Bool.and_eq_true, Bool.or_eq_true,
      decide_eq_true_eq] at hrow ⊢
    obtain ⟨hcounts, ⟨⟨hconnection, hkind⟩, hfrom⟩, -⟩ := hrow
    have hsince : t.server.now - length ≤ row.createdAt :=
      Nat.sub_le_iff_le_add.mpr (Nat.le_trans hclosing (Nat.add_le_add_right hfrom length))
    exact ⟨⟨⟨hconnection, hkind⟩, hcounts⟩, hsince⟩
  rw [not_or, Nat.not_le, Nat.not_le] at hlimits
  exact ⟨hroom oneHour _ hlimits.1, hroom oneDay _ hlimits.2⟩

/-- A new call ends, waits for the message it replies to, or starts to send with room. -/
theorem sendChecked_cases (t : Tools) (ctx : McpAuthContext) (args : SendArgs) :
    (t.Keeps (t.sendChecked ctx args).1 ∧ (t.sendChecked ctx args).2.composed = none) ∨
      ∃ wait row, t.Starts (t.sendChecked ctx args).1 wait (t.sendChecked ctx args).2 row ∧
        t.RoomFor wait.ctx.connectionId wait.startedAt := by
  have hend : ∀ result, t.Keeps (t.endCall ctx result).1 ∧
      (t.endCall ctx result).2.composed = none :=
    fun result => ⟨endCall_keeps t ctx result, endCall_composed t ctx result⟩
  rw [sendChecked]
  split
  · exact Or.inl (hend _)
  split
  · exact Or.inl (hend _)
  split
  · exact Or.inl (hend _)
  rename_i wait hopen
  split
  · rcases createOperation_cases t wait none with hkeeps | ⟨row, hstarts⟩
    · exact Or.inl hkeeps
    · exact Or.inr ⟨wait, row, hstarts, openWait_roomFor hopen⟩
  split
  · exact Or.inl (hend _)
  split
  · exact Or.inl (hend _)
  · exact Or.inl ⟨⟨rfl, rfl, rfl⟩, rfl⟩

theorem allow_keeps (t : Tools) (connectionId : Id) : t.Keeps (t.allow connectionId).2 := by
  rw [allow]
  split
  · exact ⟨rfl, rfl, rfl⟩
  · exact ⟨rfl, rfl, rfl⟩

theorem Keeps.roomFor {next : Tools} (hkeeps : t.Keeps next) {connectionId : Id} {time : Time}
    (hroom : next.RoomFor connectionId time) : t.RoomFor connectionId time := by
  obtain ⟨hhour, hday⟩ := hroom
  rw [hkeeps.operations, hkeeps.settings] at hhour hday
  exact ⟨hhour, hday⟩

theorem mailSend_cases (t : Tools) (ctx : McpAuthContext) (args : SendArgs) :
    (t.Keeps (t.mailSend ctx args).1 ∧ (t.mailSend ctx args).2.composed = none) ∨
      ∃ wait row, t.Starts (t.mailSend ctx args).1 wait (t.mailSend ctx args).2 row ∧
        t.RoomFor wait.ctx.connectionId wait.startedAt := by
  have hallow := allow_keeps t ctx.connectionId
  rw [mailSend]
  split
  · exact Or.inl ⟨⟨rfl, rfl, rfl⟩, rfl⟩
  dsimp only
  split
  · rcases sendChecked_cases (t.allow ctx.connectionId).2 ctx args with
      ⟨hkeeps, hcomposed⟩ | ⟨wait, row, hstarts, hroom⟩
    · exact Or.inl ⟨hallow.trans hkeeps, hcomposed⟩
    · refine Or.inr ⟨wait, row, ?_, hallow.roomFor hroom⟩
      exact
        { rows := by rw [hstarts.rows, hallow.operations]
          fresh := by rw [← hallow.operations]; exact hstarts.fresh
          submissions := hstarts.submissions.trans hallow.submissions
          settings := hstarts.settings.trans hallow.settings
          composed := hstarts.composed
          counts := hstarts.counts
          connection := hstarts.connection
          createdAt := hstarts.createdAt }
  · exact Or.inl ⟨hallow, rfl⟩

/-- The call has ended and has given its operation this status; this step submits nothing. -/
structure Finishes (t : Tools) (ended : Tools × SendTask) (operation : Id)
    (status : OperationStatus) : Prop where
  operations : ∃ details error, ended.1.operations =
    t.operations.finish operation status details error t.server.now
  submissions : ended.1.submissions = t.submissions
  settings : ended.1.settings = t.settings
  composed : ended.2.composed = none

theorem endCall_finishes (t : Tools) (operation : Id) (status : OperationStatus)
    (details : OperationDetails) (error : Option String) (ctx : McpAuthContext)
    (result : Except ToolError SendAnswer) :
    t.Finishes
      (endCall
        { t with operations := t.operations.finish operation status details error t.server.now }
        ctx result) operation status := by
  have hkeeps := endCall_keeps
    { t with operations := t.operations.finish operation status details error t.server.now }
    ctx result
  exact ⟨⟨details, error, hkeeps.operations⟩, hkeeps.submissions, hkeeps.settings,
    endCall_composed _ _ _⟩

theorem sendDone_finishes (t : Tools) (wait : SendWait) (operation : Id)
    (message : OutgoingMessage) (result : SendResult) :
    t.Finishes (t.sendDone wait operation message result) operation .completed := by
  rw [sendDone]
  exact endCall_finishes t operation .completed _ none wait.ctx _

theorem sendFailed_finishes (t : Tools) (wait : SendWait) (operation : Id)
    (message : OutgoingMessage) (error : ToolError) :
    ∃ status, t.Finishes (t.sendFailed wait operation message error) operation status ∧
      ((∃ text, error = .mailError .sendUncertain text) → status = .unknown) := by
  simp only [sendFailed]
  split
  · exact ⟨.unknown, endCall_finishes t operation .unknown _ _ wait.ctx _, fun _ => rfl⟩
  · rename_i hother
    refine ⟨.failed, endCall_finishes t operation .failed _ _ wait.ctx _, ?_⟩
    rintro ⟨text, rfl⟩
    exact absurd rfl (hother text)

end Tools

/- Steps -/

namespace SendSystem

variable {s : SendSystem}

/-- A list of tasks with one new task at most. -/
def Brings (before after : List SendTask) (task : SendTask) : Prop :=
  ∀ other ∈ after, other ∈ before ∨ other = task

theorem brings_append (tasks : List SendTask) (task : SendTask) :
    Brings tasks (tasks ++ [task]) task := by
  intro other hother
  rcases List.mem_append.mp hother with hold | hnew
  · exact Or.inl hold
  · exact Or.inr (List.mem_singleton.mp hnew)

theorem brings_set (tasks : List SendTask) (call : Nat) (task : SendTask) :
    Brings tasks (tasks.set call task) task :=
  fun _ hother => List.mem_or_eq_of_mem_set hother

theorem live_brings {tools : Tools} {tasks : List SendTask} {task : SendTask}
    (hsubmissions : tools.submissions = s.tools.submissions)
    (hbrings : Brings s.tasks tasks task) {id : Id}
    (hlive : id ∈ live ⟨tools, tasks⟩) : id ∈ s.live ∨ task.composed = some id := by
  rcases List.mem_append.mp hlive with hsubmitted | hcomposed
  · rw [hsubmissions] at hsubmitted
    exact Or.inl (List.mem_append_left _ hsubmitted)
  · obtain ⟨other, hother, hid⟩ := List.mem_filterMap.mp hcomposed
    rcases hbrings other hother with hold | rfl
    · exact Or.inl (List.mem_append_right _ (List.mem_filterMap.mpr ⟨other, hold, hid⟩))
    · exact Or.inr hid

theorem carries_of_keeps {tools : Tools} {tasks : List SendTask}
    (hkeeps : s.tools.Keeps tools) (hlive : ∀ id ∈ live ⟨tools, tasks⟩, id ∈ s.live) :
    s.Carries ⟨tools, tasks⟩ where
  perHour := by rw [hkeeps.settings]
  perDay := by rw [hkeeps.settings]
  live := hlive
  rows := by
    refine ⟨id, ?_, fun row => ⟨rfl, fun _ _ _ => rfl, fun _ hcounts => hcounts⟩⟩
    rw [List.map_id]
    exact congrArg Operations.rows hkeeps.operations

/-- The end of a call finishes its operation, which goes on counting while it is live. -/
theorem carries_of_finishes {ended : Tools × SendTask} {call : Nat} {operation : Id}
    {status : OperationStatus} (hfinishes : s.tools.Finishes ended operation status)
    (hstatus : operation ∈ live ⟨ended.1, s.tasks.set call ended.2⟩ → status ≠ .failed) :
    s.Carries ⟨ended.1, s.tasks.set call ended.2⟩ where
  perHour := by rw [hfinishes.settings]
  perDay := by rw [hfinishes.settings]
  live := by
    intro id hlive
    rcases live_brings hfinishes.submissions (brings_set _ _ _) hlive with hold | hnew
    · exact hold
    · rw [hfinishes.composed] at hnew
      cases hnew
  rows := by
    obtain ⟨details, error, hoperations⟩ := hfinishes.operations
    refine ⟨Operations.finished operation status details error s.tools.server.now, ?_, ?_⟩
    · rw [hoperations]
      rfl
    intro row
    refine ⟨Operations.finished_id .., ?_, ?_⟩
    · intro connectionId opening length
      rw [OperationRow.sentWithin, OperationRow.sentWithin, Operations.finished_connectionId,
        Operations.finished_kind, Operations.finished]
      split
      · rfl
      · rfl
    · intro hrow hcounts
      rw [Operations.finished]
      split
      · rename_i hid
        have hne := hstatus (hid ▸ hrow)
        cases status with
        | failed => exact absurd rfl hne
        | _ => rfl
      · exact hcounts

theorem adds_of_starts {tools : Tools} {tasks : List SendTask} {wait : SendWait}
    {task : SendTask} {row : OperationRow} (hstarts : s.tools.Starts tools wait task row)
    (hbrings : Brings s.tasks tasks task)
    (hroom : s.tools.RoomFor wait.ctx.connectionId wait.startedAt) :
    s.Adds ⟨tools, tasks⟩ row where
  settings := hstarts.settings
  rows := hstarts.rows
  fresh := hstarts.fresh
  live := by
    intro id hlive
    rcases live_brings hstarts.submissions hbrings hlive with hold | hnew
    · exact Or.inl hold
    · rw [hstarts.composed] at hnew
      exact Or.inr (Option.some.inj hnew).symm
  counts := hstarts.counts
  room := by
    rw [hstarts.connection, hstarts.createdAt]
    exact hroom

/-- The operation of a call that ends before its submission is no longer live. -/
theorem not_live_of_ended (hsound : s.Sound) {call : Nat} {wait : SendWait} {operation : Id}
    {message : OutgoingMessage}
    (htask : s.tasks[call]? = some (.composing wait operation message)) {tools : Tools}
    (hsubmissions : tools.submissions = s.tools.submissions) {task : SendTask}
    (hended : task.composed = none) :
    operation ∉ live ⟨tools, s.tasks.set call task⟩ := by
  intro hlive
  rcases List.mem_append.mp hlive with hsubmitted | hcomposed
  · rw [hsubmissions] at hsubmitted
    exact (hsound.prepared call wait operation message htask).2 hsubmitted
  · obtain ⟨other, hother, hid⟩ := List.mem_filterMap.mp hcomposed
    obtain ⟨index, hindex⟩ := List.mem_iff_getElem?.mp hother
    obtain ⟨wait', message', rfl⟩ : ∃ wait' message',
        other = .composing wait' operation message' := by
      cases other with
      | composing wait' operation' message' =>
          exact ⟨wait', message', by rw [← Option.some.inj hid]⟩
      | _ => cases hid
    rcases Sound.derived_set s.tasks call task index wait' operation message' hindex with
      ⟨-, heq⟩ | ⟨hne, hold⟩
    · rw [heq] at hended
      cases hended
    · exact hne (hsound.apart index call wait' wait operation message' message hold htask)

theorem submit_carries {call : Nat} {wait : SendWait} {operation : Id}
    {message : OutgoingMessage}
    (htask : s.tasks[call]? = some (.composing wait operation message)) :
    s.Carries ⟨(s.tools.submit call wait operation message).1,
      s.tasks.set call (.submitting wait operation message)⟩ := by
  refine ⟨rfl, rfl, ?_, ?_⟩
  · intro id hlive
    have hcomposed : operation ∈ s.live := by
      apply List.mem_append_right
      exact List.mem_filterMap.mpr ⟨_, List.mem_of_getElem? htask, rfl⟩
    rcases List.mem_append.mp hlive with hsubmitted | htasks
    · rw [Tools.submit, List.map_append, List.mem_append] at hsubmitted
      rcases hsubmitted with hold | hnew
      · exact List.mem_append_left _ hold
      · rw [List.map_singleton, List.mem_singleton] at hnew
        rw [hnew]
        exact hcomposed
    · obtain ⟨other, hother, hid⟩ := List.mem_filterMap.mp htasks
      rcases brings_set _ _ _ other hother with hold | rfl
      · exact List.mem_append_right _ (List.mem_filterMap.mpr ⟨other, hold, hid⟩)
      · cases hid
  · refine ⟨id, ?_, fun row => ⟨rfl, fun _ _ _ => rfl, fun _ hcounts => hcounts⟩⟩
    rw [List.map_id]
    rfl

/-- A call that goes on without a new operation. -/
theorem carries_of_ended {tools : Tools} {call : Nat} {task : SendTask}
    (hkeeps : s.tools.Keeps tools) (hcomposed : task.composed = none) :
    s.Carries ⟨tools, s.tasks.set call task⟩ := by
  apply carries_of_keeps hkeeps
  intro id hlive
  rcases live_brings hkeeps.submissions (brings_set _ _ _) hlive with hold | hnew
  · exact hold
  · rw [hcomposed] at hnew
    cases hnew

theorem carries_refl (s : SendSystem) : s.Carries s :=
  carries_of_keeps ⟨rfl, rfl, rfl⟩ fun _ hlive => hlive

theorem carries_of_stays {call : Nat} {task : SendTask} {reply : SendReply}
    (htask : s.tasks[call]? = some task)
    (hstays : s.tools.resumeSend call task reply = (s.tools, task)) :
    s.Carries (s.step (.resume call reply)) := by
  have hset : s.tasks.set call task = s.tasks := by
    obtain ⟨hlt, heq⟩ := List.getElem?_eq_some_iff.mp htask
    rw [← heq, List.set_getElem_self]
  rw [step_resume reply htask, hstays, hset]
  exact carries_refl s

/-- A resumed call carries the count over, or adds an operation with room for it. -/
theorem resume_carries_or_adds (hsound : s.Sound) {call : Nat} {task : SendTask}
    {reply : SendReply} (htask : s.tasks[call]? = some task)
    (hkeeps : s.KeepsCount (.resume call reply)) :
    s.Carries (s.step (.resume call reply)) ∨
      ∃ row, s.Adds (s.step (.resume call reply)) row := by
  cases task with
  | reading wait =>
      cases reply with
      | original message =>
          have hroom : s.tools.RoomFor wait.ctx.connectionId wait.startedAt := by
            simpa only [KeepsCount, htask] using hkeeps
          rw [step_resume _ htask]
          rcases Tools.createOperation_cases s.tools wait (some message) with
            ⟨hkept, hcomposed⟩ | ⟨row, hstarts⟩
          · exact Or.inl (carries_of_ended hkept hcomposed)
          · exact Or.inr ⟨row, adds_of_starts hstarts (brings_set _ _ _) hroom⟩
      | thrown error =>
          rw [step_resume _ htask]
          exact Or.inl (carries_of_ended (Tools.endCall_keeps _ _ _)
            (Tools.endCall_composed _ _ _))
      | _ => exact Or.inl (carries_of_stays htask rfl)
  | composing wait operation message =>
      cases reply with
      | composed =>
          rw [step_resume _ htask]
          exact Or.inl (submit_carries htask)
      | thrown error =>
          rw [step_resume _ htask]
          obtain ⟨status, hfinishes, -⟩ := s.tools.sendFailed_finishes wait operation message error
          refine Or.inl (carries_of_finishes hfinishes fun hlive => ?_)
          exact absurd hlive
            (not_live_of_ended hsound htask hfinishes.submissions hfinishes.composed)
      | _ => exact Or.inl (carries_of_stays htask rfl)
  | submitting wait operation message =>
      cases reply with
      | answered accepted rejected =>
          rw [step_resume _ htask, Tools.resumeSend]
          split
          · exact Or.inl (carries_of_ended ⟨rfl, rfl, rfl⟩ rfl)
          · have hfinishes := s.tools.sendDone_finishes wait operation message
              ⟨accepted, rejected, false, none⟩
            exact Or.inl (carries_of_finishes hfinishes fun _ => OperationStatus.noConfusion)
      | thrown error =>
          have huncertain : ∃ text, error = .mailError .sendUncertain text := by
            simpa only [KeepsCount, htask] using hkeeps
          rw [step_resume _ htask]
          obtain ⟨status, hfinishes, hunknown⟩ :=
            s.tools.sendFailed_finishes wait operation message error
          obtain rfl := hunknown huncertain
          exact Or.inl (carries_of_finishes hfinishes fun _ => OperationStatus.noConfusion)
      | _ => exact Or.inl (carries_of_stays htask rfl)
  | filing wait operation message accepted rejected =>
      cases reply with
      | filed error =>
          rw [step_resume _ htask]
          have hfinishes := s.tools.sendDone_finishes wait operation message
            ⟨accepted, rejected, error.isNone, error⟩
          exact Or.inl (carries_of_finishes hfinishes fun _ => OperationStatus.noConfusion)
      | _ => exact Or.inl (carries_of_stays htask rfl)
  | ended answer => exact Or.inl (carries_of_stays htask rfl)

theorem cutOff_composed (task : SendTask) : task.cutOff.composed = none := by
  cases task with
  | ended answer => rfl
  | _ => rfl

/-- The step lemma: a step that keeps the count adds no operation, or adds one with room. -/
theorem step_carries_or_adds (hsound : s.Sound) {label : SendLabel}
    (hkeeps : s.KeepsCount label) :
    s.Carries (s.step label) ∨ ∃ row, s.Adds (s.step label) row := by
  cases label with
  | call ctx args =>
      rcases Tools.mailSend_cases s.tools ctx args with
        ⟨hkept, hcomposed⟩ | ⟨wait, row, hstarts, hroom⟩
      · refine Or.inl (carries_of_keeps hkept ?_)
        intro id hlive
        rcases live_brings hkept.submissions (brings_append _ _) hlive with hold | hnew
        · exact hold
        · exact absurd (hcomposed.symm.trans hnew) (Option.some_ne_none _).symm
      · exact Or.inr ⟨row, adds_of_starts hstarts (brings_append _ _) hroom⟩
  | resume call reply =>
      cases htask : s.tasks[call]? with
      | none =>
          rw [step_resume_of_none reply htask]
          exact Or.inl (carries_refl s)
      | some task => exact resume_carries_or_adds hsound htask hkeeps
  | crash =>
      refine Or.inl (carries_of_keeps ⟨rfl, rfl, rfl⟩ ?_)
      intro id hlive
      rcases List.mem_append.mp hlive with hsubmitted | hcomposed
      · exact List.mem_append_left _ hsubmitted
      · obtain ⟨task, htask, hid⟩ := List.mem_filterMap.mp hcomposed
        obtain ⟨old, -, rfl⟩ := List.mem_map.mp htask
        rw [cutOff_composed] at hid
        cases hid
  | serve server =>
      exact Or.inl (carries_of_keeps ⟨rfl, rfl, rfl⟩ fun _ hlive => hlive)
  | configure settings =>
      refine Or.inl ⟨hkeeps.1, hkeeps.2, fun _ hlive => hlive, id, ?_, ?_⟩
      · rw [List.map_id]
        rfl
      · exact fun row => ⟨rfl, fun _ _ _ => rfl, fun _ hcounts => hcounts⟩

theorem initial_bounded (server : Server) (settings : ToolSettings) (operations : Operations)
    (nextDraw : Nat) : (initial server settings operations nextDraw).Bounded settings := by
  have hnone : ∀ connectionId opening length,
      (initial server settings operations nextDraw).liveWithin connectionId opening length = 0 := by
    intro connectionId opening length
    rw [liveWithin, List.countP_eq_zero]
    intro row _ hrow
    rw [Bool.and_eq_true, decide_eq_true_eq] at hrow
    exact absurd hrow.1 List.not_mem_nil
  refine ⟨rfl, rfl, ?_, ?_, ?_⟩
  · intro row _ hlive
    exact absurd hlive List.not_mem_nil
  · intro connectionId opening
    rw [hnone]
    exact Nat.zero_le _
  · intro connectionId opening
    rw [hnone]
    exact Nat.zero_le _

/-- In a run whose calls find room as they go on, and whose submissions do not end as failed, no
window of an hour or of a day takes more operations to the SMTP server than the limits. The
count is read when a call begins, and a call that replies to a message waits before its row goes
in. -/
theorem limits_of_keepsCount (server : Server) (settings : ToolSettings)
    (operations : Operations) (nextDraw : Nat) (labels : List SendLabel)
    (hkeeps : Meets step KeepsCount (initial server settings operations nextDraw) labels) :
    (run step (initial server settings operations nextDraw) labels).WithinLimits settings := by
  have hrun := invariant_of_meets step (fun s => s.Sound ∧ s.Bounded settings)
    (fun s label hs hlabel => ⟨hs.1.step label, by
      rcases step_carries_or_adds hs.1 hlabel with hcarries | ⟨row, hadds⟩
      · exact hs.2.carries hcarries
      · exact hs.2.adds hadds⟩)
    ⟨initial_sound server settings operations nextDraw,
      initial_bounded server settings operations nextDraw⟩ hkeeps
  exact hrun.2.withinLimits

/-- Fewer operations than the limits leave room in every window. -/
theorem roomFor_of_length {t : Tools}
    (hhour : t.operations.rows.length < t.settings.sendsPerHour)
    (hday : t.operations.rows.length < t.settings.sendsPerDay) (connectionId : Id)
    (time : Time) : t.RoomFor connectionId time where
  hour := fun _ _ _ => Nat.lt_of_le_of_lt List.countP_le_length hhour
  day := fun _ _ _ => Nat.lt_of_le_of_lt List.countP_le_length hday

theorem keepsCount_of_room {call : Nat} {message : RepliedMessage}
    (hroom : ∀ connectionId time, s.tools.RoomFor connectionId time) :
    s.KeepsCount (.resume call (.original message)) := by
  simp only [KeepsCount]
  split
  · exact hroom _ _
  · rename_i heq
    cases heq
  · trivial

/-- What brings no message back and no error leaves the count as it is. -/
theorem keepsCount_of_reply {call : Nat} {reply : SendReply}
    (horiginal : ∀ message, reply ≠ .original message)
    (hthrown : ∀ error, reply ≠ .thrown error) : s.KeepsCount (.resume call reply) := by
  simp only [KeepsCount]
  split
  · exact absurd rfl (horiginal _)
  · exact absurd rfl (hthrown _)
  · trivial

end SendSystem

/- Two calls of one connection that may send once an hour. -/
namespace OverlappingReplies

open SendSystem RetriedSend

def onceAnHour : ToolSettings :=
  ⟨60, 1, 50, 25, 1048576, true⟩

def answer : SendArgs :=
  { RetriedSend.reply with idempotencyKey := none }

def start : SendSystem :=
  initial server onceAnHour Operations.empty 100

/-- A reply from its call to the end, by the call's number. -/
def oneReply (call : Nat) : List SendLabel :=
  [.call ctx answer, .resume call (.original ⟨none, none⟩), .resume call .composed,
    .resume call (.answered ["other@example.org"] []), .resume call (.filed none)]

theorem oneReply_meets {s : SendSystem} {call : Nat}
    (hroom : (s.step (.call ctx answer)).tools.operations.rows.length <
      (s.step (.call ctx answer)).tools.settings.sendsPerHour)
    (hday : (s.step (.call ctx answer)).tools.operations.rows.length <
      (s.step (.call ctx answer)).tools.settings.sendsPerDay) :
    Meets step KeepsCount s (oneReply call) := by
  refine ⟨trivial, keepsCount_of_room (roomFor_of_length hroom hday), ?_, ?_, ?_, trivial⟩
  · exact keepsCount_of_reply (fun _ => SendReply.noConfusion) fun _ => SendReply.noConfusion
  · exact keepsCount_of_reply (fun _ => SendReply.noConfusion) fun _ => SendReply.noConfusion
  · exact keepsCount_of_reply (fun _ => SendReply.noConfusion) fun _ => SendReply.noConfusion

def twiceAnHour : ToolSettings :=
  { onceAnHour with sendsPerHour := 2 }

/-- Two replies one after the other, and a third call within the hour. -/
def inTurn : List SendLabel :=
  oneReply 0 ++ (oneReply 1 ++ [.call ctx answer])

/-- Two replies one after the other, with a limit of two in an hour, and a third call within the
hour: each reply finds room as it goes on, and the third call goes no further. -/
theorem inTurn_withinLimits :
    (run step (initial server twiceAnHour Operations.empty 100) inTurn).WithinLimits
        twiceAnHour ∧
      (run step (initial server twiceAnHour Operations.empty 100) inTurn).submittedWithin
        ctx.connectionId server.now oneHour = 2 ∧
      (run step (initial server twiceAnHour Operations.empty 100) inTurn).tasks.length = 3 := by
  have hmeets : Meets step KeepsCount (initial server twiceAnHour Operations.empty 100)
      inTurn := by
    rw [inTurn, meets_append, meets_append]
    refine ⟨oneReply_meets ?_ ?_, oneReply_meets ?_ ?_, trivial, trivial⟩
    · decide +kernel
    · decide +kernel
    · decide +kernel
    · decide +kernel
  exact ⟨limits_of_keepsCount server twiceAnHour Operations.empty 100 inTurn hmeets,
    by decide +kernel, by decide +kernel⟩

/-- Both calls pass the limits before either has its row. -/
def overlapping : List SendLabel :=
  [.call ctx answer, .call ctx answer, .resume 0 (.original ⟨none, none⟩),
    .resume 1 (.original ⟨none, none⟩), .resume 0 .composed, .resume 1 .composed]

/-- Two replies at once with a limit of one: both read the count before the first has its row,
and both are sent. -/
theorem overlapping_exceeds_limits : ¬ (run step start overlapping).WithinLimits onceAnHour := by
  intro hwithin
  have htwo : (run step start overlapping).submittedWithin ctx.connectionId server.now
      oneHour = 2 := by decide +kernel
  have hle := hwithin.hour ctx.connectionId server.now
  rw [htwo] at hle
  exact absurd hle (by decide)

end OverlappingReplies

end Mcp

end MailPanel

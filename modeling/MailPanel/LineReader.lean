import MailPanel.StepRun
import MailPanel.Utf8Cuts

/-
Lines read from a socket, one for each call, while chunks, timeouts and errors come in any
order.
-/

namespace MailPanel

namespace StartTls

open ScriptText

abbrev Text := List Char

/-- The reader between two events: text that has no line end yet, the calls that wait for a
line, and the error that ended the connection, if one has. -/
structure LineReader where
  buffer : Text
  /-- The calls that wait for a line, the first of them first. -/
  pending : List ℕ
  closeError : Option Text
  attached : Bool
  nextCall : ℕ
deriving DecidableEq, Repr

/-- A call that has got its line, or has been refused. -/
structure Settlement where
  call : ℕ
  result : Except Text Text

/-- Whatever can happen to a reader: bytes arrive in pieces of any size, the socket fails, a
line is asked for, a wait times out, or the caller lets go of the connection. -/
inductive ReaderEvent where
  | data (chunk : List UInt8)
  | socketError (message : Text)
  | readLine
  | timeout (call : ℕ)
  | dispose
deriving DecidableEq, Repr

def LineReader.new : LineReader := ⟨[], [], none, true, 0⟩

/-- `line.replace(/\r$/, '')`. -/
def stripReturn (line : Text) : Text := if line.getLast? = some '\r' then line.dropLast else line

/-- The text before the first line end, and the text after it. -/
def cutLine : Text → Option (Text × Text)
  | [] => none
  | c :: rest =>
      if c = '\n' then some ([], rest)
      else (cutLine rest).map fun cut => (c :: cut.1, cut.2)

/-- What is left of the buffer and of the calls, and the calls that got a line. -/
def flush (buffer : Text) : List ℕ → Text × List ℕ × List Settlement
  | [] => (buffer, [], [])
  | call :: pending =>
      match cutLine buffer with
      | none => (buffer, call :: pending, [])
      | some (line, rest) =>
          let later := flush rest pending
          (later.1, later.2.1, ⟨call, .ok (stripReturn line)⟩ :: later.2.2)

def LineReader.flushed (reader : LineReader) : LineReader × List Settlement :=
  let left := flush reader.buffer reader.pending
  ({ reader with buffer := left.1, pending := left.2.1 }, left.2.2)

/-- One event, and the calls that it settles. A reader that has failed settles every later call
with the same error, and bytes that come after it is let go are dropped. -/
def LineReader.step (reader : LineReader) : ReaderEvent → LineReader × List Settlement
  | .data chunk =>
      if reader.attached then
        { reader with buffer := reader.buffer ++ decodeUtf8 chunk }.flushed
      else (reader, [])
  | .socketError message =>
      if reader.closeError.isSome then (reader, [])
      else
        ({ reader with closeError := some message, pending := [] },
          reader.pending.map fun call => ⟨call, .error message⟩)
  | .readLine =>
      match reader.closeError with
      | some message =>
          ({ reader with nextCall := reader.nextCall + 1 }, [⟨reader.nextCall, .error message⟩])
      | none =>
          { reader with
            pending := reader.pending ++ [reader.nextCall]
            nextCall := reader.nextCall + 1 }.flushed
  | .timeout call =>
      if call ∈ reader.pending then
        ({ reader with pending := reader.pending.erase call },
          [⟨call, .error "Timed out waiting for a response.".toList⟩])
      else (reader, [])
  | .dispose => ({ reader with attached := false }, [])

/-- The lines that calls got. -/
def answers (settled : List Settlement) : List Text :=
  settled.filterMap fun settlement => settlement.result.toOption

/-- The calls that got a line. -/
def answered (settled : List Settlement) : List ℕ :=
  (settled.filter fun settlement => settlement.result.isOk).map Settlement.call

/-- The text that an event adds. -/
def heard (attached : Bool) : ReaderEvent → Text
  | .data chunk => if attached then decodeUtf8 chunk else []
  | _ => []

/-- The text that events add, up to the end of the reader. -/
def received (attached : Bool) : List ReaderEvent → Text
  | [] => []
  | event :: events => heard attached event ++ received (attached && event ≠ .dispose) events

/-- Lines with their ends. -/
def ended (lines : List Text) : Text := lines.flatMap (· ++ ['\n'])

theorem answers_append (first later : List Settlement) :
    answers (first ++ later) = answers first ++ answers later :=
  List.filterMap_append

theorem answered_append (first later : List Settlement) :
    answered (first ++ later) = answered first ++ answered later := by
  rw [answered, List.filter_append, List.map_append]
  rfl

theorem ended_append (first later : List Text) :
    ended (first ++ later) = ended first ++ ended later :=
  List.flatMap_append

/- One event -/

theorem cutLine_eq_none {buffer : Text} : cutLine buffer = none ↔ '\n' ∉ buffer := by
  induction buffer with
  | nil => exact iff_of_true rfl List.not_mem_nil
  | cons c buffer ih =>
      rw [cutLine]
      by_cases hc : c = '\n'
      · rw [if_pos hc]
        exact iff_of_false (Option.some_ne_none _) (not_not_intro (hc ▸ List.mem_cons_self))
      · rw [if_neg hc, Option.map_eq_none_iff, ih, List.mem_cons, not_or]
        exact (and_iff_right (Ne.symm hc)).symm

theorem cutLine_eq_some {buffer line rest : Text} (hcut : cutLine buffer = some (line, rest)) :
    '\n' ∉ line ∧ buffer = line ++ '\n' :: rest := by
  induction buffer generalizing line with
  | nil => exact absurd hcut.symm (Option.some_ne_none _)
  | cons c buffer ih =>
      rw [cutLine] at hcut
      by_cases hc : c = '\n'
      · rw [if_pos hc, Option.some.injEq, Prod.mk.injEq] at hcut
        obtain ⟨rfl, rfl⟩ := hcut
        exact ⟨List.not_mem_nil, by rw [hc, List.nil_append]⟩
      · rw [if_neg hc, Option.map_eq_some_iff] at hcut
        obtain ⟨⟨later, after⟩, hlater, hpair⟩ := hcut
        obtain ⟨rfl, rfl⟩ := Prod.mk.inj hpair
        obtain ⟨hnot, rfl⟩ := ih hlater
        exact ⟨List.not_mem_cons_of_ne_of_not_mem (Ne.symm hc) hnot, rfl⟩

/-- What a step gives of the text: whole lines, from the front of what there is. -/
def Reads (text : Text) (settled : List Settlement) (left : Text) : Prop :=
  ∃ raw : List Text, (∀ line ∈ raw, '\n' ∉ line) ∧ text = ended raw ++ left ∧
    answers settled = raw.map stripReturn

theorem Reads.refl (text : Text) {settled : List Settlement} (hsettled : answers settled = []) :
    Reads text settled text :=
  ⟨[], fun _ hmem => absurd hmem List.not_mem_nil, rfl, hsettled⟩

theorem Reads.append {text more left last : Text} {settled later : List Settlement}
    (hfirst : Reads text settled left) (hlater : Reads (left ++ more) later last) :
    Reads (text ++ more) (settled ++ later) last := by
  obtain ⟨raw, hraw, rfl, hanswers⟩ := hfirst
  obtain ⟨next, hnext, htext, hmore⟩ := hlater
  refine ⟨raw ++ next, List.forall_mem_append.mpr ⟨hraw, hnext⟩, ?_, ?_⟩
  · rw [List.append_assoc, htext, ended_append, List.append_assoc]
  · rw [answers_append, hanswers, hmore, List.map_append]

theorem flush_spec (buffer : Text) (pending : List ℕ) :
    Reads buffer (flush buffer pending).2.2 (flush buffer pending).1 ∧
      ((flush buffer pending).2.1 ≠ [] → '\n' ∉ (flush buffer pending).1) ∧
      answered (flush buffer pending).2.2 ++ (flush buffer pending).2.1 = pending ∧
      (flush buffer pending).2.2.map Settlement.call = answered (flush buffer pending).2.2 := by
  induction pending generalizing buffer with
  | nil => exact ⟨Reads.refl buffer rfl, fun hne => absurd rfl hne, rfl, rfl⟩
  | cons call pending ih =>
      rw [flush]
      cases hcut : cutLine buffer with
      | none => exact ⟨Reads.refl buffer rfl, fun _ => cutLine_eq_none.mp hcut, rfl, rfl⟩
      | some cut =>
          obtain ⟨line, rest⟩ := cut
          obtain ⟨hline, rfl⟩ := cutLine_eq_some hcut
          obtain ⟨⟨raw, hraw, hrest, hanswers⟩, hwaits, hcalls, hall⟩ := ih rest
          refine ⟨⟨line :: raw, List.forall_mem_cons.mpr ⟨hline, hraw⟩, ?_, ?_⟩, hwaits, ?_, ?_⟩
          · rw [ended, List.flatMap_cons, ← ended, List.append_assoc, List.append_assoc,
              List.singleton_append, ← hrest]
          · exact congrArg (stripReturn line :: ·) hanswers
          · exact congrArg (call :: ·) hcalls
          · exact congrArg (call :: ·) hall

theorem flush_calls (buffer : Text) (pending : List ℕ) :
    (answered (flush buffer pending).2.2 ++ (flush buffer pending).2.1).Sublist pending ∧
      ((flush buffer pending).2.2.map Settlement.call ++
        (flush buffer pending).2.1).Perm pending := by
  obtain ⟨-, -, hcalls, hall⟩ := flush_spec buffer pending
  rw [hall, hcalls]
  exact ⟨List.Sublist.refl _, List.Perm.refl _⟩

section Events

variable {reader : LineReader}

/-- No call waits beside a whole line, or after an error. -/
structure LineReader.Idle (reader : LineReader) : Prop where
  waits : reader.pending ≠ [] → '\n' ∉ reader.buffer
  closed : reader.closeError.isSome → reader.pending = []

theorem answers_refused (calls : List ℕ) (message : Text) :
    answers (calls.map fun call => ⟨call, .error message⟩) = [] := by
  rw [answers, List.filterMap_map, List.filterMap_eq_nil_iff]
  exact fun _ _ => rfl

theorem answered_refused (calls : List ℕ) (message : Text) :
    answered (calls.map fun call => ⟨call, .error message⟩) = [] := by
  rw [answered, List.map_eq_nil_iff, List.filter_eq_nil_iff]
  intro settlement hmem
  obtain ⟨call, -, rfl⟩ := List.mem_map.mp hmem
  exact Bool.false_ne_true

theorem call_refused (calls : List ℕ) (message : Text) :
    (calls.map fun call => (⟨call, .error message⟩ : Settlement)).map Settlement.call = calls := by
  rw [List.map_map]
  exact List.map_id _

theorem step_attached (event : ReaderEvent) :
    (reader.step event).1.attached = (reader.attached && event ≠ .dispose) := by
  cases event with
  | data chunk =>
      rw [LineReader.step]
      split
      · exact (Bool.and_true _).symm
      · exact (Bool.and_true _).symm
  | socketError message =>
      rw [LineReader.step]
      split
      · exact (Bool.and_true _).symm
      · exact (Bool.and_true _).symm
  | readLine =>
      rw [LineReader.step]
      split
      · exact (Bool.and_true _).symm
      · exact (Bool.and_true _).symm
  | timeout call =>
      rw [LineReader.step]
      split
      · exact (Bool.and_true _).symm
      · exact (Bool.and_true _).symm
  | dispose => exact (Bool.and_false _).symm

theorem step_reads (event : ReaderEvent) :
    Reads (reader.buffer ++ heard reader.attached event) (reader.step event).2
      (reader.step event).1.buffer := by
  have hsame : ∀ settled : List Settlement, answers settled = [] →
      Reads (reader.buffer ++ []) settled reader.buffer :=
    fun _ hsettled => (List.append_nil reader.buffer).symm ▸ Reads.refl _ hsettled
  cases event with
  | data chunk =>
      rw [LineReader.step, heard]
      split
      · exact (flush_spec (reader.buffer ++ decodeUtf8 chunk) reader.pending).1
      · exact hsame [] rfl
  | socketError message =>
      rw [LineReader.step]
      split
      · exact hsame [] rfl
      · exact hsame _ (answers_refused reader.pending message)
  | readLine =>
      rw [LineReader.step]
      split
      · exact hsame _ rfl
      · change Reads (reader.buffer ++ []) _ _
        rw [List.append_nil]
        exact (flush_spec reader.buffer (reader.pending ++ [reader.nextCall])).1
  | timeout call =>
      rw [LineReader.step]
      split
      · exact hsame _ rfl
      · exact hsame [] rfl
  | dispose => exact hsame [] rfl

theorem LineReader.Idle.step (hidle : reader.Idle) (event : ReaderEvent) :
    (reader.step event).1.Idle := by
  cases event with
  | data chunk =>
      rw [LineReader.step]
      split
      · refine ⟨(flush_spec (reader.buffer ++ decodeUtf8 chunk) reader.pending).2.1, ?_⟩
        intro hclosed
        rw [LineReader.flushed]
        dsimp only
        rw [hidle.closed hclosed]
        rfl
      · exact hidle
  | socketError message =>
      rw [LineReader.step]
      split
      · exact hidle
      · exact ⟨fun hne => absurd rfl hne, fun _ => rfl⟩
  | readLine =>
      rw [LineReader.step]
      cases hclosed : reader.closeError with
      | some message => exact ⟨hidle.waits, fun _ => hidle.closed (by rw [hclosed]; rfl)⟩
      | none =>
          refine ⟨(flush_spec reader.buffer (reader.pending ++ [reader.nextCall])).2.1, ?_⟩
          intro hsome
          rw [LineReader.flushed] at hsome
          exact absurd hsome Bool.false_ne_true
  | timeout call =>
      rw [LineReader.step]
      split
      · refine ⟨fun hne => hidle.waits fun hnil => hne ?_, fun hsome => ?_⟩
        · dsimp only
          rw [hnil]
          rfl
        · dsimp only
          rw [hidle.closed hsome]
          rfl
      · exact hidle
  | dispose => exact ⟨hidle.waits, hidle.closed⟩

/-- The call that an event adds. -/
def LineReader.newCalls (reader : LineReader) : ReaderEvent → List ℕ
  | .readLine => [reader.nextCall]
  | _ => []

/-- Calls get their lines in the order in which they were made, and each is settled once. -/
theorem step_calls (event : ReaderEvent) :
    (answered (reader.step event).2 ++ (reader.step event).1.pending).Sublist
        (reader.pending ++ reader.newCalls event) ∧
      ((reader.step event).2.map Settlement.call ++ (reader.step event).1.pending).Perm
        (reader.pending ++ reader.newCalls event) ∧
      (reader.step event).1.nextCall = reader.nextCall + (reader.newCalls event).length := by
  have hsame : (answered [] ++ reader.pending).Sublist (reader.pending ++ []) ∧
      (([] : List Settlement).map Settlement.call ++ reader.pending).Perm (reader.pending ++ []) ∧
      reader.nextCall = reader.nextCall + ([] : List ℕ).length := by
    rw [List.append_nil]
    exact ⟨List.Sublist.refl _, List.Perm.refl _, rfl⟩
  have hdone : ∀ calls : List ℕ, calls.Sublist reader.pending →
      calls.Sublist (reader.pending ++ []) :=
    fun _ hcalls => (List.append_nil reader.pending).symm ▸ hcalls
  have hnone : ∀ calls : List ℕ, calls.Perm reader.pending → calls.Perm (reader.pending ++ []) :=
    fun _ hcalls => (List.append_nil reader.pending).symm ▸ hcalls
  cases event with
  | data chunk =>
      rw [LineReader.step]
      split
      · obtain ⟨hanswered, hsettled⟩ :=
          flush_calls (reader.buffer ++ decodeUtf8 chunk) reader.pending
        exact ⟨hdone _ hanswered, hnone _ hsettled, rfl⟩
      · exact hsame
  | socketError message =>
      rw [LineReader.step]
      split
      · exact hsame
      · refine ⟨?_, hnone _ ?_, rfl⟩
        · rw [answered_refused]
          exact List.nil_sublist _
        · rw [call_refused, List.append_nil]
  | readLine =>
      rw [LineReader.step]
      split
      · exact ⟨List.sublist_append_left _ _, List.perm_append_comm, rfl⟩
      · obtain ⟨hanswered, hsettled⟩ :=
          flush_calls reader.buffer (reader.pending ++ [reader.nextCall])
        exact ⟨hanswered, hsettled, rfl⟩
  | timeout call =>
      rw [LineReader.step]
      split
      · rename_i hpending
        exact ⟨hdone _ List.erase_sublist, hnone _ (List.perm_cons_erase hpending).symm, rfl⟩
      · exact hsame
  | dispose => exact hsame

end Events

/- Runs -/

/-- A reader, and the calls that were settled so far. -/
structure Reading where
  reader : LineReader
  settled : List Settlement

def Reading.start : Reading := ⟨.new, []⟩

def Reading.step (state : Reading) (event : ReaderEvent) : Reading :=
  ⟨(state.reader.step event).1, state.settled ++ (state.reader.step event).2⟩

theorem reads_run (events : List ReaderEvent) (state : Reading) {text : Text}
    (hstate : Reads text state.settled state.reader.buffer) :
    Reads (text ++ received state.reader.attached events)
      (StepRun.run Reading.step state events).settled
      (StepRun.run Reading.step state events).reader.buffer := by
  induction events generalizing state text with
  | nil => exact (List.append_nil text).symm ▸ hstate
  | cons event events ih =>
      have hnext := ih (state.step event) (hstate.append (step_reads event))
      rw [Reading.step, step_attached, List.append_assoc] at hnext
      exact hnext

/-- The calls of a run: those that got a line and those that wait are in the order in which they
were made, and each that was made is settled or waits. -/
structure Reading.Ordered (state : Reading) : Prop where
  increasing : (answered state.settled ++ state.reader.pending).Pairwise (· < ·)
  known : ∀ call ∈ answered state.settled ++ state.reader.pending, call < state.reader.nextCall
  once : (state.settled.map Settlement.call ++ state.reader.pending).Perm
    (List.range state.reader.nextCall)

theorem Reading.Ordered.step {state : Reading} (hordered : state.Ordered) (event : ReaderEvent) :
    (state.step event).Ordered := by
  obtain ⟨hsublist, hperm, hnext⟩ := @step_calls state.reader event
  have hkept : (answered (state.step event).settled ++ (state.step event).reader.pending).Sublist
      ((answered state.settled ++ state.reader.pending) ++ state.reader.newCalls event) := by
    rw [Reading.step, answered_append, List.append_assoc, List.append_assoc]
    exact (List.Sublist.refl _).append hsublist
  have hlater : ∀ call ∈ state.reader.newCalls event,
      call = state.reader.nextCall ∧ (state.reader.newCalls event).length = 1 := by
    intro call hcall
    cases event with
    | readLine => exact ⟨List.mem_singleton.mp hcall, rfl⟩
    | _ => exact absurd hcall List.not_mem_nil
  constructor
  · refine List.Pairwise.sublist hkept (List.pairwise_append.mpr ⟨hordered.increasing, ?_, ?_⟩)
    · cases event with
      | readLine => exact List.pairwise_singleton _ _
      | _ => exact List.Pairwise.nil
    · intro call hcall new hnew
      rw [(hlater new hnew).1]
      exact hordered.known call hcall
  · intro call hcall
    rw [Reading.step, hnext]
    rcases List.mem_append.mp (hkept.subset hcall) with hold | hnew
    · exact Nat.lt_of_lt_of_le (hordered.known call hold) (Nat.le_add_right _ _)
    · rw [(hlater call hnew).1, (hlater call hnew).2]
      exact Nat.lt_succ_self _
  · rw [Reading.step]
    dsimp only
    rw [hnext, List.map_append, List.append_assoc]
    have hrange : List.range state.reader.nextCall ++ state.reader.newCalls event =
        List.range (state.reader.nextCall + (state.reader.newCalls event).length) := by
      cases event with
      | readLine => exact List.range_succ.symm
      | _ => exact List.append_nil _
    rw [← hrange]
    refine (hperm.append_left (state.settled.map Settlement.call)).trans ?_
    rw [← List.append_assoc]
    exact hordered.once.append_right _

theorem ordered_run (events : List ReaderEvent) (state : Reading) (hordered : state.Ordered) :
    (StepRun.run Reading.step state events).Ordered := by
  induction events generalizing state with
  | nil => exact hordered
  | cons event events ih => exact ih _ (hordered.step event)

theorem idle_run (events : List ReaderEvent) (state : Reading) (hidle : state.reader.Idle) :
    (StepRun.run Reading.step state events).reader.Idle := by
  induction events generalizing state with
  | nil => exact hidle
  | cons event events ih => exact ih _ (hidle.step event)

theorem idle_new : LineReader.new.Idle :=
  ⟨fun hne => absurd rfl hne, fun hclosed => absurd hclosed Bool.false_ne_true⟩

/-- However chunks, calls, timeouts and errors follow each other, the calls get the lines of the
text in order, none lost and none twice, and no call waits beside a whole line. -/
theorem lines_in_order (events : List ReaderEvent) :
    (∃ raw : List Text, (∀ line ∈ raw, '\n' ∉ line) ∧
      received true events =
        ended raw ++ (StepRun.run Reading.step .start events).reader.buffer ∧
      answers (StepRun.run Reading.step .start events).settled = raw.map stripReturn) ∧
    (StepRun.run Reading.step .start events).reader.Idle ∧
    (StepRun.run Reading.step .start events).Ordered := by
  refine ⟨?_, idle_run events .start idle_new, ordered_run events .start ?_⟩
  · exact reads_run events .start (Reads.refl [] rfl)
  · exact ⟨List.Pairwise.nil, fun _ hcall => absurd hcall List.not_mem_nil, List.Perm.refl _⟩

end StartTls

end MailPanel

import MailPanel.LineReader
import MailPanel.Utf16Text

/-
The plaintext talk before TLS: replies of one line or of more, each accepted before the next
command is written.
-/

namespace MailPanel

namespace StartTls

open ScriptText

/-- A reply that is waited for, and the command that is written before it. A negotiation is a
list of stages, so that the three protocols are three lists. -/
structure Stage where
  command : Option Text
  /-- Another line of the reply follows. -/
  continues : Text → Bool
  accepts : Text → Bool
  failure : Text → Text

def isContinued (line : Text) : Bool := (encodeUtf16 line)[3]? = (encodeUtf16 ['-']).head?

def hasCode (code : String) (line : Text) : Bool :=
  (encodeUtf16 line).take 3 = encodeUtf16 code.toList

/-- The pattern `^word` in any letter case. -/
def startsWith (word : String) (line : Text) : Bool :=
  (line.take word.toList.length).map Char.toUpper = word.toList.map Char.toUpper

/-- The pattern `^tag\s+OK` in any letter case. -/
def isTaggedOk (tag : String) (line : Text) : Bool :=
  let rest := line.drop tag.toList.length
  startsWith tag line && rest.head?.any isSpace && startsWith "OK" (rest.dropWhile isSpace)

def smtpStages : List Stage :=
  [⟨none, isContinued, hasCode "220", ("Server greeting was not 220: ".toList ++ ·)⟩,
    ⟨some "EHLO dwg-tls-check\r\n".toList, isContinued, fun _ => true, id⟩,
    ⟨some "STARTTLS\r\n".toList, isContinued, hasCode "220",
      ("Server did not accept STARTTLS: ".toList ++ ·)⟩]

def imapStages : List Stage :=
  [⟨none, fun _ => false, isTaggedOk "*", ("Unexpected IMAP greeting: ".toList ++ ·)⟩,
    ⟨some "a1 STARTTLS\r\n".toList, fun _ => false, isTaggedOk "a1",
      ("Server did not accept STARTTLS: ".toList ++ ·)⟩]

def pop3Stages : List Stage :=
  [⟨none, fun _ => false, startsWith "+OK", ("Unexpected POP3 greeting: ".toList ++ ·)⟩,
    ⟨some "STLS\r\n".toList, fun _ => false, startsWith "+OK",
      ("Server did not accept STLS: ".toList ++ ·)⟩]

example : isTaggedOk "*" "* ok ready".toList = true ∧ isTaggedOk "a1" "a1 NO".toList = false ∧
    isContinued "250-STARTTLS".toList = true ∧ hasCode "220" "220".toList = true := by
  decide

/-- What the negotiation waits for, or has come to. -/
inductive Client where
  | waiting (call : ℕ) (stages : List Stage)
  | resumed (result : Except Text Text) (stages : List Stage)
  | ready
  | failed (message : Text)

structure Session where
  reader : LineReader
  client : Client
  written : List Text

/-- What may happen next: something on the socket, or the negotiation goes on. -/
inductive Move where
  | data (chunk : List UInt8)
  | socketError (message : Text)
  | timeout (call : ℕ)
  | resume
deriving DecidableEq, Repr

def wake (call : ℕ) (stages : List Stage) (settled : List Settlement) : Client :=
  match settled.find? fun settlement => settlement.call = call with
  | some settlement => .resumed settlement.result stages
  | none => .waiting call stages

/-- The next line is asked for. -/
def readNext (reader : LineReader) (stages : List Stage) (written : List Text) : Session :=
  let read := reader.step .readLine
  ⟨read.1, wake reader.nextCall stages read.2, written⟩

def firstCommand (stages : List Stage) : List Text := (stages.head?.bind Stage.command).toList

def negotiate (stages : List Stage) : Session := readNext .new stages (firstCommand stages)

def Session.finish (session : Session) (client : Client) : Session :=
  ⟨(session.reader.step .dispose).1, client, session.written⟩

def Session.resume (session : Session) : Session :=
  match session.client with
  | .resumed (.ok line) (stage :: stages) =>
      if stage.continues line then readNext session.reader (stage :: stages) session.written
      else if stage.accepts line then
        if stages.isEmpty then session.finish .ready
        else readNext session.reader stages (session.written ++ firstCommand stages)
      else session.finish (.failed (stage.failure line))
  | .resumed (.error message) _ => session.finish (.failed message)
  | _ => session

def Session.socket (session : Session) (event : ReaderEvent) : Session :=
  let read := session.reader.step event
  match session.client with
  | .waiting call stages => ⟨read.1, wake call stages read.2, session.written⟩
  | _ => ⟨read.1, session.client, session.written⟩

def Session.step (session : Session) : Move → Session
  | .data chunk => session.socket (.data chunk)
  | .socketError message => session.socket (.socketError message)
  | .timeout call => session.socket (.timeout call)
  | .resume => session.resume

/-- A move that is not the server's text or the negotiation's own. -/
def Move.disturbs : Move → Bool
  | .socketError _ => true
  | .timeout _ => true
  | _ => false

/-- The text that a move adds. -/
def Move.sent : Move → Text
  | .data chunk => decodeUtf8 chunk
  | _ => []

/- The replies as they should be -/

inductive Verdict where
  | waits (stages : List Stage)
  | ready
  | failed (message : Text)

/-- What the lines of a server come to, stage by stage. It is the negotiation as a function of
the text, and the run of the reader is compared with it. -/
def judge : List Stage → List Text → Verdict
  | [], _ => .ready
  | stage :: stages, [] => .waits (stage :: stages)
  | stage :: stages, line :: lines =>
      if stage.continues line then judge (stage :: stages) lines
      else if stage.accepts line then judge stages lines
      else .failed (stage.failure line)

/-- One reply for each stage: lines that go on, and a last one that is accepted. Whatever else a
server sends makes the negotiation fail. -/
inductive Replies : List Stage → List Text → Prop where
  | done : Replies [] []
  | continued {stage : Stage} {stages : List Stage} {line : Text} {lines : List Text}
      (hcontinues : stage.continues line = true) (hreplies : Replies (stage :: stages) lines) :
      Replies (stage :: stages) (line :: lines)
  | accepted {stage : Stage} {stages : List Stage} {line : Text} {lines : List Text}
      (hlast : stage.continues line = false) (haccepts : stage.accepts line = true)
      (hreplies : Replies stages lines) : Replies (stage :: stages) (line :: lines)

theorem judge_ready_iff (stages : List Stage) (lines : List Text) :
    judge stages lines = .ready ↔ ∃ front rest, lines = front ++ rest ∧ Replies stages front := by
  constructor
  · intro hjudge
    induction stages, lines using judge.induct with
    | case1 lines => exact ⟨[], lines, rfl, .done⟩
    | case2 stage stages => cases hjudge
    | case3 stage stages line lines hcontinues ih =>
        rw [judge, if_pos hcontinues] at hjudge
        obtain ⟨front, rest, rfl, hreplies⟩ := ih hjudge
        exact ⟨line :: front, rest, rfl, .continued hcontinues hreplies⟩
    | case4 stage stages line lines hcontinues haccepts ih =>
        rw [judge, if_neg hcontinues, if_pos haccepts] at hjudge
        obtain ⟨front, rest, rfl, hreplies⟩ := ih hjudge
        exact ⟨line :: front, rest, rfl,
          .accepted (Bool.eq_false_iff.mpr hcontinues) haccepts hreplies⟩
    | case5 stage stages line lines hcontinues haccepts =>
        rw [judge, if_neg hcontinues, if_neg haccepts] at hjudge
        cases hjudge
  · rintro ⟨front, rest, rfl, hreplies⟩
    induction hreplies with
    | done => rw [judge]
    | continued hcontinues hreplies ih =>
        rw [List.cons_append, judge, if_pos hcontinues, ih]
    | accepted hlast haccepts hreplies ih =>
        rw [List.cons_append, judge, if_neg (Bool.eq_false_iff.mp hlast), if_pos haccepts, ih]

def Verdict.andThen (verdict : Verdict) (lines : List Text) : Verdict :=
  match verdict with
  | .waits stages => judge stages lines
  | verdict => verdict

/-- What comes after a verdict does not change it. -/
theorem judge_append (stages : List Stage) (first later : List Text) :
    judge stages (first ++ later) = (judge stages first).andThen later := by
  induction stages, first using judge.induct with
  | case1 lines =>
      rw [judge, judge]
      rfl
  | case2 stage stages => rfl
  | case3 stage stages line lines hcontinues ih =>
      rw [List.cons_append, judge, if_pos hcontinues, judge, if_pos hcontinues, ih]
  | case4 stage stages line lines hcontinues haccepts ih =>
      rw [List.cons_append, judge, if_neg hcontinues, if_pos haccepts, judge, if_neg hcontinues,
        if_pos haccepts, ih]
  | case5 stage stages line lines hcontinues haccepts =>
      rw [List.cons_append, judge, if_neg hcontinues, if_neg haccepts, judge, if_neg hcontinues,
        if_neg haccepts]
      rfl

/- The whole lines of a text -/

def wholeLines (text : Text) : List Text := (text.splitOn '\n').dropLast

def linesOf (text : Text) : List Text := (wholeLines text).map stripReturn

theorem wholeLines_ended {raw : List Text} (hraw : ∀ line ∈ raw, '\n' ∉ line) (rest : Text) :
    wholeLines (ended raw ++ rest) = raw ++ wholeLines rest := by
  induction raw with
  | nil => rfl
  | cons line raw ih =>
      rw [List.forall_mem_cons] at hraw
      have hsplit := List.splitOn_append_cons_self_of_not_mem (a := '\n') hraw.1
        (ended raw ++ rest)
      rw [ended, List.flatMap_cons, ← ended, List.append_assoc, List.append_assoc,
        List.singleton_append, wholeLines, hsplit,
        List.dropLast_cons_of_ne_nil (List.splitOn_ne_nil _ _), ← wholeLines, ih hraw.2,
        List.cons_append]

theorem wholeLines_of_notMem {text : Text} (htext : '\n' ∉ text) : wholeLines text = [] := by
  rw [wholeLines, List.splitOn_eq_singleton htext]
  rfl

theorem linesOf_ended {raw : List Text} (hraw : ∀ line ∈ raw, '\n' ∉ line) (rest : Text) :
    linesOf (ended raw ++ rest) = raw.map stripReturn ++ linesOf rest := by
  rw [linesOf, wholeLines_ended hraw, List.map_append, linesOf]

/-- A text is its whole lines and a rest, in one way: the rest is what follows the last line
break. -/
theorem exists_ended (text : Text) : ∃ raw rest, (∀ line ∈ raw, '\n' ∉ line) ∧ '\n' ∉ rest ∧
    text = ended raw ++ rest := by
  induction text with
  | nil =>
      exact ⟨[], [], fun _ hmem => absurd hmem List.not_mem_nil, List.not_mem_nil, rfl⟩
  | cons c text ih =>
      obtain ⟨raw, rest, hraw, hrest, rfl⟩ := ih
      by_cases hc : c = '\n'
      · subst hc
        exact ⟨[] :: raw, rest, List.forall_mem_cons.mpr ⟨List.not_mem_nil, hraw⟩, hrest, rfl⟩
      · cases raw with
        | nil =>
            exact ⟨[], c :: rest, hraw, List.not_mem_cons_of_ne_of_not_mem (Ne.symm hc) hrest, rfl⟩
        | cons line raw =>
            rw [List.forall_mem_cons] at hraw
            have hline : '\n' ∉ c :: line :=
              List.not_mem_cons_of_ne_of_not_mem (Ne.symm hc) hraw.1
            exact ⟨(c :: line) :: raw, rest, List.forall_mem_cons.mpr ⟨hline, hraw.2⟩, hrest, rfl⟩

theorem linesOf_append (text more : Text) :
    ∃ later, linesOf (text ++ more) = linesOf text ++ later := by
  obtain ⟨raw, rest, hraw, hrest, rfl⟩ := exists_ended text
  refine ⟨linesOf (rest ++ more), ?_⟩
  rw [List.append_assoc, linesOf_ended hraw, linesOf_ended hraw, linesOf, linesOf,
    wholeLines_of_notMem hrest, List.map_nil, List.append_nil]

/- Sessions -/

section Sessions

variable {all stages : List Stage} {disturbed : Prop} {text : Text} {session : Session}

/-- The lines before what is left are replies, and the commands up to the next one are written. -/
structure Asks (all : List Stage) (text left : Text) (stages : List Stage) (written : List Text) :
    Prop where
  lines : ∃ raw : List Text, (∀ line ∈ raw, '\n' ∉ line) ∧ text = ended raw ++ left ∧
    judge all (raw.map stripReturn) = .waits stages
  commands : ∃ done, all = done ++ stages ∧
    written = (done ++ stages.take 1).filterMap Stage.command

/-- How far a negotiation has come with the text that was received. It is the invariant of a
run, one clause for each state that the client can be in. -/
def Follows (all : List Stage) (disturbed : Prop) (text : Text) (session : Session) : Prop :=
  match session.client with
  | .waiting call stages =>
      session.reader.attached = true ∧ session.reader.closeError = none ∧
        session.reader.pending = [call] ∧ '\n' ∉ session.reader.buffer ∧
        Asks all text session.reader.buffer stages session.written
  | .resumed (.ok line) stages =>
      session.reader.attached = true ∧ (session.reader.closeError.isSome → disturbed) ∧
        session.reader.pending = [] ∧
        ∃ last, '\n' ∉ last ∧ stripReturn last = line ∧
          Asks all text (last ++ '\n' :: session.reader.buffer) stages session.written
  | .resumed (.error _) _ => disturbed ∧ session.reader.pending = []
  | .ready => judge all (linesOf text) = .ready ∧ session.written = all.filterMap Stage.command
  | .failed message => disturbed ∨ judge all (linesOf text) = .failed message

theorem Follows.mono {later : Prop} (hfollows : Follows all disturbed text session)
    (hlater : disturbed → later) : Follows all later text session := by
  rw [Follows] at *
  split at hfollows
  · exact hfollows
  · exact ⟨hfollows.1, fun hclosed => hlater (hfollows.2.1 hclosed), hfollows.2.2⟩
  · exact ⟨hlater hfollows.1, hfollows.2⟩
  · exact hfollows
  · exact hfollows.imp_left hlater

theorem wake_single (call : ℕ) (stages : List Stage) (result : Except Text Text) :
    wake call stages [⟨call, result⟩] = .resumed result stages := by
  have hfind : List.find? (fun settlement : Settlement => decide (settlement.call = call))
      [⟨call, result⟩] = some ⟨call, result⟩ :=
    List.find?_cons_of_pos (decide_eq_true rfl)
  rw [wake, hfind]

theorem flushed_single {reader : LineReader} {call : ℕ} (hpending : reader.pending = [call]) :
    cutLine reader.buffer = none ∧ reader.flushed = (reader, []) ∨
      ∃ line rest, '\n' ∉ line ∧ reader.buffer = line ++ '\n' :: rest ∧
        reader.flushed =
          ({ reader with buffer := rest, pending := [] }, [⟨call, .ok (stripReturn line)⟩]) := by
  obtain ⟨buffer, pending, closeError, attached, nextCall⟩ := reader
  obtain rfl : pending = [call] := hpending
  cases hcut : cutLine buffer with
  | none =>
      refine Or.inl ⟨rfl, ?_⟩
      rw [LineReader.flushed, flush, hcut]
  | some cut =>
      obtain ⟨line, rest⟩ := cut
      obtain ⟨hline, hbuffer⟩ := cutLine_eq_some hcut
      refine Or.inr ⟨line, rest, hline, hbuffer, ?_⟩
      rw [LineReader.flushed, flush, hcut]
      rfl

/-- A negotiation that asks for a line gets one that is there, or waits. No line is lost in
between, since the buffer is looked at first. -/
theorem follows_readNext {reader : LineReader} {written : List Text}
    (hattached : reader.attached = true) (hclosed : reader.closeError.isSome → disturbed)
    (hpending : reader.pending = []) (hasks : Asks all text reader.buffer stages written) :
    Follows all disturbed text (readNext reader stages written) := by
  obtain ⟨buffer, pending, closeError, attached, nextCall⟩ := reader
  obtain rfl : pending = [] := hpending
  rw [readNext]
  cases closeError with
  | some message =>
      rw [LineReader.step]
      dsimp only
      rw [wake_single]
      exact ⟨hclosed rfl, rfl⟩
  | none =>
      rw [LineReader.step]
      dsimp only
      rw [List.nil_append]
      rcases @flushed_single ⟨buffer, [nextCall], none, attached, nextCall + 1⟩ nextCall rfl with
        ⟨hcut, hflushed⟩ | ⟨line, rest, hline, hbuffer, hflushed⟩
      · rw [hflushed]
        exact ⟨hattached, rfl, rfl, cutLine_eq_none.mp hcut, hasks⟩
      · obtain rfl : buffer = line ++ '\n' :: rest := hbuffer
        rw [hflushed]
        dsimp only
        rw [wake_single]
        exact ⟨hattached, fun hsome => absurd hsome Bool.false_ne_true, rfl, line, hline, rfl,
          hasks⟩

/-- What is asked for comes with the text that follows. -/
theorem Asks.more {left : Text} {written : List Text} (hasks : Asks all text left stages written)
    (more : Text) : Asks all (text ++ more) (left ++ more) stages written := by
  obtain ⟨⟨raw, hraw, rfl, hjudge⟩, hcommands⟩ := hasks
  exact ⟨⟨raw, hraw, List.append_assoc _ _ _, hjudge⟩, hcommands⟩

/-- One line further. -/
theorem Asks.next {last rest : Text} {written : List Text}
    (hasks : Asks all text (last ++ '\n' :: rest) stages written) (hlast : '\n' ∉ last) :
    ∃ raw : List Text, (∀ line ∈ raw, '\n' ∉ line) ∧ text = ended raw ++ rest ∧
      judge all (raw.map stripReturn) = judge stages [stripReturn last] := by
  obtain ⟨⟨raw, hraw, rfl, hjudge⟩, -⟩ := hasks
  refine ⟨raw ++ [last], List.forall_mem_append.mpr ⟨hraw, List.forall_mem_singleton.mpr hlast⟩,
    ?_, ?_⟩
  · rw [ended_append, List.append_assoc, ended, ended, List.flatMap_singleton, List.append_assoc,
      List.singleton_append]
  · rw [List.map_append, judge_append, hjudge]
    rfl

theorem judge_waits_ne_nil {lines : List Text} (hjudge : judge all lines = .waits stages) :
    stages ≠ [] := by
  induction all, lines using judge.induct with
  | case1 lines =>
      rw [judge] at hjudge
      cases hjudge
  | case2 stage later =>
      cases hjudge
      exact List.cons_ne_nil _ _
  | case3 stage later line lines hcontinues ih =>
      rw [judge, if_pos hcontinues] at hjudge
      exact ih hjudge
  | case4 stage later line lines hcontinues haccepts ih =>
      rw [judge, if_neg hcontinues, if_pos haccepts] at hjudge
      exact ih hjudge
  | case5 stage later line lines hcontinues haccepts =>
      rw [judge, if_neg hcontinues, if_neg haccepts] at hjudge
      cases hjudge

theorem judge_linesOf {raw : List Text} (hraw : ∀ line ∈ raw, '\n' ∉ line) (rest : Text) :
    judge all (linesOf (ended raw ++ rest)) =
      (judge all (raw.map stripReturn)).andThen (linesOf rest) := by
  rw [linesOf_ended hraw, judge_append]

theorem filterMap_firstCommand (stages : List Stage) :
    firstCommand stages = (stages.take 1).filterMap Stage.command := by
  cases stages with
  | nil => rfl
  | cons stage stages =>
      rw [firstCommand, List.head?_cons, Option.bind_some, List.take_succ_cons, List.take_zero]
      cases hcommand : stage.command with
      | none => rw [List.filterMap_cons_none hcommand, Option.toList_none, List.filterMap_nil]
      | some command =>
          rw [List.filterMap_cons_some hcommand, Option.toList_some, List.filterMap_nil]

theorem follows_resume (hfollows : Follows all disturbed text session) :
    Follows all disturbed text session.resume := by
  obtain ⟨reader, client, written⟩ := session
  cases client with
  | waiting call stages => exact hfollows
  | ready => exact hfollows
  | failed message => exact hfollows
  | resumed result stages =>
      cases result with
      | error message => exact Or.inl hfollows.1
      | ok line =>
          obtain ⟨hattached, hclosed, hpending, last, hlast, rfl, hasks⟩ := hfollows
          obtain ⟨raw, hraw, htext, hjudge⟩ := hasks.next hlast
          obtain ⟨⟨before, _, _, hwaits⟩, done, hall, hwritten⟩ := hasks
          cases stages with
          | nil => exact absurd rfl (judge_waits_ne_nil hwaits)
          | cons stage stages =>
              rw [judge] at hjudge
              rw [Session.resume]
              dsimp only
              by_cases hcontinues : stage.continues (stripReturn last) = true
              · rw [if_pos hcontinues] at hjudge ⊢
                exact follows_readNext hattached hclosed hpending
                  ⟨⟨raw, hraw, htext, hjudge⟩, done, hall, hwritten⟩
              · rw [if_neg hcontinues] at hjudge ⊢
                by_cases haccepts : stage.accepts (stripReturn last) = true
                · rw [if_pos haccepts] at hjudge ⊢
                  cases stages with
                  | nil =>
                      rw [judge] at hjudge
                      rw [List.isEmpty_nil, if_pos rfl]
                      refine ⟨?_, ?_⟩
                      · rw [htext, judge_linesOf hraw, hjudge]
                        rfl
                      · rw [hall]
                        exact hwritten
                  | cons next stages =>
                      rw [judge] at hjudge
                      rw [List.isEmpty_cons, if_neg Bool.false_ne_true]
                      refine follows_readNext hattached hclosed hpending
                        ⟨⟨raw, hraw, htext, hjudge⟩, done ++ [stage], ?_, ?_⟩
                      · rw [hall, List.append_assoc, List.singleton_append]
                      · dsimp only at hwritten
                        rw [hwritten, filterMap_firstCommand, ← List.filterMap_append]
                        rfl
                · rw [if_neg haccepts] at hjudge ⊢
                  refine Or.inr ?_
                  rw [htext, judge_linesOf hraw, hjudge]
                  rfl

/-- What a negotiation has come to does not change with more text. -/
theorem follows_finished {reader later : LineReader} {client : Client} {written : List Text}
    (hclient : client = .ready ∨ ∃ message, client = .failed message)
    (hfollows : Follows all disturbed text ⟨reader, client, written⟩) (more : Text) :
    Follows all disturbed (text ++ more) ⟨later, client, written⟩ := by
  obtain ⟨lines, hlines⟩ := linesOf_append text more
  rcases hclient with rfl | ⟨message, rfl⟩
  · refine ⟨?_, hfollows.2⟩
    rw [hlines, judge_append, hfollows.1]
    rfl
  · refine hfollows.imp_right fun hjudge => ?_
    rw [hlines, judge_append, hjudge]
    rfl

theorem follows_data (hfollows : Follows all disturbed text session) (chunk : List UInt8) :
    Follows all disturbed (text ++ decodeUtf8 chunk) (session.socket (.data chunk)) := by
  obtain ⟨⟨buffer, pending, closeError, attached, nextCall⟩, client, written⟩ := session
  cases client with
  | waiting call stages =>
      obtain ⟨hattached, hclosed, hpending, -, hasks⟩ := hfollows
      obtain rfl : attached = true := hattached
      obtain rfl : pending = [call] := hpending
      have hmore := hasks.more (decodeUtf8 chunk)
      rw [Session.socket, LineReader.step]
      dsimp only
      rw [if_pos rfl]
      rcases @flushed_single ⟨buffer ++ decodeUtf8 chunk, [call], closeError, true, nextCall⟩ call
        rfl with ⟨hcut, hflushed⟩ | ⟨line, rest, hline, hbuffer, hflushed⟩
      · rw [hflushed]
        exact ⟨rfl, hclosed, rfl, cutLine_eq_none.mp hcut, hmore⟩
      · rw [hflushed]
        dsimp only at hbuffer hmore ⊢
        rw [hbuffer] at hmore
        rw [wake_single]
        obtain rfl : closeError = none := hclosed
        exact ⟨rfl, fun hsome => absurd hsome Bool.false_ne_true, rfl, line, hline, rfl, hmore⟩
  | resumed result stages =>
      cases result with
      | error message =>
          obtain ⟨hdisturbed, hpending⟩ := hfollows
          obtain rfl : pending = [] := hpending
          cases attached with
          | true => exact ⟨hdisturbed, rfl⟩
          | false => exact ⟨hdisturbed, rfl⟩
      | ok line =>
          obtain ⟨hattached, hclosed, hpending, last, hlast, hline, hasks⟩ := hfollows
          obtain rfl : attached = true := hattached
          obtain rfl : pending = [] := hpending
          have hmore := hasks.more (decodeUtf8 chunk)
          rw [List.append_assoc, List.cons_append] at hmore
          exact ⟨rfl, hclosed, rfl, last, hlast, hline, hmore⟩
  | ready => exact follows_finished (Or.inl rfl) hfollows _
  | failed message => exact follows_finished (Or.inr ⟨message, rfl⟩) hfollows _

theorem follows_socketError (hfollows : Follows all disturbed text session) (message : Text) :
    Follows all True text (session.socket (.socketError message)) := by
  obtain ⟨⟨buffer, pending, closeError, attached, nextCall⟩, client, written⟩ := session
  cases client with
  | waiting call stages =>
      obtain ⟨hattached, hclosed, hpending, -, -⟩ := hfollows
      obtain rfl : closeError = none := hclosed
      obtain rfl : pending = [call] := hpending
      rw [Session.socket, LineReader.step]
      dsimp only
      rw [Option.isSome_none, if_neg Bool.false_ne_true]
      dsimp only
      rw [List.map_singleton, wake_single]
      exact ⟨trivial, rfl⟩
  | resumed result stages =>
      cases result with
      | error _ =>
          obtain ⟨-, hpending⟩ := hfollows
          obtain rfl : pending = [] := hpending
          cases closeError with
          | none => exact ⟨trivial, rfl⟩
          | some _ => exact ⟨trivial, rfl⟩
      | ok line =>
          obtain ⟨hattached, -, hpending, last, hlast, hline, hasks⟩ := hfollows
          obtain rfl : pending = [] := hpending
          cases closeError with
          | none => exact ⟨hattached, fun _ => trivial, rfl, last, hlast, hline, hasks⟩
          | some _ => exact ⟨hattached, fun _ => trivial, rfl, last, hlast, hline, hasks⟩
  | ready => exact hfollows
  | failed _ => exact Or.inl trivial

theorem follows_timeout (hfollows : Follows all disturbed text session) (late : ℕ) :
    Follows all True text (session.socket (.timeout late)) := by
  obtain ⟨⟨buffer, pending, closeError, attached, nextCall⟩, client, written⟩ := session
  cases client with
  | waiting call stages =>
      obtain ⟨hattached, hclosed, hpending, hbuffer, hasks⟩ := hfollows
      obtain rfl : pending = [call] := hpending
      rw [Session.socket, LineReader.step]
      dsimp only
      by_cases hlate : late = call
      · subst hlate
        rw [if_pos List.mem_cons_self]
        dsimp only
        rw [wake_single]
        exact ⟨trivial, List.erase_cons_head late []⟩
      · rw [if_neg fun hmem => hlate (List.mem_singleton.mp hmem)]
        exact ⟨hattached, hclosed, rfl, hbuffer, hasks⟩
  | resumed result stages =>
      cases result with
      | error _ =>
          obtain ⟨-, hpending⟩ := hfollows
          obtain rfl : pending = [] := hpending
          exact ⟨trivial, rfl⟩
      | ok line =>
          obtain ⟨hattached, -, hpending, last, hlast, hline, hasks⟩ := hfollows
          obtain rfl : pending = [] := hpending
          exact ⟨hattached, fun _ => trivial, rfl, last, hlast, hline, hasks⟩
  | ready => exact hfollows
  | failed _ => exact Or.inl trivial

theorem follows_step (hfollows : Follows all disturbed text session) (move : Move) :
    Follows all (disturbed ∨ move.disturbs = true) (text ++ move.sent) (session.step move) := by
  cases move with
  | data chunk => exact (follows_data hfollows chunk).mono Or.inl
  | socketError message =>
      rw [Move.sent, List.append_nil]
      · exact (follows_socketError hfollows message).mono fun _ => Or.inr rfl
      · exact fun _ => Move.noConfusion
  | timeout call =>
      rw [Move.sent, List.append_nil]
      · exact (follows_timeout hfollows call).mono fun _ => Or.inr rfl
      · exact fun _ => Move.noConfusion
  | resume =>
      rw [Move.sent, List.append_nil]
      · exact (follows_resume hfollows).mono Or.inl
      · exact fun _ => Move.noConfusion

theorem follows_run (moves : List Move) (hfollows : Follows all disturbed text session) :
    Follows all (disturbed ∨ ∃ move ∈ moves, move.disturbs = true)
      (text ++ moves.flatMap Move.sent) (StepRun.run Session.step session moves) := by
  induction moves generalizing disturbed text session with
  | nil =>
      rw [List.flatMap_nil, List.append_nil]
      exact hfollows.mono Or.inl
  | cons move moves ih =>
      have hnext := ih (follows_step hfollows move)
      rw [List.append_assoc] at hnext
      refine hnext.mono ?_
      simp only [List.exists_mem_cons_iff, or_assoc, imp_self]

theorem follows_negotiate (hstages : stages ≠ []) : Follows stages False [] (negotiate stages) := by
  obtain ⟨stage, later, rfl⟩ := List.exists_cons_of_ne_nil hstages
  refine follows_readNext rfl (fun hsome => absurd hsome Bool.false_ne_true) rfl
    ⟨⟨[], fun _ hmem => absurd hmem List.not_mem_nil, rfl, rfl⟩, [], rfl, ?_⟩
  exact filterMap_firstCommand (stage :: later)

/-- What a negotiation has come to, unless it is just going on. -/
def Client.verdict? : Client → Option Verdict
  | .waiting _ stages => some (.waits stages)
  | .resumed _ _ => none
  | .ready => some .ready
  | .failed message => some (.failed message)

/-- However the text of the server is cut and delayed, TLS begins only after a reply for each
stage, with every command written in its turn; and without errors and timeouts the text alone
decides what the negotiation comes to. -/
theorem negotiate_judges (hstages : stages ≠ []) (moves : List Move) :
    ((StepRun.run Session.step (negotiate stages) moves).client = .ready →
      (∃ front rest, linesOf (moves.flatMap Move.sent) = front ++ rest ∧ Replies stages front) ∧
        (StepRun.run Session.step (negotiate stages) moves).written =
          stages.filterMap Stage.command) ∧
    ((∀ move ∈ moves, move.disturbs = false) → ∀ verdict,
      (StepRun.run Session.step (negotiate stages) moves).client.verdict? = some verdict →
        judge stages (linesOf (moves.flatMap Move.sent)) = verdict) := by
  have hrun := follows_run moves (follows_negotiate hstages)
  rw [List.nil_append] at hrun
  generalize StepRun.run Session.step (negotiate stages) moves = session at hrun ⊢
  obtain ⟨reader, client, written⟩ := session
  constructor
  · rintro rfl
    exact ⟨(judge_ready_iff _ _).mp hrun.1, hrun.2⟩
  · intro hcalm verdict hverdict
    have hundisturbed : ¬ (False ∨ ∃ move ∈ moves, move.disturbs = true) := by
      rintro (hfalse | ⟨move, hmove, hdisturbs⟩)
      · exact hfalse
      · exact Bool.false_ne_true ((hcalm move hmove).symm.trans hdisturbs)
    cases client with
    | waiting call left =>
        obtain ⟨-, -, -, hbuffer, ⟨raw, hraw, htext, hjudge⟩, -⟩ := hrun
        dsimp only at htext hbuffer
        rw [htext, judge_linesOf hraw, hjudge, linesOf, wholeLines_of_notMem hbuffer]
        obtain rfl := Option.some.inj hverdict
        obtain ⟨stage, later, rfl⟩ := List.exists_cons_of_ne_nil (judge_waits_ne_nil hjudge)
        rfl
    | resumed result left => cases hverdict
    | ready =>
        obtain rfl := Option.some.inj hverdict
        exact hrun.1
    | failed message =>
        obtain rfl := Option.some.inj hverdict
        exact hrun.resolve_left hundisturbed

/-- A greeting in two chunks, and the other two replies in one. -/
def smtpMoves : List Move :=
  [.data (encodeUtf8 "220-mx\r\n22".toList), .resume, .data (encodeUtf8 "0 mx\r\n".toList), .resume,
    .data (encodeUtf8 "250 mx\r\n220 go\r\n".toList), .resume, .resume]

theorem negotiate_judges_smtp :
    (StepRun.run Session.step (negotiate smtpStages) smtpMoves).written =
      ["EHLO dwg-tls-check\r\n".toList, "STARTTLS\r\n".toList] := by
  have hstages : smtpStages ≠ [] := List.cons_ne_nil _ _
  exact ((negotiate_judges hstages smtpMoves).1 rfl).2

end Sessions

end StartTls

end MailPanel

import MailPanel.Base64Url
import MailPanel.NumberText
import MailPanel.TrimmedText
import MailPanel.Utf8Text

/-
The script of an autoresponder: the commands that answer mail, below comments that say once
more what was entered.
-/

namespace MailPanel

namespace Autoresponder

open Base64Url NumberText ScriptText

abbrev Text := List Char

def templateMarker : Text := "# dwg-autoresponder: v1".toList

def vacationSuppressionDays : Nat := 7

structure AutoresponderInput where
  subject : Text
  message : Text
  startDate : Option Text
  endDate : Option Text
deriving DecidableEq, Repr

/-- `^\d{4}-\d{2}-\d{2}$`. -/
def isoDatePattern (value : Text) : Bool :=
  match value with
  | [a, b, c, d, dash, e, f, second, g, h] =>
      [a, b, c, d, e, f, g, h].all isDigit && dash = '-' && second = '-'
  | _ => false

def assertIsoDate (value : Text) (field : Text) : Except Text Unit :=
  if isoDatePattern value then .ok ()
  else .error ("autoresponder ".toList ++ field ++
    " must be an ISO date (YYYY-MM-DD), got \"".toList ++ value ++ "\"".toList)

/-- `replace(/\r\n|\r|\n/g, mark)`. A line break of two characters is one break, so a text typed
on any system gives the same script. -/
def replaceBreaks (mark : Text) : Text → Text
  | '\r' :: '\n' :: rest => mark ++ replaceBreaks mark rest
  | '\r' :: rest => mark ++ replaceBreaks mark rest
  | '\n' :: rest => mark ++ replaceBreaks mark rest
  | c :: rest => c :: replaceBreaks mark rest
  | [] => []

/-- `replace(/c/g, mark)`. -/
def replaceAll (char : Char) (mark : Text) (value : Text) : Text :=
  value.flatMap fun c => if c = char then mark else [c]

def sieveQuotedString (value : Text) : Text :=
  let singleLine := replaceBreaks [' '] value
  let escaped := replaceAll '"' ['\\', '"'] (replaceAll '\\' ['\\', '\\'] singleLine)
  "\"".toList ++ escaped ++ "\"".toList

def stuffDot (line : Text) : Text := if line.head? = some '.' then '.' :: line else line

def sieveMultilineText (value : Text) : Text :=
  let normalized := replaceBreaks ['\n'] value
  let dotStuffed := ['\r', '\n'].intercalate ((normalized.splitOn '\n').map stuffDot)
  "text:\r\n".toList ++ dotStuffed ++ "\r\n.\r\n".toList

def toBase64 (value : Text) : Text := encodePadded (encodeUtf8 value)

def headerComment (input : AutoresponderInput) : Text :=
  ['\n'].intercalate [templateMarker,
    "# subject: ".toList ++ toBase64 input.subject,
    "# message: ".toList ++ toBase64 input.message,
    "# start: ".toList ++ input.startDate.getD "none".toList,
    "# end: ".toList ++ input.endDate.getD "none".toList]

/-- `Set.add`. -/
def addTo (names : List Text) (name : Text) : List Text :=
  if name ∈ names then names else names ++ [name]

def addDate (names : List Text) : Option Text → List Text
  | some _ => addTo (addTo names "date".toList) "relational".toList
  | none => names

def requires (input : AutoresponderInput) : List Text :=
  addDate (addDate ["vacation".toList] input.startDate) input.endDate

def condition (comparison date : Text) : Text :=
  "currentdate :zone \"+0000\" :value \"".toList ++ comparison ++ "\" \"date\" \"".toList ++
    date ++ "\"".toList

def conditions (input : AutoresponderInput) : List Text :=
  (input.startDate.map (condition "ge".toList)).toList ++
    (input.endDate.map (condition "le".toList)).toList

def quote (name : Text) : Text := "\"".toList ++ name ++ "\"".toList

def requireLine (input : AutoresponderInput) : Text :=
  "require [".toList ++ ", ".toList.intercalate ((requires input).map quote) ++ "];".toList

def vacationCommand (input : AutoresponderInput) : Text :=
  "vacation :days ".toList ++ (toString vacationSuppressionDays).toList ++ " :subject ".toList ++
    sieveQuotedString input.subject ++ " ".toList ++ sieveMultilineText input.message ++
      ";".toList

def body (input : AutoresponderInput) : Text :=
  match conditions input with
  | [] => vacationCommand input
  | [only] => "if ".toList ++ only ++ " \x7b\n  ".toList ++ vacationCommand input ++ "\n\x7d".toList
  | several => "if allof(\n  ".toList ++ ",\n  ".toList.intercalate several ++ "\n) \x7b\n  ".toList ++
      vacationCommand input ++ "\n\x7d".toList

def generateAutoresponderSieve (input : AutoresponderInput) : Except Text Text := do
  if let some date := input.startDate then assertIsoDate date "startDate".toList
  if let some date := input.endDate then assertIsoDate date "endDate".toList
  return headerComment input ++ "\n".toList ++ requireLine input ++ "\n".toList ++ body input ++
    "\n".toList

structure ParsedAutoresponderScript where
  subject : Text
  message : Text
  startDate : Option Text
  endDate : Option Text
deriving DecidableEq, Repr

inductive HeaderField where
  | subject
  | message
  | start
  | ending
deriving DecidableEq, Repr

def HeaderField.name : HeaderField → Text
  | .subject => "subject".toList
  | .message => "message".toList
  | .start => "start".toList
  | .ending => "end".toList

/-- What `.` does not match. -/
def endsLine (c : Char) : Bool := c ∈ ['\n', '\r', '\u2028', '\u2029']

def HeaderField.front (field : HeaderField) : Text := "# ".toList ++ field.name ++ ": ".toList

def matchField (line : Text) (field : HeaderField) : Option (HeaderField × Text) :=
  let value := line.drop field.front.length
  if field.front.isPrefixOf line ∧ value.all (fun c => !endsLine c) then some (field, value)
  else none

/-- `^# (subject|message|start|end): (.*)$`: a field and its value. -/
def headerFieldPattern (line : Text) : Option (HeaderField × Text) :=
  [HeaderField.subject, .message, .start, .ending].findSome? (matchField line)

/-- The fields of the lines until the first that is no comment; the last one counts. -/
def headerFields (fields : HeaderField → Option Text) : List Text → HeaderField → Option Text
  | [] => fields
  | line :: lines =>
      if line.head? = some '#' then
        match headerFieldPattern line with
        | some (field, value) =>
            headerFields (fun other => if other = field then some (trim value) else fields other)
              lines
        | none => headerFields fields lines
      else fields

def fromBase64 (value : Text) : Text := decodeUtf8 (decodeLoose value)

def dateOf (value : Option Text) : Option Text := value.filter (· ≠ "none".toList)

def parseAutoresponderSieve (content : Text) : Option ParsedAutoresponderScript :=
  if templateMarker.isPrefixOf content then
    let fields := headerFields (fun _ => none) (content.splitOn '\n')
    match fields .subject, fields .message with
    | some subject, some message =>
        some ⟨fromBase64 subject, fromBase64 message, dateOf (fields .start),
          dateOf (fields .ending)⟩
    | _, _ => none
  else none

/- What is written -/

theorem isoDatePattern_iff {value : Text} : isoDatePattern value = true ↔
    ∃ a b c d e f g h, value = [a, b, c, d, '-', e, f, '-', g, h] ∧
      ∀ digit ∈ [a, b, c, d, e, f, g, h], isDigit digit = true := by
  constructor
  · intro hpattern
    unfold isoDatePattern at hpattern
    split at hpattern
    · rename_i a b c d dash e f second g h
      simp only [Bool.and_eq_true, decide_eq_true_eq, List.all_eq_true] at hpattern
      obtain ⟨⟨hdigits, rfl⟩, rfl⟩ := hpattern
      exact ⟨a, b, c, d, e, f, g, h, rfl, hdigits⟩
    · cases hpattern
  · rintro ⟨a, b, c, d, e, f, g, h, rfl, hdigits⟩
    rw [isoDatePattern, List.all_eq_true.mpr hdigits]
    rfl

/-- The dates that are accepted. -/
def Dated (input : AutoresponderInput) : Prop :=
  (∀ date ∈ input.startDate, isoDatePattern date = true) ∧
    ∀ date ∈ input.endDate, isoDatePattern date = true

def scriptText (input : AutoresponderInput) : Text :=
  headerComment input ++ "\n".toList ++ requireLine input ++ "\n".toList ++ body input ++
    "\n".toList

/-- A check that passes changes nothing. -/
theorem assertIsoDate_bind {date field : Text} {next : Except Text Text} {script : Text} :
    (do assertIsoDate date field; next) = .ok script ↔
      isoDatePattern date = true ∧ next = .ok script := by
  rw [assertIsoDate]
  cases isoDatePattern date with
  | true => exact (and_iff_right rfl).symm
  | false => exact iff_of_false nofun fun hboth => nomatch hboth.1

theorem generate_ok_iff {input : AutoresponderInput} {script : Text} :
    generateAutoresponderSieve input = .ok script ↔
      Dated input ∧ script = scriptText input := by
  have hdone : (Except.ok (scriptText input) : Except Text Text) = .ok script ↔
      script = scriptText input := by
    rw [Except.ok.injEq, eq_comm]
  have hnone : (∀ date ∈ (none : Option Text), isoDatePattern date = true) ↔ True :=
    iff_true_intro nofun
  have hsome : ∀ first : Text, (∀ date ∈ some first, isoDatePattern date = true) ↔
      isoDatePattern first = true := fun first =>
    ⟨fun hall => hall first rfl, fun hfirst date hdate => Option.some.inj hdate ▸ hfirst⟩
  obtain ⟨subject, message, startDate, endDate⟩ := input
  rw [Dated, ← hdone]
  cases startDate with
  | none =>
      cases endDate with
      | none =>
          rw [hnone, true_and, true_and]
          exact Iff.rfl
      | some last =>
          rw [hnone, hsome, true_and]
          exact assertIsoDate_bind
  | some first =>
      cases endDate with
      | none =>
          rw [hnone, hsome, and_true]
          exact assertIsoDate_bind
      | some last =>
          rw [hsome, hsome, and_assoc]
          exact assertIsoDate_bind.trans (and_congr_right fun _ => assertIsoDate_bind)

/- Comments -/

/-- The characters of base64 and of dates break no line, and are not trimmed. -/
theorem comment_chars : ∀ c ∈ alphabet.map usualLetter ++ ['='],
    isSpace c = false ∧ endsLine c = false := by
  rw [alphabet_eq]
  exact List.all_iff_forall_prop.mp (by decide)

theorem toBase64_chars (value : Text) : ∀ c ∈ toBase64 value,
    isSpace c = false ∧ endsLine c = false :=
  fun c hc => comment_chars c (mem_encodePadded hc)

theorem isDigit_mem {c : Char} (hdigit : isDigit c = true) : c ∈ "0123456789".toList := by
  have hchar : ∀ value < 58, 48 ≤ value → Char.ofNat value ∈ "0123456789".toList := by
    decide
  rw [isDigit, Bool.and_eq_true, decide_eq_true_eq, decide_eq_true_eq] at hdigit
  have hmem := hchar c.toNat (Nat.lt_succ_of_le hdigit.2) hdigit.1
  rwa [Char.ofNat_toNat] at hmem

theorem isoDate_mem {value : Text} (hpattern : isoDatePattern value = true) :
    ∀ c ∈ value, c ∈ "0123456789-".toList := by
  obtain ⟨a, b, d, e, f, g, h, i, rfl, hdigits⟩ := isoDatePattern_iff.mp hpattern
  intro c hc
  have hmem : c = '-' ∨ c ∈ [a, b, d, e, f, g, h, i] := by
    simp only [List.mem_cons, List.not_mem_nil, or_false] at hc ⊢
    grind
  rcases hmem with rfl | hmem
  · decide
  · have hdigit : c ∈ "0123456789".toList := isDigit_mem (hdigits c hmem)
    exact List.mem_append_left ['-'] hdigit

def headerLine (field : HeaderField) (value : Text) : Text := field.front ++ value

theorem front_spec (field other : HeaderField) :
    4 ≤ field.front.length ∧ field.front.head? = some '#' ∧
      (∀ c ∈ field.front, endsLine c = false) ∧
      (field.front.take 4 = other.front.take 4 → field = other) := by
  have hall : field.front.all (fun c => endsLine c = false) = true := by
    cases field <;> decide
  rw [← List.all_iff_forall_prop]
  cases field <;> cases other <;> simp only [hall, true_and] <;> decide

theorem matchField_own (field : HeaderField) {value : Text} (hvalue : ∀ c ∈ value, endsLine c = false) :
    matchField (headerLine field value) field = some (field, value) := by
  have hall : value.all (fun c => !endsLine c) = true := by
    rw [List.all_eq_true]
    intro c hc
    rw [hvalue c hc]
    rfl
  have hfront : field.front.isPrefixOf (field.front ++ value) = true :=
    List.isPrefixOf_iff_prefix.mpr (List.prefix_append _ _)
  rw [matchField, headerLine, List.drop_left]
  exact if_pos ⟨hfront, hall⟩

theorem matchField_other {field other : HeaderField} (hne : other ≠ field) (value : Text) :
    matchField (headerLine field value) other = none := by
  rw [matchField]
  refine if_neg fun hmatch => hne ?_
  obtain ⟨after, hafter⟩ := List.isPrefixOf_iff_prefix.mp hmatch.1
  obtain ⟨hlong, -, -, hsame⟩ := front_spec other field
  refine hsame ?_
  have htake := congrArg (List.take 4) hafter
  rwa [headerLine, List.take_append_of_le_length hlong,
    List.take_append_of_le_length (front_spec field field).1] at htake

theorem headerFieldPattern_line (field : HeaderField) {value : Text}
    (hvalue : ∀ c ∈ value, endsLine c = false) :
    headerFieldPattern (headerLine field value) = some (field, value) := by
  have hown := matchField_own field hvalue
  have hother : ∀ other, other ≠ field → matchField (headerLine field value) other = none :=
    fun other hne => matchField_other hne value
  rw [headerFieldPattern]
  cases field
  · rw [List.findSome?_cons, hown]
  · simp only [List.findSome?_cons, hother .subject (by decide), hown]
  · simp only [List.findSome?_cons, hother .subject (by decide), hother .message (by decide), hown]
  · simp only [List.findSome?_cons, hother .subject (by decide), hother .message (by decide),
      hother .start (by decide), hown]

def dateText (date : Option Text) : Text := date.getD "none".toList

theorem headerComment_eq (input : AutoresponderInput) : headerComment input =
    ['\n'].intercalate [templateMarker, headerLine .subject (toBase64 input.subject),
      headerLine .message (toBase64 input.message), headerLine .start (dateText input.startDate),
      headerLine .ending (dateText input.endDate)] := by
  have hsubject : "# subject: ".toList = HeaderField.subject.front := by
    decide
  have hmessage : "# message: ".toList = HeaderField.message.front := by
    decide
  have hstart : "# start: ".toList = HeaderField.start.front := by
    decide
  have hending : "# end: ".toList = HeaderField.ending.front := by
    decide
  rw [headerComment, hsubject, hmessage, hstart, hending]
  rfl

theorem headerFields_line (fields : HeaderField → Option Text) (field : HeaderField) {value : Text}
    (hvalue : ∀ c ∈ value, isSpace c = false ∧ endsLine c = false) (lines : List Text) :
    headerFields fields (headerLine field value :: lines) =
      headerFields (Function.update fields field (some value)) lines := by
  have hcomment : (headerLine field value).head? = some '#' := by
    rw [headerLine, List.head?_append, (front_spec field field).2.1]
    rfl
  rw [headerFields, if_pos hcomment, headerFieldPattern_line field fun c hc => (hvalue c hc).2]
  dsimp only
  rw [trim_of_forall fun c hc => (hvalue c hc).1]
  refine congrArg (headerFields · lines) (funext fun other => ?_)
  rw [Function.update_apply]

theorem headerLine_break (field : HeaderField) {value : Text}
    (hvalue : ∀ c ∈ value, isSpace c = false ∧ endsLine c = false) :
    '\n' ∉ headerLine field value := by
  intro hmem
  have hbreak : endsLine '\n' = true := by
    decide
  rcases List.mem_append.mp hmem with hfront | hmem
  · exact Bool.false_ne_true (((front_spec field field).2.2.1 _ hfront).symm.trans hbreak)
  · exact Bool.false_ne_true ((hvalue _ hmem).2.symm.trans hbreak)

theorem dateText_chars {date : Option Text} (hdate : ∀ value ∈ date, isoDatePattern value = true) :
    ∀ c ∈ dateText date, isSpace c = false ∧ endsLine c = false := by
  have hall : ∀ c ∈ "0123456789-".toList ++ "none".toList,
      isSpace c = false ∧ endsLine c = false :=
    List.all_iff_forall_prop.mp (by decide)
  intro c hc
  refine hall c ?_
  cases date with
  | none => exact List.mem_append_right _ hc
  | some value => exact List.mem_append_left _ (isoDate_mem (hdate value rfl) c hc)

theorem dateOf_dateText {date : Option Text} (hdate : ∀ value ∈ date, isoDatePattern value = true) :
    dateOf (some (dateText date)) = date := by
  cases date with
  | none => rfl
  | some value =>
      have hne : value ≠ "none".toList := by
        rintro rfl
        exact absurd (hdate _ rfl) (by decide)
      exact Option.filter_eq_some_iff.mpr ⟨rfl, decide_eq_true hne⟩

theorem fromBase64_toBase64 (value : Text) : fromBase64 (toBase64 value) = value := by
  rw [fromBase64, toBase64, decodeLoose_encodePadded, decodeUtf8_encodeUtf8]

theorem requireLine_cons (input : AutoresponderInput) :
    ∃ rest, requireLine input = 'r' :: rest := by
  have hword : "require [".toList = 'r' :: "equire [".toList := by
    decide
  have hfront : ∀ text : Text, ∃ rest, "require [".toList ++ text = 'r' :: rest := by
    intro text
    rw [hword]
    exact ⟨"equire [".toList ++ text, List.cons_append⟩
  obtain ⟨rest, hrest⟩ := hfront
    (", ".toList.intercalate ((requires input).map quote) ++ "];".toList)
  exact ⟨rest, (List.append_assoc _ _ _).trans hrest⟩

theorem headerFieldPattern_marker : headerFieldPattern templateMarker = none := by
  decide

/-- The comments say what was entered: read back, a script gives the subject, the message and
the dates that it was made of. -/
theorem parse_scriptText {input : AutoresponderInput} (hdated : Dated input) :
    parseAutoresponderSieve (scriptText input) =
      some ⟨input.subject, input.message, input.startDate, input.endDate⟩ := by
  have hsubject := toBase64_chars input.subject
  have hmessage := toBase64_chars input.message
  have hstart := dateText_chars hdated.1
  have hending := dateText_chars hdated.2
  obtain ⟨left, hleft⟩ : ∃ left, scriptText input = templateMarker ++ '\n' ::
      (headerLine .subject (toBase64 input.subject) ++ '\n' ::
        (headerLine .message (toBase64 input.message) ++ '\n' ::
          (headerLine .start (dateText input.startDate) ++ '\n' ::
            (headerLine .ending (dateText input.endDate) ++ '\n' :: 'r' :: left)))) := by
    obtain ⟨rest, hrest⟩ := requireLine_cons input
    refine ⟨rest ++ '\n' :: (body input ++ ['\n']), ?_⟩
    have hbreak : "\n".toList = ['\n'] := rfl
    rw [scriptText, headerComment_eq, hrest, hbreak]
    rw [List.intercalate_cons_cons, List.intercalate_cons_cons, List.intercalate_cons_cons,
      List.intercalate_cons_cons, List.intercalate_singleton]
    simp only [List.append_assoc, List.cons_append, List.nil_append]
  obtain ⟨first, lines, hlines⟩ : ∃ first lines,
      ('r' :: left).splitOn '\n' = ('r' :: first) :: lines := by
    rw [List.splitOn_cons_eq_if_modifyHead, if_neg (by decide)]
    cases hsplit : left.splitOn '\n' with
    | nil => exact absurd hsplit (List.splitOn_ne_nil '\n' left)
    | cons first lines => exact ⟨first, lines, rfl⟩
  have hmarker : templateMarker.isPrefixOf (scriptText input) = true := by
    rw [hleft, List.isPrefixOf_iff_prefix]
    exact List.prefix_append _ _
  have hsplit : (scriptText input).splitOn '\n' = templateMarker ::
      headerLine .subject (toBase64 input.subject) ::
      headerLine .message (toBase64 input.message) ::
      headerLine .start (dateText input.startDate) ::
      headerLine .ending (dateText input.endDate) :: ('r' :: first) :: lines := by
    rw [hleft, List.splitOn_append_cons_self_of_not_mem (by decide),
      List.splitOn_append_cons_self_of_not_mem (headerLine_break .subject hsubject),
      List.splitOn_append_cons_self_of_not_mem (headerLine_break .message hmessage),
      List.splitOn_append_cons_self_of_not_mem (headerLine_break .start hstart),
      List.splitOn_append_cons_self_of_not_mem (headerLine_break .ending hending), hlines]
  rw [parseAutoresponderSieve, if_pos hmarker, hsplit]
  have hfields : headerFields (fun _ => none) (templateMarker ::
      headerLine .subject (toBase64 input.subject) ::
      headerLine .message (toBase64 input.message) ::
      headerLine .start (dateText input.startDate) ::
      headerLine .ending (dateText input.endDate) :: ('r' :: first) :: lines) = fun
    | .subject => some (toBase64 input.subject)
    | .message => some (toBase64 input.message)
    | .start => some (dateText input.startDate)
    | .ending => some (dateText input.endDate) := by
    have hstop : ('r' :: first).head? ≠ some '#' :=
      fun hhead => absurd (Option.some.inj hhead) (by decide)
    rw [headerFields, if_pos (by decide), headerFieldPattern_marker]
    dsimp only
    rw [headerFields_line _ _ hsubject, headerFields_line _ _ hmessage,
      headerFields_line _ _ hstart, headerFields_line _ _ hending, headerFields, if_neg hstop]
    funext field
    cases field <;> rfl
  rw [hfields]
  dsimp only
  rw [fromBase64_toBase64, fromBase64_toBase64, dateOf_dateText hdated.1, dateOf_dateText hdated.2]

end Autoresponder

end MailPanel

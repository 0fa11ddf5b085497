import MailPanel.PostfixVirtual

/-
The account and quota tables as the panel reads them, and files of lines: entries, blanks
and comments, and lines that do not parse.
-/

namespace MailPanel

namespace Parsers

open ScriptText Aliases

structure ParseResult (Entry : Type) where
  entries : List Entry
  issues : List ParseIssue
deriving DecidableEq, Repr

/-- Every parser reads a file line by line; a line gives an entry, an issue or nothing. -/
def parseEachLine {Entry : Type}
    (parse : Nat → List Char → Option (Except ParseIssue Entry)) (content : List Char) :
    ParseResult Entry :=
  let parsed := ((splitLines content).zipIdx 1).filterMap fun (rawLine, lineNumber) =>
    parse lineNumber rawLine
  { entries := parsed.filterMap Except.toOption
    issues := parsed.filterMap fun
      | .error issue => some issue
      | .ok _ => none }

/-- A line of the accounts file as the parser gives it, with the address cut at its last at
sign. -/
structure PostfixAccountEntry where
  email : String
  localPart : String
  domain : String
  passwordHash : String
  attributes : String
deriving DecidableEq, Repr

structure DovecotQuotaEntry where
  email : String
  localPart : String
  domain : String
  quota : String
deriving DecidableEq, Repr

section Parsers

variable (toLowerCase : String → String)

/-- An account out of its fields, once the line has been cut: the address has to be one, and the
hash must not be empty. What is wrong is an issue with the text of the field. -/
def parseAccountFields (issue : String → Except ParseIssue PostfixAccountEntry)
    (emailField hashField attributesField : List Char) :
    Except ParseIssue PostfixAccountEntry :=
  match splitEmailAddress toLowerCase emailField with
  | none => issue ("\"" ++ String.ofList emailField ++ "\" is not a valid email address")
  | some split =>
      if hashField.isEmpty then issue "password hash field is empty"
      else
        .ok
          { email := split.address
            localPart := split.localPart
            domain := split.domain
            passwordHash := String.ofList hashField
            attributes := String.ofList attributesField }

/-- A line of the accounts file. Blank lines and comments are nothing, and a line with any other
number of fields than two or three is an issue that says how many it found. -/
def parseAccountLine (lineNumber : Nat) (rawLine : List Char) :
    Option (Except ParseIssue PostfixAccountEntry) :=
  let line := trim rawLine
  let issue := fun reason => .error ⟨lineNumber, String.ofList rawLine, reason⟩
  if isBlankOrComment line then none
  else
    match (line.splitOn '|').map trim with
    | [emailField, hashField] =>
        some (parseAccountFields toLowerCase issue emailField hashField [])
    | [emailField, hashField, attributesField] =>
        some (parseAccountFields toLowerCase issue emailField hashField attributesField)
    | fields => some (issue ("expected \"email|hash\" or \"email|hash|attributes\" " ++
        "(2 or 3 pipe-delimited fields), found " ++ toString fields.length))

def parsePostfixAccounts (content : List Char) : ParseResult PostfixAccountEntry :=
  parseEachLine (parseAccountLine toLowerCase) content

/-- A line of the quotas file. The address ends at the first colon, and everything after it is
the quota, which must not be empty. -/
def parseQuotaLine (lineNumber : Nat) (rawLine : List Char) :
    Option (Except ParseIssue DovecotQuotaEntry) :=
  let line := trim rawLine
  let issue := fun reason => some (.error ⟨lineNumber, String.ofList rawLine, reason⟩)
  if isBlankOrComment line then none
  else
    match line.dropWhile (· ≠ ':') with
    | [] => issue "expected \"email:quota\" (no colon delimiter found)"
    | _ :: rest =>
        let emailField := trim (line.takeWhile (· ≠ ':'))
        let quotaField := trim rest
        match splitEmailAddress toLowerCase emailField with
        | none =>
            issue ("\"" ++ String.ofList emailField ++ "\" is not a valid email address")
        | some split =>
            if quotaField.isEmpty then issue "quota field is empty"
            else
              some (.ok
                { email := split.address
                  localPart := split.localPart
                  domain := split.domain
                  quota := String.ofList quotaField })

def parseDovecotQuotas (content : List Char) : ParseResult DovecotQuotaEntry :=
  parseEachLine (parseQuotaLine toLowerCase) content

end Parsers

example : parsePostfixAccounts id "# local\r\nann@example.com | {SHA} |x\n\nbob@example.com".toList =
    ⟨[⟨"ann@example.com", "ann", "example.com", "{SHA}", "x"⟩],
      [⟨4, "bob@example.com", "expected \"email|hash\" or \"email|hash|attributes\" " ++
        "(2 or 3 pipe-delimited fields), found 1"⟩]⟩ := by
  decide

/-- The alias table is read line by line like the others. -/
theorem parsePostfixVirtual_eq (toLowerCase : String → String) (content : List Char) :
    parsePostfixVirtual toLowerCase content =
      ⟨(parseEachLine (parseLine toLowerCase) content).entries,
        (parseEachLine (parseLine toLowerCase) content).issues⟩ := by
  rw [parsePostfixVirtual, parseEachLine]
  congr 2
  funext parsed
  cases parsed with
  | ok entry => rfl
  | error issue => rfl

/- Files -/

inductive LineEnd where
  | lf
  | crlf
deriving DecidableEq, Repr

def LineEnd.text : LineEnd → List Char
  | .lf => ['\n']
  | .crlf => ['\r', '\n']

/-- What a line stands for. -/
inductive Line (Record : Type) where
  /-- A blank line or a comment. -/
  | skipped
  | record (record : Record)
  | malformed
deriving DecidableEq, Repr

/-- A file: lines that end, and one more, perhaps empty, up to the end of the file. -/
structure ConfigFile (Record : Type) where
  lines : List ((Line Record × List Char) × LineEnd)
  last : Line Record × List Char

namespace ConfigFile

variable {Record : Type} (file : ConfigFile Record)

def content : List Char :=
  file.lines.flatMap (fun line => line.1.2 ++ line.2.text) ++ file.last.2

def all : List (Line Record × List Char) := file.lines.map Prod.fst ++ [file.last]

def records : List Record :=
  file.all.filterMap fun
    | (.record record, _) => some record
    | _ => none

/-- The number and the text of every malformed line. -/
def malformed : List (Nat × String) :=
  (file.all.zipIdx 1).filterMap fun
    | ((.malformed, text), lineNumber) => some (lineNumber, String.ofList text)
    | _ => none

end ConfigFile

/-- How a kind of file writes its records, and which lines are none of its own. -/
structure Format (Record : Type) where
  Renders : Record → List Char → Prop
  Malformed : List Char → Prop

/-- Nothing but blanks, or a comment. -/
def Skipped (text : List Char) : Prop :=
  (∀ c ∈ text, isSpace c = true) ∨
    ∃ blanks comment, text = blanks ++ '#' :: comment ∧ ∀ c ∈ blanks, isSpace c = true

def Format.Writes {Record : Type} (format : Format Record) :
    Line Record → List Char → Prop
  | .skipped, text => Skipped text
  | .record record, text => format.Renders record text
  | .malformed, text => format.Malformed text

/-- Each line is one line, and what it stands for. -/
def Format.Wrote {Record : Type} (format : Format Record) (file : ConfigFile Record) : Prop :=
  ∀ line ∈ file.all, ('\n' ∉ line.2 ∧ '\r' ∉ line.2) ∧ format.Writes line.1 line.2

/-- A parser of lines reads what the format writes: blank lines and comments are skipped, a
record is read as the entry that it stands for, and a malformed line is an issue with its number
and its text. -/
structure Reads {Record Entry : Type}
    (parse : Nat → List Char → Option (Except ParseIssue Entry)) (entry : Record → Entry)
    (format : Format Record) : Prop where
  skipped : ∀ lineNumber text, Skipped text → parse lineNumber text = none
  record : ∀ lineNumber record text, format.Renders record text →
    parse lineNumber text = some (.ok (entry record))
  malformed : ∀ lineNumber text, format.Malformed text →
    ∃ reason, parse lineNumber text = some (.error ⟨lineNumber, String.ofList text, reason⟩)

section Lines

theorem splitFrom_append {text : List Char} (hlf : '\n' ∉ text) (hcr : '\r' ∉ text)
    (line rest : List Char) :
    splitFrom line (text ++ rest) = splitFrom (text.reverse ++ line) rest := by
  induction text generalizing line with
  | nil => rfl
  | cons c text ih =>
      rw [List.mem_cons, not_or] at hlf hcr
      have hstep : splitFrom line (c :: (text ++ rest)) = splitFrom (c :: line) (text ++ rest) := by
        rw [splitFrom]
        · exact fun _ h _ => hcr.1 h.symm
        · exact fun h => hcr.1 h.symm
        · exact fun h => hlf.1 h.symm
      rw [List.cons_append, hstep, ih hlf.2 hcr.2, List.reverse_cons, List.append_assoc]
      rfl

theorem splitFrom_lineEnd (line : List Char) (ending : LineEnd) (rest : List Char) :
    splitFrom line (ending.text ++ rest) = line.reverse :: splitFrom [] rest := by
  cases ending with
  | lf => rw [LineEnd.text, List.singleton_append, splitFrom]
  | crlf => rw [LineEnd.text, List.cons_append, List.singleton_append, splitFrom]

theorem splitFrom_of_notMem {text : List Char} (hlf : '\n' ∉ text) (hcr : '\r' ∉ text) :
    splitFrom [] text = [text] := by
  have hsplit := splitFrom_append hlf hcr [] []
  rw [List.append_nil, List.append_nil] at hsplit
  rw [hsplit, splitFrom, List.reverse_reverse]

/-- The lines of a file are the lines it was written in. -/
theorem splitFrom_content {Record : Type} {file : ConfigFile Record}
    (hlines : ∀ line ∈ file.all, '\n' ∉ line.2 ∧ '\r' ∉ line.2) :
    splitFrom [] file.content = file.all.map Prod.snd := by
  obtain ⟨lines, last⟩ := file
  rw [ConfigFile.content, ConfigFile.all]
  induction lines with
  | nil =>
      obtain ⟨hlf, hcr⟩ := hlines last (List.mem_append_right _ (List.mem_singleton_self last))
      exact splitFrom_of_notMem hlf hcr
  | cons line lines ih =>
      obtain ⟨hlf, hcr⟩ := hlines line.1 List.mem_cons_self
      have hrest := ih fun other hother => hlines other (List.mem_cons_of_mem _ hother)
      dsimp only at hrest ⊢
      rw [List.flatMap_cons, List.append_assoc, List.append_assoc, splitFrom_append hlf hcr,
        splitFrom_lineEnd, hrest, List.append_nil, List.reverse_reverse]
      rfl

variable {Record Entry : Type} {parse : Nat → List Char → Option (Except ParseIssue Entry)}
  {entry : Record → Entry} {format : Format Record}

/-- The lines from a number on give the records and the malformed lines among them. -/
theorem Reads.lines (hreads : Reads parse entry format)
    {lines : List (Line Record × List Char)}
    (hwrote : ∀ line ∈ lines, format.Writes line.1 line.2) (first : Nat) :
    let parsed := ((lines.map Prod.snd).zipIdx first).filterMap fun (rawLine, lineNumber) =>
      parse lineNumber rawLine
    parsed.filterMap Except.toOption =
        (lines.filterMap fun
          | (.record record, _) => some record
          | _ => none).map entry ∧
      (parsed.filterMap fun
        | .error issue => some issue
        | .ok _ => none).map (fun issue => (issue.line, issue.raw)) =
        (lines.zipIdx first).filterMap fun
          | ((.malformed, text), lineNumber) => some (lineNumber, String.ofList text)
          | _ => none := by
  induction lines generalizing first with
  | nil => exact ⟨rfl, rfl⟩
  | cons line lines ih =>
      have hline := hwrote line List.mem_cons_self
      obtain ⟨hentries, hissues⟩ :=
        ih (fun other hother => hwrote other (List.mem_cons_of_mem line hother)) (first + 1)
      obtain ⟨line, text⟩ := line
      dsimp only at hentries hissues ⊢
      rw [List.map_cons, List.zipIdx_cons, List.zipIdx_cons, List.filterMap_cons]
      cases line with
      | skipped =>
          rw [hreads.skipped first text hline]
          exact ⟨hentries, hissues⟩
      | record record =>
          rw [hreads.record first record text hline]
          exact ⟨congrArg (entry record :: ·) hentries, hissues⟩
      | malformed =>
          obtain ⟨reason, hreason⟩ := hreads.malformed first text hline
          rw [hreason]
          exact ⟨hentries, congrArg ((first, String.ofList text) :: ·) hissues⟩

/-- A file is read as the records that were written to it, and each malformed line is
reported by its number and its text. -/
theorem Reads.file (hreads : Reads parse entry format) {file : ConfigFile Record}
    (hwrote : format.Wrote file) :
    (parseEachLine parse file.content).entries = file.records.map entry ∧
      (parseEachLine parse file.content).issues.map (fun issue => (issue.line, issue.raw)) =
        file.malformed := by
  have hsplit := splitFrom_content fun line hline => (hwrote line hline).1
  have hall := hreads.lines (fun line hline => (hwrote line hline).2) 1
  rw [← hsplit] at hall
  rw [parseEachLine, splitLines]
  by_cases hempty : file.content.isEmpty = true
  · rw [if_pos hempty]
    rw [List.isEmpty_iff.mp hempty] at hall
    have hnone : parse 1 [] = none :=
      hreads.skipped 1 [] (Or.inl fun c hc => absurd hc List.not_mem_nil)
    have hlast : (([[]] : List (List Char)).zipIdx 1).filterMap
        (fun (rawLine, lineNumber) => parse lineNumber rawLine) = [] :=
      List.filterMap_cons_none hnone
    rw [splitFrom, List.reverse_nil] at hall
    dsimp only at hall hlast
    rw [hlast] at hall
    exact hall
  · rw [if_neg hempty]
    exact hall

end Lines

end Parsers

end MailPanel

import MailPanel.AutoresponderSieve
import MailPanel.SieveGrammar
import MailPanel.UrlPath

/-
What the script of an autoresponder says by the grammar of Sieve.
-/

namespace MailPanel

namespace Autoresponder

open SieveGrammar ScriptText

/-- The subject on one line. -/
def singleLine (value : Text) : Text := replaceBreaks [' '] value

def messageLines (message : Text) : List Text := (replaceBreaks ['\n'] message).splitOn '\n'

/-- The message with an end after every line, the last one too. -/
def sentText (message : Text) : Text := (messageLines message).flatMap (· ++ lineEnd)

def vacation (input : AutoresponderInput) (text : Text) : Command :=
  .command "vacation".toList
    [.tag "days".toList, .number "7".toList, .tag "subject".toList,
      .strings [singleLine input.subject], .strings [text]] [] none

def dateTest (comparison date : Text) : Test :=
  .test "currentdate".toList
    [.tag "zone".toList, .strings ["+0000".toList], .tag "value".toList, .strings [comparison],
      .strings ["date".toList], .strings [date]] []

def dateTests (input : AutoresponderInput) : List Test :=
  (input.startDate.map (dateTest "ge".toList)).toList ++
    (input.endDate.map (dateTest "le".toList)).toList

/-- The vacation action, in the dates: alone where there are none, under one test where there is
one, and under both tests otherwise. -/
def answering (input : AutoresponderInput) (text : Text) : Command :=
  match dateTests input with
  | [] => vacation input text
  | [only] => .command "if".toList [] [only] (some [vacation input text])
  | several => .command "if".toList [] [.test "allof".toList [] several]
      (some [vacation input text])

def commands (input : AutoresponderInput) (text : Text) : List Command :=
  [.command "require".toList [.strings (requires input)] [] none, answering input text]

/- The script in pieces -/

/-- What stands before the action. -/
def guard (input : AutoresponderInput) : Text :=
  match conditions input with
  | [] => []
  | [only] => "if ".toList ++ only ++ " \x7b\n  ".toList
  | several => "if allof(\n  ".toList ++ ",\n  ".toList.intercalate several ++ "\n) \x7b\n  ".toList

/-- What stands behind it. -/
def closing (input : AutoresponderInput) : Text :=
  match conditions input with
  | [] => "\n".toList
  | _ => "\n\x7d\n".toList

def action : Text :=
  "vacation :days ".toList ++ (toString vacationSuppressionDays).toList ++ " :subject ".toList

/-- The two replacements of the source, one after the other, come to a single pass over the
characters. -/
theorem escape_eq_replaceAll (value : Text) :
    replaceAll '"' ['\\', '"'] (replaceAll '\\' ['\\', '\\'] value) = escape value := by
  rw [replaceAll, replaceAll, escape, List.flatMap_assoc]
  refine congrArg (List.flatMap · value) (funext fun c => ?_)
  by_cases hbackslash : c = '\\'
  · subst hbackslash
    rfl
  · rw [if_neg hbackslash, List.flatMap_singleton]
    by_cases hquote : c = '"'
    · subst hquote
      rfl
    · rw [if_neg hquote, if_neg (not_or.mpr ⟨hbackslash, hquote⟩)]

/-- A quoted string is the escaped line between quotation marks. -/
theorem sieveQuotedString_eq (value : Text) :
    sieveQuotedString value = '"' :: (escape (singleLine value) ++ ['"']) := by
  rw [sieveQuotedString, escape_eq_replaceAll]
  rfl

/-- Texts with a separator behind each, in the two ways in which the source writes them. -/
theorem intercalate_append {sep : Text} {texts : List Text} (htexts : texts ≠ []) (rest : Text) :
    sep.intercalate texts ++ (sep ++ rest) = texts.flatMap (· ++ sep) ++ rest := by
  induction texts with
  | nil => exact absurd rfl htexts
  | cons text texts ih =>
      have hfirst : (text :: texts).flatMap (· ++ sep) = text ++ sep ++ texts.flatMap (· ++ sep) :=
        List.flatMap_cons
      cases texts with
      | nil => rw [List.intercalate_singleton, hfirst, List.flatMap_nil, List.append_nil,
          List.append_assoc]
      | cons next texts =>
          rw [List.intercalate_cons_cons, List.append_assoc, List.append_assoc,
            ih (List.cons_ne_nil next texts), hfirst, List.append_assoc, List.append_assoc]

/-- The lines of a message with their dots doubled, and the dot that ends them, as the generator
joins them. -/
theorem dotted_eq {lines : List Text} (hlines : lines ≠ []) : dotted lines =
    lineEnd.intercalate (lines.map stuffDot) ++ (lineEnd ++ '.' :: lineEnd) := by
  have hstuffed : lines.map stuffDot ≠ [] := by
    rw [ne_eq, List.map_eq_nil_iff]
    exact hlines
  rw [intercalate_append hstuffed, List.flatMap_map]
  rfl

/-- A message in the form of the grammar: the word that opens it, and its dotted lines. -/
theorem sieveMultilineText_eq (value : Text) : sieveMultilineText value =
    "text:".toList ++ (lineEnd ++ dotted (messageLines value)) := by
  have hfront : "text:\r\n".toList = "text:".toList ++ lineEnd := by
    decide
  have hback : "\r\n.\r\n".toList = lineEnd ++ '.' :: lineEnd := by
    decide
  have hlines : messageLines value ≠ [] := List.splitOn_ne_nil '\n' _
  rw [dotted_eq hlines, ← hback, ← List.append_assoc, ← List.append_assoc, ← hfront]
  rfl

/-- The action, and what follows it. -/
def actionText (input : AutoresponderInput) (rest : Text) : Text :=
  action ++ '"' :: (escape (singleLine input.subject) ++ '"' :: ' ' ::
    ("text:".toList ++ (lineEnd ++ (dotted (messageLines input.message) ++ ';' :: rest))))

/-- The command with anything behind it, brought into the order in which a lexer meets it. -/
theorem vacationCommand_append (input : AutoresponderInput) (rest : Text) :
    vacationCommand input ++ rest = actionText input rest := by
  have hspace : " ".toList = [' '] := by
    decide
  have hsemicolon : ";".toList = [';'] := by
    decide
  unfold vacationCommand actionText action
  rw [sieveMultilineText_eq, sieveQuotedString_eq, hspace, hsemicolon]
  simp only [List.append_assoc, List.cons_append, List.nil_append]

theorem body_append (input : AutoresponderInput) :
    body input ++ "\n".toList = guard input ++ (vacationCommand input ++ closing input) := by
  rw [body, guard, closing]
  cases conditions input with
  | nil => rfl
  | cons first others =>
      have hclosing : "\n\x7d\n".toList = "\n\x7d".toList ++ "\n".toList := by
        decide
      rw [hclosing]
      cases others with
      | nil => simp only [List.append_assoc]
      | cons second others => simp only [List.append_assoc]

/-- The whole script in the order in which a lexer meets it: the comment, the requirement, the
guard and the action. -/
theorem scriptText_eq (input : AutoresponderInput) : scriptText input =
    headerComment input ++ ("\n".toList ++ (requireLine input ++ ("\n".toList ++
      (guard input ++ actionText input (closing input))))) := by
  rw [scriptText, List.append_assoc _ (body input), body_append, vacationCommand_append]
  simp only [List.append_assoc]

/- What the pieces hold -/

/-- Neither a carriage return nor a NUL, and no dot and no underscore. -/
def isPlain (c : Char) : Bool := c ≠ '\r' && c ≠ '\x00' && c ≠ '.' && c ≠ '_'

def Plain (text : Text) : Prop := ∀ c ∈ text, isPlain c = true

theorem Plain.append {front rest : Text} (hfront : Plain front) (hrest : Plain rest) :
    Plain (front ++ rest) :=
  fun c hc => (List.mem_append.mp hc).elim (hfront c) (hrest c)

theorem plain_of_all {text : Text} (htext : text.all isPlain = true) : Plain text :=
  fun c hc => List.all_eq_true.mp htext c hc

theorem plain_literal {text : Text} (htext : text.all isPlain = true) :
    Plain (String.ofList text).toList := by
  rw [String.toList_ofList]
  exact plain_of_all htext

/-- The encoding of a header's value has no character that could end a line or a comment. -/
theorem plain_toBase64 (value : Text) : Plain (toBase64 value) := by
  have hletters : Plain (Base64Url.alphabet.map Base64Url.usualLetter ++ ['=']) :=
    plain_of_all (by decide)
  exact fun c hc => hletters c (Base64Url.mem_encodePadded hc)

theorem plain_isoDate {date : Text} (hdate : isoDatePattern date = true) : Plain date := by
  have hletters : Plain "0123456789-".toList := plain_literal (by decide)
  exact fun c hc => hletters c (isoDate_mem hdate c hc)

theorem plain_dateText {date : Option Text} (hdate : ∀ value ∈ date, isoDatePattern value = true) :
    Plain (dateText date) := by
  cases date with
  | none => exact plain_of_all (by decide)
  | some value => exact plain_isoDate (hdate value rfl)

theorem plain_intercalate {sep : Text} (hsep : Plain sep) {texts : List Text}
    (htexts : ∀ text ∈ texts, Plain text) : Plain (sep.intercalate texts) := by
  induction texts with
  | nil => exact fun c hc => absurd hc List.not_mem_nil
  | cons text texts ih =>
      have hrest := ih fun other hother => htexts other (List.mem_cons_of_mem text hother)
      cases texts with
      | nil =>
          rw [List.intercalate_singleton]
          exact htexts text List.mem_cons_self
      | cons next texts =>
          rw [List.intercalate_cons_cons, List.append_assoc]
          exact (htexts text List.mem_cons_self).append (hsep.append hrest)

theorem plain_headerLine (field : HeaderField) {value : Text} (hvalue : Plain value) :
    Plain (headerLine field value) := by
  refine Plain.append (plain_of_all ?_) hvalue
  cases field <;> decide

/-- The comment at the top of a script holds nothing that the lexer could mistake for its end. -/
theorem plain_headerComment {input : AutoresponderInput} (hdated : Dated input) :
    Plain (headerComment input) := by
  rw [headerComment_eq]
  refine plain_intercalate (plain_of_all (by decide)) ?_
  intro line hline
  simp only [List.mem_cons, List.not_mem_nil, or_false] at hline
  rcases hline with rfl | rfl | rfl | rfl | rfl
  · exact plain_of_all (by decide)
  · exact plain_headerLine .subject (plain_toBase64 _)
  · exact plain_headerLine .message (plain_toBase64 _)
  · exact plain_headerLine .start (plain_dateText hdated.1)
  · exact plain_headerLine .ending (plain_dateText hdated.2)

theorem plain_condition {comparison date : Text} (hcomparison : Plain comparison)
    (hdate : isoDatePattern date = true) : Plain (condition comparison date) := by
  have hquote : Plain "\"".toList := plain_literal (by decide)
  have hmiddle : Plain "\" \"date\" \"".toList := plain_literal (by decide)
  have hfront : Plain "currentdate :zone \"+0000\" :value \"".toList := plain_literal (by decide)
  exact (((hfront.append hcomparison).append hmiddle).append (plain_isoDate hdate)).append hquote

/-- The tests on dates are made of words, numbers and quotation marks. -/
theorem plain_conditions {input : AutoresponderInput} (hdated : Dated input) :
    ∀ text ∈ conditions input, Plain text := by
  intro text htext
  rcases List.mem_append.mp htext with htext | htext
  · obtain ⟨date, hdate, rfl⟩ := Option.map_eq_some_iff.mp (Option.mem_toList.mp htext)
    exact plain_condition (plain_literal (by decide)) (hdated.1 date hdate)
  · obtain ⟨date, hdate, rfl⟩ := Option.map_eq_some_iff.mp (Option.mem_toList.mp htext)
    exact plain_condition (plain_literal (by decide)) (hdated.2 date hdate)

/-- What stands before the action holds only characters that are legal anywhere. -/
theorem plain_guard {input : AutoresponderInput} (hdated : Dated input) : Plain (guard input) := by
  have hconditions := plain_conditions hdated
  have hif : Plain "if ".toList := plain_literal (by decide)
  have hallof : Plain "if allof(\n  ".toList := plain_literal (by decide)
  have hcomma : Plain ",\n  ".toList := plain_literal (by decide)
  have hthen : Plain " \x7b\n  ".toList := plain_literal (by decide)
  have hclose : Plain "\n) \x7b\n  ".toList := plain_literal (by decide)
  unfold guard
  cases hcases : conditions input with
  | nil => exact fun c hc => absurd hc List.not_mem_nil
  | cons first others =>
      rw [hcases] at hconditions
      cases others with
      | nil => exact (hif.append (hconditions first List.mem_cons_self)).append hthen
      | cons second others =>
          exact (hallof.append (plain_intercalate hcomma hconditions)).append hclose

/-- The extensions that are required, without and with dates: a date asks for two more. -/
theorem requires_cases (input : AutoresponderInput) :
    (requires input = ["vacation".toList] ∧ conditions input = []) ∨
      (requires input = ["vacation".toList, "date".toList, "relational".toList] ∧
        conditions input ≠ []) := by
  have hadd : addDate ["vacation".toList] (some []) =
      ["vacation".toList, "date".toList, "relational".toList] := by
    decide
  have hagain : addDate ["vacation".toList, "date".toList, "relational".toList] (some []) =
      ["vacation".toList, "date".toList, "relational".toList] := by
    decide
  obtain ⟨subject, message, startDate, endDate⟩ := input
  cases startDate with
  | none =>
      cases endDate with
      | none => exact Or.inl ⟨rfl, rfl⟩
      | some last => exact Or.inr ⟨hadd, List.cons_ne_nil _ _⟩
  | some first =>
      cases endDate with
      | none => exact Or.inr ⟨hadd, List.cons_ne_nil _ _⟩
      | some last =>
          refine Or.inr ⟨?_, List.cons_ne_nil _ _⟩
          rw [requires]
          exact (congrArg (addDate · (some last)) hadd).trans hagain

theorem plain_quote {name : Text} (hname : Plain name) : Plain (quote name) := by
  have hquote : Plain "\"".toList := plain_literal (by decide)
  exact (hquote.append hname).append hquote

theorem plain_requireLine (input : AutoresponderInput) : Plain (requireLine input) := by
  have hopen : Plain "require [".toList := plain_literal (by decide)
  have hcomma : Plain ", ".toList := plain_literal (by decide)
  have hclose : Plain "];".toList := plain_literal (by decide)
  have hnames : ∀ name ∈ requires input, Plain name := by
    have hvacation : Plain "vacation".toList := plain_literal (by decide)
    have hdate : Plain "date".toList := plain_literal (by decide)
    have hrelational : Plain "relational".toList := plain_literal (by decide)
    intro name hname
    rcases requires_cases input with ⟨hrequires, -⟩ | ⟨hrequires, -⟩
    · rw [hrequires, List.mem_singleton] at hname
      exact hname ▸ hvacation
    · rw [hrequires, List.mem_cons, List.mem_cons, List.mem_singleton] at hname
      rcases hname with rfl | rfl | rfl
      · exact hvacation
      · exact hdate
      · exact hrelational
  have hquoted : ∀ name ∈ (requires input).map quote, Plain name := by
    intro quoted hquoted
    obtain ⟨name, hname, rfl⟩ := List.mem_map.mp hquoted
    exact plain_quote (hnames name hname)
  exact (hopen.append (plain_intercalate hcomma hquoted)).append hclose

theorem plain_action : Plain action := by
  have hfront : Plain "vacation :days ".toList := plain_literal (by decide)
  have hdays : Plain (toString vacationSuppressionDays).toList := plain_of_all (by decide)
  have hback : Plain " :subject ".toList := plain_literal (by decide)
  exact (hfront.append hdays).append hback

theorem plain_closing (input : AutoresponderInput) : Plain (closing input) := by
  have hbare : Plain "\n".toList := plain_literal (by decide)
  have hblock : Plain "\n\x7d\n".toList := plain_literal (by decide)
  unfold closing
  cases conditions input with
  | nil => exact hbare
  | cons first others => exact hblock

/- The characters of a script -/

/-- Legality may be judged behind a front of plain characters, as they change no state of the
check. -/
theorem legal_plain {front : Text} (hfront : Plain front) (rest : Text) :
    legal (front ++ rest) = legal rest := by
  refine legal_append fun c hc => ?_
  have hplain := hfront c hc
  constructor
  · rintro rfl
    exact absurd hplain (by decide)
  · rintro rfl
    exact absurd hplain (by decide)

/-- Dotted lines are legal as long as no line holds a return or a NUL of its own. -/
theorem legal_dotted {lines : List Text}
    (hlines : ∀ line ∈ lines, ∀ c ∈ line, c ≠ '\r' ∧ c ≠ '\x00') (rest : Text) :
    legal (dotted lines ++ rest) = legal rest := by
  induction lines with
  | nil => rfl
  | cons line lines ih =>
      have hline : ∀ c ∈ stuff line, c ≠ '\r' ∧ c ≠ '\x00' := by
        intro c hc
        rw [stuff] at hc
        split at hc
        · rcases List.mem_cons.mp hc with rfl | hc
          · decide
          · exact hlines line List.mem_cons_self c hc
        · exact hlines line List.mem_cons_self c hc
      have hrest := ih fun other hother => hlines other (List.mem_cons_of_mem line hother)
      rw [dotted, List.flatMap_cons, List.append_assoc, List.append_assoc, List.append_assoc,
        legal_append hline, ← hrest, dotted, List.append_assoc]
      rfl

/-- Every character of the result comes from the mark or from the text, and none of the latter
is part of a line end. -/
theorem replaceBreaks_chars {mark : Text} {value : Text} {c : Char}
    (hc : c ∈ replaceBreaks mark value) : c ∈ mark ∨ (c ∈ value ∧ c ≠ '\r' ∧ c ≠ '\n') := by
  induction value using replaceBreaks.induct with
  | case1 rest ih =>
      rw [replaceBreaks] at hc
      rcases List.mem_append.mp hc with hc | hc
      · exact Or.inl hc
      · exact (ih hc).imp_right fun ⟨hmem, hne⟩ =>
          ⟨List.mem_cons_of_mem _ (List.mem_cons_of_mem _ hmem), hne⟩
  | case2 rest _ ih =>
      rw [replaceBreaks] at hc
      · rcases List.mem_append.mp hc with hc | hc
        · exact Or.inl hc
        · exact (ih hc).imp_right fun ⟨hmem, hne⟩ => ⟨List.mem_cons_of_mem _ hmem, hne⟩
      · assumption
  | case3 rest ih =>
      rw [replaceBreaks] at hc
      rcases List.mem_append.mp hc with hc | hc
      · exact Or.inl hc
      · exact (ih hc).imp_right fun ⟨hmem, hne⟩ => ⟨List.mem_cons_of_mem _ hmem, hne⟩
  | case4 d rest _ hreturn hbreak ih =>
      rw [replaceBreaks] at hc
      · rcases List.mem_cons.mp hc with rfl | hc
        · refine Or.inr ⟨List.mem_cons_self, ?_, ?_⟩
          · rintro rfl
            exact hreturn rfl
          · rintro rfl
            exact hbreak rfl
        · exact (ih hc).imp_right fun ⟨hmem, hne⟩ => ⟨List.mem_cons_of_mem _ hmem, hne⟩
      · assumption
      · assumption
      · assumption
  | case5 => cases hc

theorem mem_replaceBreaks {mark : Text} {value : Text} {c : Char} (hc : c ∈ value)
    (hreturn : c ≠ '\r') (hbreak : c ≠ '\n') : c ∈ replaceBreaks mark value := by
  induction value using replaceBreaks.induct with
  | case1 rest ih =>
      rw [List.mem_cons, List.mem_cons, or_iff_right hreturn, or_iff_right hbreak] at hc
      exact List.mem_append_right _ (ih hc)
  | case2 rest _ ih =>
      rw [List.mem_cons, or_iff_right hreturn] at hc
      rw [replaceBreaks]
      · exact List.mem_append_right _ (ih hc)
      · assumption
  | case3 rest ih =>
      rw [List.mem_cons, or_iff_right hbreak] at hc
      exact List.mem_append_right _ (ih hc)
  | case4 d rest _ _ _ ih =>
      rw [replaceBreaks]
      · rw [List.mem_cons] at hc ⊢
        exact hc.imp_right ih
      · assumption
      · assumption
      · assumption
  | case5 => cases hc

/-- No line of a message holds a line end any more, and its characters come from the message. -/
theorem messageLines_chars {message line : Text} (hline : line ∈ messageLines message) :
    '\n' ∉ line ∧ ∀ c ∈ line, c ∈ message ∧ c ≠ '\r' := by
  have hbreak : '\n' ∉ line := notMem_of_mem_splitOn hline
  refine ⟨hbreak, fun c hc => ?_⟩
  have hmem : c ∈ replaceBreaks ['\n'] message := UrlPath.mem_of_mem_splitOn hline hc
  rcases replaceBreaks_chars hmem with hmark | ⟨hmem, hreturn, -⟩
  · exact absurd (List.mem_singleton.mp hmark ▸ hc) hbreak
  · exact ⟨hmem, hreturn⟩

theorem singleLine_chars {value : Text} (hnul : '\x00' ∉ value) :
    ∀ c ∈ escape (singleLine value), c ≠ '\r' ∧ c ≠ '\x00' := by
  intro c hc
  obtain ⟨d, hd, hc⟩ := List.mem_flatMap.mp hc
  have hd : d ≠ '\r' ∧ d ≠ '\x00' := by
    rcases replaceBreaks_chars hd with hmark | ⟨hmem, hreturn, -⟩
    · rw [List.mem_singleton.mp hmark]
      decide
    · exact ⟨hreturn, fun heq => hnul (heq ▸ hmem)⟩
  by_cases hescape : d = '\\' ∨ d = '"'
  · rw [if_pos hescape, List.mem_cons, List.mem_singleton] at hc
    rcases hc with rfl | rfl
    · decide
    · exact hd
  · rw [if_neg hescape, List.mem_singleton] at hc
    exact hc ▸ hd

/-- A script is legal when neither text holds a NUL: everything else is replaced, escaped or
encoded. -/
theorem legal_scriptText {input : AutoresponderInput} (hdated : Dated input)
    (hsubject : '\x00' ∉ input.subject) (hmessage : '\x00' ∉ input.message) :
    legal (scriptText input) = true := by
  have hbreak : Plain "\n".toList := plain_literal (by decide)
  have hquote : Plain ['"'] := plain_of_all (by decide)
  have hmiddle : Plain ['"', ' '] := plain_of_all (by decide)
  have htext : Plain "text:".toList := plain_literal (by decide)
  have hlines : ∀ line ∈ messageLines input.message, ∀ c ∈ line, c ≠ '\r' ∧ c ≠ '\x00' := by
    intro line hline c hc
    obtain ⟨hmem, hreturn⟩ := (messageLines_chars hline).2 c hc
    exact ⟨hreturn, fun heq => hmessage (heq ▸ hmem)⟩
  have hlineEnd : ∀ rest, legal (lineEnd ++ rest) = legal rest := fun _ => rfl
  have hclosing : legal (';' :: closing input) = true := by
    have hbare : legal (';' :: "\n".toList) = true := by
      decide
    have hblock : legal (';' :: "\n\x7d\n".toList) = true := by
      decide
    unfold closing
    cases conditions input with
    | nil => exact hbare
    | cons first others => exact hblock
  rw [scriptText_eq, legal_plain (plain_headerComment hdated), legal_plain hbreak,
    legal_plain (plain_requireLine input), legal_plain hbreak, legal_plain (plain_guard hdated),
    actionText, legal_plain plain_action, ← List.singleton_append, legal_plain hquote,
    legal_append (singleLine_chars hsubject)]
  exact (legal_plain hmiddle _).trans ((legal_plain htext _).trans ((hlineEnd _).trans
    ((legal_dotted hlines _).trans hclosing)))

/- The tokens of a script -/

section Lexes

variable {rest : Text} {tokens : List Token}

/-- The lexer skips the comment, whatever the subject and the dates are: the comment is one
line, and none of them brings a line break in. -/
theorem lexes_headerComment {input : AutoresponderInput} (hdated : Dated input)
    (hrest : Lexes rest tokens) : Lexes (headerComment input ++ '\n' :: rest) tokens := by
  have hline : ∀ field value, (∀ c ∈ value, isSpace c = false ∧ endsLine c = false) →
      ∀ {after : Text}, Lexes after tokens →
        Lexes (headerLine field value ++ '\n' :: after) tokens := by
    intro field value hvalue after hafter
    refine Lexes.comment ?_ (headerLine_break field hvalue) hafter
    rw [headerLine, List.head?_append, (front_spec field field).2.1]
    rfl
  have hending := hline .ending _ (dateText_chars hdated.2) hrest
  have hstart := hline .start _ (dateText_chars hdated.1) hending
  have hmessage := hline .message _ (toBase64_chars input.message) hstart
  have hsubject := hline .subject _ (toBase64_chars input.subject) hmessage
  have hmarker : templateMarker.head? = some '#' := by
    decide
  have hall := Lexes.comment hmarker (by decide) hsubject
  rw [headerComment_eq, List.intercalate_cons_cons, List.intercalate_cons_cons,
    List.intercalate_cons_cons, List.intercalate_cons_cons, List.intercalate_singleton]
  simp only [List.append_assoc, List.cons_append]
  exact hall

def requireTokens (input : AutoresponderInput) : List Token :=
  [.identifier "require".toList, .symbol '['] ++
    [Token.symbol ','].intercalate ((requires input).map fun name => [.string name]) ++
      [.symbol ']', .symbol ';']

/-- The tokens of the requirement, and then whatever follows. -/
theorem lexes_requireLine (input : AutoresponderInput) (hrest : Lexes rest tokens) :
    Lexes (requireLine input ++ ("\n".toList ++ rest)) (requireTokens input ++ tokens) := by
  have hlexes : lexFront 40 (requireLine input ++ "\n".toList) = some (requireTokens input) := by
    unfold requireLine requireTokens
    rcases requires_cases input with ⟨hrequires, -⟩ | ⟨hrequires, -⟩
    · rw [hrequires]
      decide
    · rw [hrequires]
      decide
  rw [← List.append_assoc]
  exact Lexes.front 40 hlexes hrest

def conditionTokens (comparison date : Text) : List Token :=
  [.identifier "currentdate".toList, .tag "zone".toList, .string "+0000".toList,
    .tag "value".toList, .string comparison, .string "date".toList, .string date]

/-- A date that was accepted holds nothing to escape. -/
theorem escape_isoDate {date : Text} (hdate : isoDatePattern date = true) : escape date = date := by
  have hletters : ∀ c ∈ "0123456789-".toList, ¬ (c = '\\' ∨ c = '"') := by
    rw [String.toList_ofList]
    exact List.all_iff_forall_prop.mp (by decide)
  have hchars := fun c hc => hletters c (isoDate_mem hdate c hc)
  rw [escape, List.flatMap_congr fun c hc => if_neg (hchars c hc)]
  exact List.flatMap_singleton' date

/-- The tokens of one test on the present date, with the comparison and the date as strings.
Both are plain, so that a quoted string says them as they are. -/
theorem lexes_condition {comparison date : Text}
    (hcomparison : comparison ∈ ["ge".toList, "le".toList])
    (hdate : isoDatePattern date = true) (hrest : Lexes rest tokens) :
    Lexes (condition comparison date ++ rest) (conditionTokens comparison date ++ tokens) := by
  have hfront : lexFront 60 ("currentdate :zone \"+0000\" :value \"".toList ++ comparison ++
      "\" \"date\" ".toList) =
        some [.identifier "currentdate".toList, .tag "zone".toList, .string "+0000".toList,
          .tag "value".toList, .string comparison, .string "date".toList] := by
    rw [List.mem_cons, List.mem_singleton] at hcomparison
    rcases hcomparison with rfl | rfl
    · decide
    · decide
  have hall := Lexes.front 60 hfront (Lexes.quoted date hrest)
  have hmiddle : "\" \"date\" \"".toList = "\" \"date\" ".toList ++ ['"'] := by
    decide
  have hquote : "\"".toList = ['"'] := by
    decide
  unfold condition
  rw [hmiddle, hquote]
  rw [escape_isoDate hdate] at hall
  simp only [List.append_assoc, List.singleton_append] at hall ⊢
  exact hall

theorem intercalate_pair {α : Type} (sep first second : List α) :
    sep.intercalate [first, second] = first ++ sep ++ second := by
  rw [List.intercalate_cons_cons, List.intercalate_singleton]

def conditionsTokens (input : AutoresponderInput) : List (List Token) :=
  (input.startDate.map (conditionTokens "ge".toList)).toList ++
    (input.endDate.map (conditionTokens "le".toList)).toList

def guardTokens (input : AutoresponderInput) : List Token :=
  match conditionsTokens input with
  | [] => []
  | [only] => .identifier "if".toList :: (only ++ [.symbol '\x7b'])
  | several => [.identifier "if".toList, .identifier "allof".toList, .symbol '('] ++
      ([Token.symbol ','].intercalate several ++ [.symbol ')', .symbol '\x7b'])

theorem lexes_only {comparison date : Text} (hcomparison : comparison ∈ ["ge".toList, "le".toList])
    (hdate : isoDatePattern date = true) (hrest : Lexes rest tokens) :
    Lexes ("if ".toList ++ condition comparison date ++ " \x7b\n  ".toList ++ rest)
      ([.identifier "if".toList] ++ conditionTokens comparison date ++ [.symbol '\x7b'] ++
        tokens) := by
  have hif : lexFront 5 "if ".toList = some [.identifier "if".toList] := by
    decide
  have hthen : lexFront 9 " \x7b\n  ".toList = some [.symbol '\x7b'] := by
    decide
  have hall := Lexes.front 5 hif (lexes_condition hcomparison hdate (Lexes.front 9 hthen hrest))
  simp only [← List.append_assoc] at hall
  exact hall

/-- The tokens of the guard, in the three forms that it can take: from a date on, up to a date,
or both joined by a test of all. -/
theorem lexes_guard {input : AutoresponderInput} (hdated : Dated input)
    (hrest : Lexes rest tokens) : Lexes (guard input ++ rest) (guardTokens input ++ tokens) := by
  have hallof : lexFront 15 "if allof(\n  ".toList =
      some [.identifier "if".toList, .identifier "allof".toList, .symbol '('] := by
    decide
  have hcomma : lexFront 9 ",\n  ".toList = some [.symbol ','] := by
    decide
  have hclose : lexFront 9 "\n) \x7b\n  ".toList = some [.symbol ')', .symbol '\x7b'] := by
    decide
  have hge : "ge".toList ∈ ["ge".toList, "le".toList] := List.mem_cons_self
  have hle : "le".toList ∈ ["ge".toList, "le".toList] := List.mem_cons_of_mem _ List.mem_cons_self
  obtain ⟨subject, message, startDate, endDate⟩ := input
  cases startDate with
  | none =>
      cases endDate with
      | none => exact hrest
      | some last => exact lexes_only hle (hdated.2 last rfl) hrest
  | some first =>
      cases endDate with
      | none => exact lexes_only hge (hdated.1 first rfl) hrest
      | some last =>
          have hlast := lexes_condition hle (hdated.2 last rfl) (Lexes.front 9 hclose hrest)
          have hfirst := lexes_condition hge (hdated.1 first rfl) (Lexes.front 9 hcomma hlast)
          have hall := Lexes.front 15 hallof hfirst
          have hguard : guard ⟨subject, message, some first, some last⟩ =
              "if allof(\n  ".toList ++ (condition "ge".toList first ++
                (",\n  ".toList ++ condition "le".toList last)) ++ "\n) \x7b\n  ".toList := by
            rw [← List.append_assoc (condition _ _), ← intercalate_pair ",\n  ".toList]
            rfl
          have htokens : guardTokens ⟨subject, message, some first, some last⟩ =
              [.identifier "if".toList, .identifier "allof".toList, .symbol '('] ++
                (conditionTokens "ge".toList first ++ ([.symbol ','] ++
                  conditionTokens "le".toList last) ++ [.symbol ')', .symbol '\x7b']) := by
            rw [← List.append_assoc (conditionTokens _ _), ← intercalate_pair [Token.symbol ',']]
            rfl
          rw [hguard, htokens]
          simp only [List.append_assoc] at hall ⊢
          exact hall

def actionTokens (input : AutoresponderInput) : List Token :=
  [.identifier "vacation".toList, .tag "days".toList, .number "7".toList, .tag "subject".toList,
    .string (singleLine input.subject), .string (sentText input.message), .symbol ';']

/-- The tokens of the action, with the subject and the message in them as they were given. -/
theorem lexes_actionText (input : AutoresponderInput) (hrest : Lexes rest tokens) :
    Lexes (actionText input rest) (actionTokens input ++ tokens) := by
  have haction : lexFront 40 action = some [.identifier "vacation".toList, .tag "days".toList,
      .number "7".toList, .tag "subject".toList] := by
    decide
  have hblank : lexFront 2 [' '] = some [] := by
    decide
  have hend : lexFront 2 [';'] = some [.symbol ';'] := by
    decide
  have hlines : ∀ line ∈ messageLines input.message, '\n' ∉ line :=
    fun line hline => (messageLines_chars hline).1
  have hmessage := Lexes.lines hlines (Lexes.front 2 hend hrest)
  have hsubject := Lexes.quoted (singleLine input.subject) (Lexes.front 2 hblank hmessage)
  have hall := Lexes.front 40 haction hsubject
  exact hall

def closingTokens (input : AutoresponderInput) : List Token :=
  match conditionsTokens input with
  | [] => []
  | _ => [.symbol '\x7d']

theorem lexes_closing (input : AutoresponderInput) :
    Lexes (closing input) (closingTokens input) := by
  have hbare : lexFront 3 "\n".toList = some [] := by
    decide
  have hblock : lexFront 5 "\n\x7d\n".toList = some [.symbol '\x7d'] := by
    decide
  have hnone := Lexes.front 3 hbare Lexes.nil
  have hsome := Lexes.front 5 hblock Lexes.nil
  obtain ⟨subject, message, startDate, endDate⟩ := input
  cases startDate with
  | none =>
      cases endDate with
      | none => exact hnone
      | some last => exact hsome
  | some first =>
      cases endDate with
      | none => exact hsome
      | some last => exact hsome

def scriptTokens (input : AutoresponderInput) : List Token :=
  requireTokens input ++ (guardTokens input ++ (actionTokens input ++ closingTokens input))

/-- The tokens of a whole script, for every accepted input. -/
theorem lexes_scriptText {input : AutoresponderInput} (hdated : Dated input) :
    Lexes (scriptText input) (scriptTokens input) := by
  rw [scriptText_eq]
  exact lexes_headerComment hdated (lexes_requireLine input
    (lexes_guard hdated (lexes_actionText input (lexes_closing input))))

end Lexes

/- The commands of a script -/

/-- The parser finds exactly the intended commands in them, and nothing is left over. -/
theorem parseCommands_scriptTokens (input : AutoresponderInput) :
    parseCommands ((scriptTokens input).length + 1) (scriptTokens input) =
      some (commands input (sentText input.message), []) := by
  obtain ⟨subject, message, startDate, endDate⟩ := input
  cases startDate with
  | none =>
      cases endDate with
      | none => rfl
      | some last => rfl
  | some first =>
      cases endDate with
      | none => rfl
      | some last => rfl

/-- A script without a NUL in its texts parses to the commands that it was meant to hold. -/
theorem parse_of_legal {input : AutoresponderInput} (hdated : Dated input)
    (hsubject : '\x00' ∉ input.subject) (hmessage : '\x00' ∉ input.message) :
    SieveGrammar.parse (scriptText input) =
      some (commands input (sentText input.message)) := by
  have hlex := (lexes_scriptText hdated).lex
  rw [SieveGrammar.parse, if_pos (legal_scriptText hdated hsubject hmessage), hlex]
  dsimp only
  rw [parseCommands_scriptTokens]

/-- A NUL that was entered is in the script, by the subject's literal or the message's. -/
theorem parse_of_nul {input : AutoresponderInput}
    (hnul : '\x00' ∈ input.subject ∨ '\x00' ∈ input.message) :
    SieveGrammar.parse (scriptText input) = none := by
  have hentered : '\x00' ∈ escape (singleLine input.subject) ∨
      '\x00' ∈ dotted (messageLines input.message) := by
    refine hnul.imp ?_ ?_
    · intro hsubject
      have hline : '\x00' ∈ singleLine input.subject :=
        mem_replaceBreaks hsubject (by decide) (by decide)
      exact List.mem_flatMap.mpr ⟨'\x00', hline, by decide⟩
    · intro hmessage
      have hbreaks : '\x00' ∈ replaceBreaks ['\n'] input.message :=
        mem_replaceBreaks hmessage (by decide) (by decide)
      obtain ⟨line, hline, hmem⟩ := mem_of_splitOn hbreaks (by decide : '\x00' ≠ '\n')
      have hstuffed : '\x00' ∈ stuff line := by
        rw [stuff]
        split
        · exact List.mem_cons_of_mem '.' hmem
        · exact hmem
      exact List.mem_append_left _
        (List.mem_flatMap.mpr ⟨line, hline, List.mem_append_left lineEnd hstuffed⟩)
  have hscript : '\x00' ∈ scriptText input := by
    rw [scriptText_eq, actionText]
    simp only [List.mem_append, List.mem_cons]
    tauto
  have hlegal := not_legal_of_nul hscript
  rw [SieveGrammar.parse, if_neg (hlegal ▸ Bool.false_ne_true)]

/-- The comments say what was entered, and without a NUL the commands do: the extensions, the
dates, and one vacation action with the subject on one line and the lines of the message. With
one, there is no reading at all. -/
theorem script_means (input : AutoresponderInput) (script : Text)
    (hscript : generateAutoresponderSieve input = .ok script) :
    parseAutoresponderSieve script =
        some ⟨input.subject, input.message, input.startDate, input.endDate⟩ ∧
      ('\x00' ∉ input.subject → '\x00' ∉ input.message →
        SieveGrammar.parse script = some (commands input (sentText input.message))) ∧
      ('\x00' ∈ input.subject ∨ '\x00' ∈ input.message → SieveGrammar.parse script = none) := by
  obtain ⟨hdated, rfl⟩ := generate_ok_iff.mp hscript
  exact ⟨parse_scriptText hdated, parse_of_legal hdated, parse_of_nul⟩

/-- A holiday, with all that the grammar has to quote. -/
def holiday : AutoresponderInput where
  subject := "\"Away\"\nuntil \\ May".toList
  message := ".hidden\r\n\"quoted\" \x7b\x7d\r\r\n. \\ last".toList
  startDate := some "2026-04-01".toList
  endDate := some "2026-04-30".toList

/-- A holiday notice with dates, quotation marks, a line that starts with a dot and a line break
in the subject. -/
theorem script_means_holiday :
    parseAutoresponderSieve (scriptText holiday) =
        some ⟨holiday.subject, holiday.message, holiday.startDate, holiday.endDate⟩ ∧
      SieveGrammar.parse (scriptText holiday) =
        some (commands holiday
          ".hidden\r\n\"quoted\" \x7b\x7d\r\n\r\n. \\ last\r\n".toList) := by
  have htext : sentText holiday.message =
      ".hidden\r\n\"quoted\" \x7b\x7d\r\n\r\n. \\ last\r\n".toList := by
    decide
  have hdated : Dated holiday := by
    refine ⟨fun date hdate => ?_, fun date hdate => ?_⟩
    · rw [← Option.some.inj hdate]
      decide
    · rw [← Option.some.inj hdate]
      decide
  obtain ⟨hparsed, hmeant, -⟩ :=
    script_means holiday (scriptText holiday) (generate_ok_iff.mpr ⟨hdated, rfl⟩)
  rw [← htext]
  exact ⟨hparsed, hmeant (by decide) (by decide)⟩

/-- Without dates, the commands tell what text is sent, so that two different messages cannot
look the same. -/
theorem commands_inj {input : AutoresponderInput} (hdates : dateTests input = [])
    {text other : Text} (hcommands : commands input text = commands input other) :
    text = other := by
  rw [commands, commands, answering, answering, hdates] at hcommands
  injection hcommands with _ htail
  injection htail with hvacation
  simpa [vacation] using hvacation

/-- The last line of the message is ended too, whatever the lines are joined with, as this is
the form of the literal; and a NUL is in no script. -/
theorem not_script_means_entered :
    (¬ ∀ input script, generateAutoresponderSieve input = .ok script →
      '\x00' ∉ input.subject → '\x00' ∉ input.message →
        ∃ ending : Text, SieveGrammar.parse script =
          some (commands input (ending.intercalate (messageLines input.message)))) ∧
      ∃ input script, generateAutoresponderSieve input = .ok script ∧
        SieveGrammar.parse script = none := by
  have hdated : ∀ subject message : Text, Dated ⟨subject, message, none, none⟩ :=
    fun _ _ => ⟨nofun, nofun⟩
  constructor
  · intro hall
    obtain ⟨ending, hending⟩ := hall ⟨"Away".toList, "Hello".toList, none, none⟩ _
      (generate_ok_iff.mpr ⟨hdated _ _, rfl⟩) (by decide) (by decide)
    have hparse := parse_of_legal (hdated "Away".toList "Hello".toList) (by decide) (by decide)
    have hlines : messageLines "Hello".toList = ["Hello".toList] := by
      decide
    have hne : sentText "Hello".toList ≠ "Hello".toList := by
      decide
    rw [hparse, hlines, List.intercalate_singleton] at hending
    exact hne (commands_inj rfl (Option.some.inj hending))
  · exact ⟨⟨['\x00'], [], none, none⟩, _, generate_ok_iff.mpr ⟨hdated _ _, rfl⟩,
      parse_of_nul (Or.inl (by decide))⟩

end Autoresponder

end MailPanel

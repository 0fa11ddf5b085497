import MailPanel.AutoresponderGrammar
import MailPanel.SieveValidator
import MailPanel.Utf16Text

/-
The script of an autoresponder before the check that every script passes: how long it is, and
which names the search finds in it.
-/

namespace MailPanel

namespace Autoresponder

open SieveGrammar SieveValidator ScriptText

/-- An update of a mailbox's automatic reply, once its schema has passed: subject and message
are texts of UTF-16 units, and the dates are still the texts of the form. -/
structure UpdateAutoresponderRequest where
  enabled : Bool
  subject : Utf16
  message : Utf16
  startDate : Option Text
  endDate : Option Text
deriving DecidableEq, Repr

/-- `UpdateAutoresponderRequestSchema`: lengths are counted in units. -/
def Accepts (request : UpdateAutoresponderRequest) : Prop :=
  (1 ≤ request.subject.length ∧ request.subject.length ≤ 255) ∧
    (1 ≤ request.message.length ∧ request.message.length ≤ 10000) ∧
      (∀ date ∈ request.startDate, isoDatePattern date = true) ∧
        ∀ date ∈ request.endDate, isoDatePattern date = true

/-- What is entered; a lone surrogate is written, counted and searched as its replacement. -/
def UpdateAutoresponderRequest.input (request : UpdateAutoresponderRequest) : AutoresponderInput :=
  ⟨decodeUtf16 request.subject, decodeUtf16 request.message, request.startDate, request.endDate⟩

theorem dated_of_accepts {request : UpdateAutoresponderRequest} (haccepts : Accepts request) :
    Dated request.input := haccepts.2.2

/- A search for text without separators -/

section Infix

variable {α : Type} {token front rest : List α} {sep : α}

theorem infix_append_cons_iff (hsep : sep ∉ token) :
    token <:+: front ++ sep :: rest ↔ token <:+: front ∨ token <:+: rest := by
  constructor
  · rintro ⟨before, after, heq⟩
    rcases List.append_eq_append_iff.mp heq with ⟨left, rfl, -⟩ | ⟨left, hleft, hright⟩
    · exact Or.inl ⟨before, left, rfl⟩
    · cases left with
      | nil =>
          rw [List.append_nil] at hleft
          exact Or.inl ⟨before, [], by rw [List.append_nil, hleft]⟩
      | cons first left =>
          obtain ⟨rfl, rfl⟩ := List.cons.inj hright
          rcases List.append_eq_append_iff.mp hleft with ⟨inner, -, htoken⟩ | ⟨inner, -, hinner⟩
          · rw [htoken] at hsep
            exact absurd (List.mem_append_right inner List.mem_cons_self) hsep
          · cases inner with
            | nil =>
                rw [List.nil_append] at hinner
                rw [← hinner] at hsep
                exact absurd List.mem_cons_self hsep
            | cons second inner =>
                rw [(List.cons.inj hinner).2]
                exact Or.inr ⟨inner, after, rfl⟩
  · rintro (⟨before, after, rfl⟩ | ⟨before, after, rfl⟩)
    · exact ⟨before, after ++ sep :: rest, (List.append_assoc _ _ _).symm⟩
    · refine ⟨front ++ sep :: before, after, ?_⟩
      rw [List.append_assoc, List.append_assoc, List.append_assoc, List.cons_append]

end Infix

/-- A name that the search finds. -/
def Mentions (token : String) (text : Text) : Prop := token.toList <:+: toLowerCase text

instance (token : String) (text : Text) : Decidable (Mentions token text) :=
  inferInstanceAs (Decidable (_ <:+: _))

theorem toLowerCase_append (front rest : Text) :
    toLowerCase (front ++ rest) = toLowerCase front ++ toLowerCase rest := List.flatMap_append

/-- A character that is in no name, and stays as it is. -/
def separators : List Char := ['\\', '"', '\r', '\n', ' ', ';']

section Mentions

variable {token : String} {front rest value : Text} {sep : Char}

theorem token_chars (htoken : token ∈ forbiddenExtensionTokens) :
    (∀ sep ∈ separators, sep ∉ token.toList) ∧ token.toList.head? ≠ some '.' ∧
      ('.' ∈ token.toList ∨ '_' ∈ token.toList) ∧ token.toList ≠ [] ∧ token.toList ≠ ['.'] := by
  rw [forbiddenExtensionTokens, List.mem_cons, List.mem_singleton] at htoken
  rcases htoken with rfl | rfl
  · exact ⟨List.all_iff_forall_prop.mp (by decide), by decide, Or.inl (by decide), by decide,
      by decide⟩
  · exact ⟨List.all_iff_forall_prop.mp (by decide), by decide, Or.inr (by decide), by decide,
      by decide⟩

theorem mentions_sep (htoken : token ∈ forbiddenExtensionTokens) (hsep : sep ∈ separators) :
    Mentions token (front ++ sep :: rest) ↔ Mentions token front ∨ Mentions token rest := by
  have hlower : ∀ sep ∈ separators, lowerChar sep = [sep] :=
    List.all_iff_forall_prop.mp (by decide)
  have hsplit : toLowerCase (front ++ sep :: rest) =
      toLowerCase front ++ sep :: toLowerCase rest := by
    rw [toLowerCase_append]
    refine congrArg (toLowerCase front ++ ·) ?_
    rw [toLowerCase, List.flatMap_cons, hlower sep hsep]
    rfl
  rw [Mentions, hsplit]
  exact infix_append_cons_iff ((token_chars htoken).1 sep hsep)

theorem not_mentions_nil (htoken : token ∈ forbiddenExtensionTokens) : ¬ Mentions token [] := by
  intro hmentions
  exact (token_chars htoken).2.2.2.1 (List.infix_nil.mp hmentions)

theorem mentions_cons_sep (htoken : token ∈ forbiddenExtensionTokens) (hsep : sep ∈ separators) :
    Mentions token (sep :: rest) ↔ Mentions token rest := by
  have hsplit := @mentions_sep token [] rest sep htoken hsep
  rw [or_iff_right (not_mentions_nil htoken)] at hsplit
  exact hsplit

theorem toLower_mark {c : Char} (hmark : c.toLower = '.' ∨ c.toLower = '_') : c = c.toLower := by
  by_cases hupper : c.val ≥ 'A'.val ∧ c.val ≤ 'Z'.val
  · have hlower : c.toLower.val = c.val + ('a'.val - 'A'.val) :=
      congrArg Char.val (dif_pos hupper)
    have hval : c.val + ('a'.val - 'A'.val) = '.'.val ∨
        c.val + ('a'.val - 'A'.val) = '_'.val := by
      rw [← hlower]
      exact hmark.imp (congrArg Char.val) (congrArg Char.val)
    have hnone : ∀ value : UInt32, 65 ≤ value.toNat → value.toNat ≤ 90 →
        ¬ (value + 32 = 46 ∨ value + 32 = 95) := by
      intro value hleast hmost heq
      have hnat : (value + 32).toNat = 46 ∨ (value + 32).toNat = 95 :=
        heq.imp (congrArg UInt32.toNat) (congrArg UInt32.toNat)
      rw [UInt32.toNat_add] at hnat
      have hthirty : (32 : UInt32).toNat = 32 := rfl
      omega
    exact absurd hval (hnone c.val hupper.1 hupper.2)
  · have hkept : c.toLower = c := dif_neg hupper
    exact hkept.symm

/-- A dot or an underscore comes from no other character. -/
theorem mem_lowerChar {c d : Char} (hd : d ∈ lowerChar c) (hmark : d = '.' ∨ d = '_') : c = d := by
  rw [lowerChar] at hd
  by_cases hdotted : c = '\u0130'
  · rw [if_pos hdotted] at hd
    revert hd
    rcases hmark with rfl | rfl
    · exact fun hd => absurd hd (by decide)
    · exact fun hd => absurd hd (by decide)
  · rw [if_neg hdotted] at hd
    by_cases hkelvin : c = '\u212a'
    · rw [if_pos hkelvin] at hd
      rcases hmark with rfl | rfl
      · exact absurd hd (by decide)
      · exact absurd hd (by decide)
    · rw [if_neg hkelvin, List.mem_singleton] at hd
      rw [hd] at hmark ⊢
      exact toLower_mark hmark

theorem not_mentions_plain (htoken : token ∈ forbiddenExtensionTokens) (hplain : Plain value) :
    ¬ Mentions token value := by
  intro hmentions
  have hmark : ∃ d, (d = '.' ∨ d = '_') ∧ d ∈ token.toList := by
    rcases (token_chars htoken).2.2.1 with hdot | hscore
    · exact ⟨'.', Or.inl rfl, hdot⟩
    · exact ⟨'_', Or.inr rfl, hscore⟩
  obtain ⟨d, hd, hmem⟩ := hmark
  obtain ⟨c, hc, hlower⟩ := List.mem_flatMap.mp (hmentions.subset hmem)
  have heq := mem_lowerChar hlower hd
  subst heq
  have hchar := hplain c hc
  rcases hd with rfl | rfl
  · exact absurd hchar (by decide)
  · exact absurd hchar (by decide)

/-- The escapes of a quoted string hide no name and make none: an escape only puts a backslash
in, and no name of an extension has one. -/
theorem mentions_escape (htoken : token ∈ forbiddenExtensionTokens) :
    Mentions token (front ++ escape value) ↔ Mentions token (front ++ value) := by
  induction value generalizing front with
  | nil => rfl
  | cons c value ih =>
      rw [escape, List.flatMap_cons, ← escape]
      by_cases hescape : c = '\\' ∨ c = '"'
      · have hsep : c ∈ separators := by
          rcases hescape with rfl | rfl
          · decide
          · decide
        have hbackslash : '\\' ∈ separators := List.mem_cons_self
        have hrest : Mentions token (escape value) ↔ Mentions token value := @ih []
        rw [if_pos hescape, List.cons_append, mentions_sep htoken hbackslash,
          mentions_sep htoken hsep, List.singleton_append, mentions_cons_sep htoken hsep, hrest]
      · rw [if_neg hescape]
        have hnext := @ih (front ++ [c])
        rw [List.append_assoc, List.append_assoc] at hnext
        exact hnext

theorem mentions_replaceBreaks (htoken : token ∈ forbiddenExtensionTokens)
    (hsep : sep ∈ separators) :
    Mentions token (front ++ replaceBreaks [sep] value) ↔ Mentions token (front ++ value) := by
  have hreturn : '\r' ∈ separators := by
    decide
  have hbreak : '\n' ∈ separators := by
    decide
  induction value using replaceBreaks.induct generalizing front with
  | case1 rest ih =>
      have hrest : Mentions token (replaceBreaks [sep] rest) ↔ Mentions token rest :=
        @ih []
      rw [replaceBreaks, List.singleton_append, mentions_sep htoken hsep,
        mentions_sep htoken hreturn, mentions_cons_sep htoken hbreak, hrest]
  | case2 rest _ ih =>
      have hrest : Mentions token (replaceBreaks [sep] rest) ↔ Mentions token rest :=
        @ih []
      rw [replaceBreaks]
      · rw [List.singleton_append, mentions_sep htoken hsep, mentions_sep htoken hreturn, hrest]
      · assumption
  | case3 rest ih =>
      have hrest : Mentions token (replaceBreaks [sep] rest) ↔ Mentions token rest :=
        @ih []
      rw [replaceBreaks, List.singleton_append, mentions_sep htoken hsep,
        mentions_sep htoken hbreak, hrest]
  | case4 c rest _ _ _ ih =>
      have hnext := @ih (front ++ [c])
      rw [List.append_assoc, List.append_assoc] at hnext
      rw [replaceBreaks]
      · exact hnext
      · assumption
      · assumption
      · assumption
  | case5 => rfl

theorem mentions_stuff (htoken : token ∈ forbiddenExtensionTokens) (line : Text) :
    Mentions token (stuff line) ↔ Mentions token line := by
  cases line with
  | nil => rfl
  | cons c line =>
      by_cases hdot : c = '.'
      · subst hdot
        have hlower : toLowerCase ('.' :: '.' :: line) = '.' :: toLowerCase ('.' :: line) := by
          rw [toLowerCase, List.flatMap_cons]
          rfl
        rw [stuff_dot, Mentions, hlower, List.infix_cons_iff, or_iff_right]
        · rfl
        · rintro ⟨after, hafter⟩
          obtain ⟨-, hhead, -, hne, -⟩ := token_chars htoken
          refine hhead ?_
          have hfirst : (token.toList ++ after).head? = token.toList.head? :=
            List.head?_append_of_ne_nil _ hne
          rw [← hfirst, hafter]
          rfl
      · rw [stuff_cons_of_ne hdot]

theorem not_exists_mem_nil {P : Text → Prop} : ¬ ∃ line ∈ ([] : List Text), P line := by
  rintro ⟨line, hmem, -⟩
  exact List.not_mem_nil hmem

theorem mentions_dotted (htoken : token ∈ forbiddenExtensionTokens) (lines : List Text) :
    Mentions token (dotted lines ++ ';' :: rest) ↔
      (∃ line ∈ lines, Mentions token line) ∨ Mentions token rest := by
  have hreturn : '\r' ∈ separators := by
    decide
  have hbreak : '\n' ∈ separators := by
    decide
  have hsemicolon : ';' ∈ separators := by
    decide
  have hline : ∀ line after, Mentions token (line ++ (lineEnd ++ after)) ↔
      Mentions token line ∨ Mentions token after := by
    intro line after
    rw [lineEnd, List.cons_append, List.singleton_append, mentions_sep htoken hreturn,
      mentions_cons_sep htoken hbreak]
  induction lines with
  | nil =>
      have hdot : ¬ Mentions token ['.'] := by
        rw [forbiddenExtensionTokens, List.mem_cons, List.mem_singleton] at htoken
        rcases htoken with rfl | rfl
        · decide
        · decide
      have hall := hline ['.'] (';' :: rest)
      rw [mentions_cons_sep htoken hsemicolon, or_iff_right hdot] at hall
      rw [or_iff_right not_exists_mem_nil]
      exact hall
  | cons line lines ih =>
      have hfirst : dotted (line :: lines) ++ ';' :: rest =
          stuff line ++ (lineEnd ++ (dotted lines ++ ';' :: rest)) := by
        rw [dotted, List.flatMap_cons, dotted]
        simp only [List.append_assoc]
      have hlater := @or_congr_right _ _ (Mentions token line) ih
      rw [hfirst, hline, mentions_stuff htoken, hlater, ← or_assoc]
      refine or_congr_left ?_
      simp only [List.mem_cons, exists_eq_or_imp]

theorem mentions_lines (htoken : token ∈ forbiddenExtensionTokens) (message : Text) :
    (∃ line ∈ messageLines message, Mentions token line) ↔ Mentions token message := by
  have hbreak : '\n' ∈ separators := by
    decide
  have hjoin : ∀ lines : List Text, Mentions token (['\n'].intercalate lines) ↔
      ∃ line ∈ lines, Mentions token line := by
    intro lines
    induction lines with
    | nil =>
        exact iff_of_false (not_mentions_nil htoken) not_exists_mem_nil
    | cons line lines ih =>
        cases lines with
        | nil =>
            rw [List.intercalate_singleton]
            simp only [List.mem_singleton, exists_eq_left]
        | cons next lines =>
            rw [List.intercalate_cons_cons, List.append_assoc, List.singleton_append,
              mentions_sep htoken hbreak, ih]
            simp only [List.mem_cons, exists_eq_or_imp]
  have hlines : ['\n'].intercalate (messageLines message) = replaceBreaks ['\n'] message :=
    List.intercalate_splitOn '\n'
  rw [← hjoin, hlines]
  exact @mentions_replaceBreaks token [] message '\n' htoken hbreak

/-- The frame of a script holds no name, so a script is refused for what subject and message say
and for nothing else. -/
theorem mentions_scriptText (htoken : token ∈ forbiddenExtensionTokens)
    {input : AutoresponderInput} (hdated : Dated input) : Mentions token (scriptText input) ↔
      Mentions token input.subject ∨ Mentions token input.message := by
  have hreturn : '\r' ∈ separators := by
    decide
  have hbreak : '\n' ∈ separators := by
    decide
  have hquote : '"' ∈ separators := by
    decide
  have hspace : ' ' ∈ separators := by
    decide
  have hempty := not_mentions_nil htoken
  have hfront : ¬ Mentions token (headerComment input ++ ("\n".toList ++ (requireLine input ++
      ("\n".toList ++ (guard input ++ action))))) := by
    have hline : Plain "\n".toList := plain_literal (by decide)
    exact not_mentions_plain htoken ((plain_headerComment hdated).append (hline.append
      ((plain_requireLine input).append (hline.append ((plain_guard hdated).append plain_action)))))
  have hmiddle : ¬ Mentions token (' ' :: "text:".toList) := by
    have htext : Plain "text:".toList := plain_literal (by decide)
    exact not_mentions_plain htoken (List.forall_mem_cons.mpr ⟨by decide, htext⟩)
  have hclosing : ¬ Mentions token (closing input) :=
    not_mentions_plain htoken (plain_closing input)
  have hscript : scriptText input = headerComment input ++ ("\n".toList ++ (requireLine input ++
      ("\n".toList ++ (guard input ++ action)))) ++ '"' :: (escape (singleLine input.subject) ++
        '"' :: ((' ' :: "text:".toList) ++ '\r' :: ([] ++ '\n' ::
          (dotted (messageLines input.message) ++ ';' :: closing input)))) := by
    rw [scriptText_eq, actionText, lineEnd]
    simp only [List.append_assoc, List.cons_append, List.nil_append]
  have hsubject : Mentions token (escape (singleLine input.subject)) ↔
      Mentions token input.subject :=
    (@mentions_escape token [] (singleLine input.subject) htoken).trans
      (@mentions_replaceBreaks token [] input.subject ' ' htoken hspace)
  rw [hscript, mentions_sep htoken hquote, mentions_sep htoken hquote, mentions_sep htoken hreturn,
    mentions_sep htoken hbreak, mentions_dotted htoken, mentions_lines htoken, hsubject,
    or_iff_right hfront, or_iff_right hmiddle, or_iff_right hempty, or_iff_left hclosing]

end Mentions

/- Bytes -/

/-- A text in base64. -/
def base64Bytes (value : Text) : Nat := (byteLength value + 2) / 3 * 4

/-- A text on one line, with a backslash before each character that needs one. -/
def quotedBytes (value : Text) : Nat :=
  byteLength (singleLine value) + (singleLine value).countP fun c => c = '\\' ∨ c = '"'

/-- Lines with their ends, and with one more dot where one stands in front. -/
def linesBytes (message : Text) : Nat :=
  ((messageLines message).map fun line =>
    byteLength line + 2 + if line.head? = some '.' then 1 else 0).sum

/-- What is the same in every script with as many dates. -/
def frameBytes (input : AutoresponderInput) : Nat :=
  match input.startDate, input.endDate with
  | none, none => 137
  | some _, some _ => 310
  | _, _ => 232

def scriptBytes (input : AutoresponderInput) : Nat :=
  frameBytes input + base64Bytes input.subject + base64Bytes input.message +
    quotedBytes input.subject + linesBytes input.message

theorem byteLength_append (front rest : Text) :
    byteLength (front ++ rest) = byteLength front + byteLength rest := by
  rw [byteLength, List.map_append, List.sum_append]
  rfl

theorem byteLength_cons (c : Char) (rest : Text) :
    byteLength (c :: rest) = c.utf8Size + byteLength rest := by
  rw [byteLength, List.map_cons, List.sum_cons]
  rfl

theorem byteLength_eq_length {value : Text} (hvalue : ∀ c ∈ value, c.utf8Size = 1) :
    byteLength value = value.length := by
  induction value with
  | nil => rfl
  | cons c value ih =>
      rw [List.forall_mem_cons] at hvalue
      rw [byteLength_cons, hvalue.1, ih hvalue.2, List.length_cons, Nat.add_comm]

theorem length_encodeUtf8 (value : Text) : (encodeUtf8 value).length = byteLength value := by
  induction value with
  | nil => rfl
  | cons c value ih =>
      rw [encodeUtf8, List.flatMap_cons, List.length_append, String.length_utf8EncodeChar,
        ← encodeUtf8, ih, byteLength_cons]

theorem byteLength_toBase64 (value : Text) : byteLength (toBase64 value) = base64Bytes value := by
  have hletters : ∀ c ∈ Base64Url.alphabet.map Base64Url.usualLetter ++ ['='], c.utf8Size = 1 := by
    rw [Base64Url.alphabet_eq]
    exact List.all_iff_forall_prop.mp (by decide)
  have hall : ∀ c ∈ toBase64 value, c.utf8Size = 1 :=
    fun c hc => hletters c (Base64Url.mem_encodePadded hc)
  rw [byteLength_eq_length hall, toBase64, Base64Url.length_encodePadded, length_encodeUtf8,
    base64Bytes]

theorem byteLength_escape (value : Text) : byteLength (escape value) =
    byteLength value + value.countP fun c => c = '\\' ∨ c = '"' := by
  induction value with
  | nil => rfl
  | cons c value ih =>
      have hbackslash : '\\'.utf8Size = 1 := by
        decide
      rw [escape, List.flatMap_cons, byteLength_append, ← escape, ih, byteLength_cons,
        List.countP_cons]
      by_cases hescape : c = '\\' ∨ c = '"'
      · rw [if_pos hescape, if_pos (decide_eq_true hescape), byteLength_cons, byteLength_cons,
          hbackslash]
        have hnil : byteLength [] = 0 := rfl
        omega
      · rw [if_neg hescape, if_neg (decide_eq_true_iff.not.mpr hescape), byteLength_cons]
        have hnil : byteLength [] = 0 := rfl
        omega

theorem byteLength_dotted (lines : List Text) : byteLength (dotted lines) = 3 +
    (lines.map fun line =>
      byteLength line + 2 + if line.head? = some '.' then 1 else 0).sum := by
  have hend : byteLength lineEnd = 2 := by
    decide
  have hdot : '.'.utf8Size = 1 := by
    decide
  have hstuff : ∀ line, byteLength (stuff line) =
      byteLength line + if line.head? = some '.' then 1 else 0 := by
    intro line
    rw [stuff]
    by_cases hhead : line.head? = some '.'
    · rw [if_pos hhead, if_pos hhead, byteLength_cons, hdot, Nat.add_comm]
    · rw [if_neg hhead, if_neg hhead]
      rfl
  induction lines with
  | nil => decide
  | cons line lines ih =>
      rw [dotted] at ih ⊢
      rw [List.flatMap_cons, List.append_assoc, byteLength_append, byteLength_append, hend, ih,
        hstuff, List.map_cons, List.sum_cons]
      omega

theorem byteLength_isoDate {date : Text} (hdate : isoDatePattern date = true) :
    byteLength date = 10 := by
  have hletters : ∀ c ∈ "0123456789-".toList, c.utf8Size = 1 := by
    rw [String.toList_ofList]
    exact List.all_iff_forall_prop.mp (by decide)
  rw [byteLength_eq_length fun c hc => hletters c (isoDate_mem hdate c hc)]
  obtain ⟨a, b, c, d, e, f, g, h, rfl, -⟩ := isoDatePattern_iff.mp hdate
  rfl

theorem byteLength_literal (text : Text) :
    byteLength (String.ofList text).toList = byteLength text := by
  rw [String.toList_ofList]

theorem byteLength_headerComment {input : AutoresponderInput} :
    byteLength (headerComment input) = base64Bytes input.subject + base64Bytes input.message +
      byteLength (dateText input.startDate) + byteLength (dateText input.endDate) + 65 := by
  have hmarker : byteLength templateMarker = 23 := (byteLength_literal _).trans (by decide)
  have hbreak : byteLength ['\n'] = 1 := by
    decide
  have hline : ∀ field value, byteLength (headerLine field value) =
      byteLength field.front + byteLength value := fun field value => byteLength_append _ _
  have hsubject : byteLength HeaderField.subject.front = 11 := by
    decide
  have hmessage : byteLength HeaderField.message.front = 11 := by
    decide
  have hstart : byteLength HeaderField.start.front = 9 := by
    decide
  have hending : byteLength HeaderField.ending.front = 7 := by
    decide
  rw [headerComment_eq, List.intercalate_cons_cons, List.intercalate_cons_cons,
    List.intercalate_cons_cons, List.intercalate_cons_cons, List.intercalate_singleton]
  simp only [byteLength_append, hmarker, hbreak, hline, hsubject, hmessage, hstart, hending,
    byteLength_toBase64]
  omega

theorem byteLength_condition {comparison date : Text} (hcomparison : byteLength comparison = 2)
    (hdate : isoDatePattern date = true) : byteLength (condition comparison date) = 57 := by
  have hfront : byteLength "currentdate :zone \"+0000\" :value \"".toList = 34 :=
    (byteLength_literal _).trans (by decide)
  have hmiddle : byteLength "\" \"date\" \"".toList = 10 := (byteLength_literal _).trans (by decide)
  have hquote : byteLength "\"".toList = 1 := (byteLength_literal _).trans (by decide)
  unfold condition
  simp only [byteLength_append, hfront, hcomparison, hmiddle, hquote, byteLength_isoDate hdate]

theorem byteLength_requireLine (input : AutoresponderInput) : byteLength (requireLine input) =
    if conditions input = [] then 21 else 43 := by
  have hshort : byteLength ("require [".toList ++
      ", ".toList.intercalate (["vacation".toList].map quote) ++ "];".toList) = 21 := by
    decide
  have hlong : byteLength ("require [".toList ++
      ", ".toList.intercalate (["vacation".toList, "date".toList, "relational".toList].map quote) ++
        "];".toList) = 43 := by
    decide
  unfold requireLine
  rcases requires_cases input with ⟨hrequires, hnone⟩ | ⟨hrequires, hsome⟩
  · rw [hrequires, hshort, if_pos hnone]
  · rw [hrequires, hlong, if_neg hsome]

theorem byteLength_actionText (input : AutoresponderInput) (rest : Text) :
    byteLength (actionText input rest) =
      quotedBytes input.subject + linesBytes input.message + byteLength rest + 40 := by
  have haction : byteLength action = 26 := by
    decide
  have hquote : '"'.utf8Size = 1 := by
    decide
  have hspace : ' '.utf8Size = 1 := by
    decide
  have hsemicolon : ';'.utf8Size = 1 := by
    decide
  have htext : byteLength "text:".toList = 5 := (byteLength_literal _).trans (by decide)
  have hend : byteLength lineEnd = 2 := by
    decide
  rw [actionText]
  simp only [byteLength_append, byteLength_cons, haction, hquote, hspace, hsemicolon, htext, hend,
    byteLength_escape, byteLength_dotted, quotedBytes, linesBytes]
  omega

theorem byteLength_only {comparison date : Text} (hcomparison : byteLength comparison = 2)
    (hdate : isoDatePattern date = true) :
    byteLength ("if ".toList ++ condition comparison date ++ " \x7b\n  ".toList) = 65 := by
  have hif : byteLength "if ".toList = 3 := (byteLength_literal _).trans (by decide)
  have hthen : byteLength " \x7b\n  ".toList = 5 := (byteLength_literal _).trans (by decide)
  rw [byteLength_append, byteLength_append, hif, byteLength_condition hcomparison hdate, hthen]

theorem byteLength_both {first last : Text} (hfirst : isoDatePattern first = true)
    (hlast : isoDatePattern last = true) :
    byteLength ("if allof(\n  ".toList ++
      ",\n  ".toList.intercalate [condition "ge".toList first, condition "le".toList last] ++
        "\n) \x7b\n  ".toList) = 137 := by
  have hallof : byteLength "if allof(\n  ".toList = 12 := (byteLength_literal _).trans (by decide)
  have hcomma : byteLength ",\n  ".toList = 4 := (byteLength_literal _).trans (by decide)
  have hclose : byteLength "\n) \x7b\n  ".toList = 7 := (byteLength_literal _).trans (by decide)
  have hge : byteLength (condition "ge".toList first) = 57 :=
    byteLength_condition (by decide) hfirst
  have hle : byteLength (condition "le".toList last) = 57 := byteLength_condition (by decide) hlast
  rw [intercalate_pair]
  simp only [byteLength_append, hallof, hge, hcomma, hle, hclose]

theorem byteLength_frame {input : AutoresponderInput} (hdated : Dated input) :
    byteLength (dateText input.startDate) + byteLength (dateText input.endDate) +
      byteLength (requireLine input) + byteLength (guard input) + byteLength (closing input) + 107 =
        frameBytes input := by
  have hnone : byteLength "none".toList = 4 := (byteLength_literal _).trans (by decide)
  have hbreak : byteLength "\n".toList = 1 := (byteLength_literal _).trans (by decide)
  have hblock : byteLength "\n\x7d\n".toList = 3 := (byteLength_literal _).trans (by decide)
  have hge : byteLength "ge".toList = 2 := by
    decide
  have hle : byteLength "le".toList = 2 := by
    decide
  rw [byteLength_requireLine]
  obtain ⟨subject, message, startDate, endDate⟩ := input
  cases startDate with
  | none =>
      cases endDate with
      | none =>
          have hconditions : conditions ⟨subject, message, none, none⟩ = [] := rfl
          unfold guard closing
          rw [hconditions]
          simp only [dateText, Option.getD_none, hnone, hbreak, if_true, frameBytes]
          rfl
      | some last =>
          have hlast := hdated.2 last rfl
          have hconditions : conditions ⟨subject, message, none, some last⟩ =
              [condition "le".toList last] := rfl
          unfold guard closing
          rw [hconditions, if_neg (List.cons_ne_nil _ _)]
          simp only [dateText, Option.getD_none, Option.getD_some, hnone, byteLength_isoDate hlast,
            byteLength_only hle hlast, hblock, frameBytes]
  | some first =>
      have hfirst := hdated.1 first rfl
      cases endDate with
      | none =>
          have hconditions : conditions ⟨subject, message, some first, none⟩ =
              [condition "ge".toList first] := rfl
          unfold guard closing
          rw [hconditions, if_neg (List.cons_ne_nil _ _)]
          simp only [dateText, Option.getD_none, Option.getD_some, hnone, byteLength_isoDate hfirst,
            byteLength_only hge hfirst, hblock, frameBytes]
      | some last =>
          have hlast := hdated.2 last rfl
          have hconditions : conditions ⟨subject, message, some first, some last⟩ =
              [condition "ge".toList first, condition "le".toList last] := rfl
          unfold guard closing
          rw [hconditions, if_neg (List.cons_ne_nil _ _)]
          simp only [dateText, Option.getD_some, byteLength_isoDate hfirst,
            byteLength_isoDate hlast, byteLength_both hfirst hlast, hblock, frameBytes]

/-- How long a script is. -/
theorem byteLength_scriptText {input : AutoresponderInput} (hdated : Dated input) :
    byteLength (scriptText input) = scriptBytes input := by
  have hbreak : byteLength "\n".toList = 1 := (byteLength_literal _).trans (by decide)
  have hframe := byteLength_frame hdated
  rw [scriptText_eq, scriptBytes]
  simp only [byteLength_append, byteLength_headerComment, byteLength_actionText, hbreak]
  omega

/-- Exactly the requests whose script is not too long, and whose texts hold no forbidden name,
can be saved. The check searches the whole script, the message included, for the names of
extensions that scripts must not use. -/
theorem accepted_saved_iff (request : UpdateAutoresponderRequest) (haccepts : Accepts request) :
    ∃ script, generateAutoresponderSieve request.input = .ok script ∧
      ((validateSieveScriptContent script).ok = true ↔
        scriptBytes request.input ≤ sieveScriptMaxBytes ∧
          ∀ token ∈ forbiddenExtensionTokens,
            ¬ Mentions token request.input.subject ∧ ¬ Mentions token request.input.message) := by
  have hdated := dated_of_accepts haccepts
  refine ⟨_, generate_ok_iff.mpr ⟨hdated, rfl⟩, ?_⟩
  have htrim : trim (scriptText request.input) ≠ [] := by
    intro hblank
    have hmem : ';' ∈ scriptText request.input := by
      rw [scriptText_eq, actionText]
      simp only [List.mem_append, List.mem_cons, true_or, or_true]
    exact absurd (trim_eq_nil_iff.mp hblank ';' hmem) (by decide)
  rw [validate_ok_iff, Refused, byteLength_scriptText hdated, not_or, not_or, Nat.not_lt,
    and_iff_right htrim]
  refine and_congr_right fun _ => ?_
  constructor
  · intro hnone token htoken
    refine not_or.mp fun hfound => hnone ⟨token, htoken, ?_⟩
    exact (mentions_scriptText htoken hdated).mpr hfound
  · rintro hnone ⟨token, htoken, hfound⟩
    exact ((mentions_scriptText htoken hdated).mp hfound).elim (hnone token htoken).1
      (hnone token htoken).2

def awayRequest (message : String) : UpdateAutoresponderRequest :=
  ⟨true, encodeUtf16 "Away".toList, encodeUtf16 message.toList, none, none⟩

/-- A short message without any such name. -/
theorem accepted_saved_iff_hello :
    ∃ script, generateAutoresponderSieve (awayRequest "Hello").input = .ok script ∧
      ((validateSieveScriptContent script).ok = true ↔
        scriptBytes (awayRequest "Hello").input ≤ sieveScriptMaxBytes ∧
          ∀ token ∈ forbiddenExtensionTokens, ¬ Mentions token (awayRequest "Hello").input.subject ∧
            ¬ Mentions token (awayRequest "Hello").input.message) :=
  accepted_saved_iff (awayRequest "Hello") ⟨by decide, by decide, nofun, nofun⟩

/-- The message is searched as if it were a part of the script: one that only mentions the name
of an extension is refused. -/
theorem not_accepted_saved : ¬ ∀ request, Accepts request →
    ∃ script, generateAutoresponderSieve request.input = .ok script ∧
      (validateSieveScriptContent script).ok = true := by
  intro hall
  obtain ⟨script, hscript, hok⟩ :=
    hall (awayRequest "sieve_pipe") ⟨by decide, by decide, nofun, nofun⟩
  obtain ⟨hdated, rfl⟩ := generate_ok_iff.mp hscript
  have htoken : "sieve_pipe" ∈ forbiddenExtensionTokens :=
    List.mem_cons_of_mem _ List.mem_cons_self
  have hmentions : Mentions "sieve_pipe" (awayRequest "sieve_pipe").input.message := by
    decide
  refine validate_ok_iff.mp hok (Or.inr (Or.inr ⟨"sieve_pipe", htoken, ?_⟩))
  exact (mentions_scriptText htoken hdated).mpr (Or.inr hmentions)

end Autoresponder

end MailPanel

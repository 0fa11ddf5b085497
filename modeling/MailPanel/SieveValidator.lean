import MailPanel.ScriptText
import MailPanel.SieveText

/-
The check that every Sieve script passes before it is stored: a search of its raw text for
the two extensions that can run a program.
-/

namespace MailPanel

namespace SieveValidator

open ScriptText SieveText

def sieveScriptMaxBytes : Nat := 32768

def forbiddenExtensionTokens : List String := ["vnd.dovecot.execute", "sieve_pipe"]

structure SieveValidationResult where
  ok : Bool
  reason : Option String
deriving DecidableEq, Repr

/-- `Buffer.byteLength(text, 'utf8')`. -/
def byteLength (text : List Char) : Nat := (text.map Char.utf8Size).sum

/-- A character in lower case, as far as a search for ASCII text can tell: no others than
these become ASCII. -/
def lowerChar (c : Char) : List Char :=
  if c = '\u0130' then ['i', '\u0307'] else if c = '\u212a' then ['k'] else [c.toLower]

def toLowerCase (text : List Char) : List Char := text.flatMap lowerChar

def validateSieveScriptContent (content : List Char) : SieveValidationResult :=
  if trim content = [] then ⟨false, some "Script must not be empty."⟩
  else if sieveScriptMaxBytes < byteLength content then
    ⟨false, some ("Script is " ++ toString (byteLength content) ++ " bytes, over the " ++
      toString sieveScriptMaxBytes ++ "-byte limit.")⟩
  else
    match forbiddenExtensionTokens.find? fun token => token.toList <:+: toLowerCase content with
    | some token =>
        ⟨false, some ("Script references \"" ++ token ++ "\", which can invoke an external " ++
          "program and is refused (FEATURE_MATRIX.md §17).")⟩
    | none => ⟨true, none⟩

/-- What the check refuses a script for. -/
def Refused (content : List Char) : Prop :=
  trim content = [] ∨ sieveScriptMaxBytes < byteLength content ∨
    ∃ token ∈ forbiddenExtensionTokens, token.toList <:+: toLowerCase content

theorem validate_ok_iff {content : List Char} :
    (validateSieveScriptContent content).ok = true ↔ ¬ Refused content := by
  rw [validateSieveScriptContent, Refused]
  by_cases hempty : trim content = []
  · simp [hempty]
  · by_cases hlong : sieveScriptMaxBytes < byteLength content
    · simp [hempty, hlong]
    · rw [if_neg hempty, if_neg hlong]
      cases hfind : forbiddenExtensionTokens.find?
          fun token => token.toList <:+: toLowerCase content with
      | some token =>
          have hmem := List.mem_of_find?_eq_some hfind
          have hfound := List.find?_some hfind
          simp only [decide_eq_true_eq] at hfound
          exact iff_of_false Bool.false_ne_true
            (not_not_intro (Or.inr (Or.inr ⟨token, hmem, hfound⟩)))
      | none =>
          rw [List.find?_eq_none] at hfind
          refine iff_of_true rfl ?_
          rintro (hblank | hover | ⟨token, hmem, hfound⟩)
          · exact hempty hblank
          · exact hlong hover
          · exact hfind token hmem (decide_eq_true hfound)

/-- A string that a script can `require` an extension with. -/
def Names (token : String) (literal : Literal) : Prop :=
  literal.value.map Char.toLower = token.toList

instance (token : String) (literal : Literal) : Decidable (Names token literal) :=
  inferInstanceAs (Decidable (_ = _))

/-- No accepted script has a string that names a forbidden extension. -/
def KeptOut (content : List Char) : Prop :=
  (validateSieveScriptContent content).ok = true →
    ∀ literal ∈ literals content, ∀ token ∈ forbiddenExtensionTokens, ¬ Names token literal

theorem lowerChar_of_mem {token : String} (htoken : token ∈ forbiddenExtensionTokens) {c : Char}
    (hc : c.toLower ∈ token.toList) : lowerChar c = [c.toLower] := by
  have hplain : ∀ token ∈ forbiddenExtensionTokens,
      '\u0130'.toLower ∉ token.toList ∧ '\u212a'.toLower ∉ token.toList := by
    decide
  rw [lowerChar, if_neg, if_neg]
  · rintro rfl
    exact (hplain token htoken).2 hc
  · rintro rfl
    exact (hplain token htoken).1 hc

theorem toLowerCase_eq {token : String} (htoken : token ∈ forbiddenExtensionTokens)
    {text : List Char} (htext : ∀ c ∈ text, c.toLower ∈ token.toList) :
    toLowerCase text = text.map Char.toLower := by
  induction text with
  | nil => rfl
  | cons c rest ih =>
      rw [List.forall_mem_cons] at htext
      rw [toLowerCase, List.flatMap_cons, lowerChar_of_mem htoken htext.1]
      exact congrArg (c.toLower :: ·) (ih htext.2)

/-- A name that is spelled out is seen. -/
theorem seen {token : String} (htoken : token ∈ forbiddenExtensionTokens)
    {spelling content : List Char} (hnames : spelling.map Char.toLower = token.toList)
    (hspelled : spelling <:+: content) : token.toList <:+: toLowerCase content := by
  have hlower : toLowerCase spelling = token.toList := by
    rw [toLowerCase_eq htoken, hnames]
    intro c hc
    rw [← hnames]
    exact List.mem_map_of_mem hc
  obtain ⟨before, after, rfl⟩ := hspelled
  refine ⟨toLowerCase before, toLowerCase after, ?_⟩
  rw [← hlower, toLowerCase, toLowerCase, toLowerCase, toLowerCase, List.flatMap_append,
    List.flatMap_append]

/-- Lines cannot name an extension: their value has a line break. -/
theorem not_names_multiLine {token : String} (htoken : token ∈ forbiddenExtensionTokens)
    {lines : List (List Char)} (hlines : ∀ line ∈ lines, line.getLast? = some '\n') :
    ¬ Names token (.multiLine lines) := by
  have hplain : ∀ token ∈ forbiddenExtensionTokens,
      token.toList ≠ [] ∧ '\n' ∉ token.toList := by
    decide
  intro hnames
  rw [Names] at hnames
  rcases multiLine_value hlines with hnil | hbreak
  · rw [hnil] at hnames
    exact (hplain token htoken).1 hnames.symm
  · apply (hplain token htoken).2
    rw [← hnames]
    exact List.mem_map_of_mem (f := Char.toLower) hbreak

/-- The check keeps the extensions out exactly when no quoted string with a backslash in it
comes to the name of one, or the script is refused for its raw text. The check searches the text
of a script for names, while an interpreter reads strings, in which a backslash before an
ordinary character means nothing. -/
theorem keptOut_iff (content : List Char) :
    KeptOut content ↔
      (∀ spelling, .quoted spelling ∈ literals content → '\\' ∈ spelling →
        ∀ token ∈ forbiddenExtensionTokens, ¬ Names token (.quoted spelling)) ∨
      Refused content := by
  rw [KeptOut, validate_ok_iff]
  constructor
  · intro hkept
    by_cases hrefused : Refused content
    · exact Or.inr hrefused
    · exact Or.inl fun spelling hliteral _ => hkept hrefused _ hliteral
  · rintro (hescaped | hrefused) haccepted
    · intro literal hliteral token htoken hnames
      rcases literal_spelled (mem_literals.mp hliteral) with
        ⟨spelling, rfl, hspelled⟩ | ⟨lines, rfl, hlines⟩
      · by_cases hbackslash : '\\' ∈ spelling
        · exact hescaped spelling hliteral hbackslash token htoken hnames
        · rw [Names, Literal.value, unescape_eq hbackslash] at hnames
          exact haccepted (Or.inr (Or.inr ⟨token, htoken, seen htoken hnames hspelled⟩))
      · exact not_names_multiLine htoken hlines hnames
    · exact absurd hrefused haccepted

/-- A backslash before a letter is ignored by the interpreter, and hides the name from the
search: the script is accepted and requires an extension that it must not use. -/
theorem escaped_require :
    (validateSieveScriptContent "require \"vnd.dovecot.\\execute\";".toList).ok = true ∧
      Names "vnd.dovecot.execute" (.quoted "vnd.dovecot.\\execute".toList) ∧
      ¬ KeptOut "require \"vnd.dovecot.\\execute\";".toList := by
  have haccepted :
      (validateSieveScriptContent "require \"vnd.dovecot.\\execute\";".toList).ok = true := by
    decide
  have hliteral : (.quoted "vnd.dovecot.\\execute".toList : Literal) ∈
      literals "require \"vnd.dovecot.\\execute\";".toList := by
    decide
  have hnames : Names "vnd.dovecot.execute" (.quoted "vnd.dovecot.\\execute".toList) := by
    decide
  refine ⟨haccepted, hnames, ?_⟩
  intro hkept
  exact hkept haccepted _ hliteral _ List.mem_cons_self hnames

end SieveValidator

end MailPanel

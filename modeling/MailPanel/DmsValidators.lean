import MailPanel.NumberText
import MailPanel.Utf16Text
import Mathlib.Data.List.TakeWhile

/-
What may stand in a command line: the rules for addresses, domains, quotas and the other
leaf values of a request.
-/

namespace MailPanel

namespace Dms

open ScriptText NumberText

/-- The letters and numbers of Unicode, which grow with its versions. All that is relied on is
what holds in every version: the ASCII ones are known, and control characters are neither. -/
structure UnicodeTables where
  letter : Char → Bool
  number : Char → Bool
  ascii_letter : ∀ c, c.toNat < 128 → letter c = c.isAlpha
  ascii_number : ∀ c, c.toNat < 128 → number c = isDigit c
  control : ∀ c, 128 ≤ c.toNat → c.toNat < 160 → letter c = false ∧ number c = false

namespace UnicodeTables

/-- The tables of a runtime that knows no letters and numbers beyond ASCII. It shows that the
assumptions on the tables can be met, and the examples are run with it. -/
def ascii : UnicodeTables where
  letter := fun c => decide (c.toNat < 128) && c.isAlpha
  number := fun c => decide (c.toNat < 128) && isDigit c
  ascii_letter := by
    intro c hc
    simp [hc]
  ascii_number := by
    intro c hc
    simp [hc]
  control := by
    intro c hc _
    have hnot : ¬c.toNat < 128 := by omega
    simp [hnot]

end UnicodeTables

/-- `CONTAINS_CONTROL_CHAR`. -/
def isControlChar (c : Char) : Bool := c.toNat ≤ 0x1f || c.toNat = 0x7f

/-- The length of a string, in UTF-16 units. -/
def unitLength (text : List Char) : Nat := (encodeUtf16 text).length

def isAsciiLetter (c : Char) : Bool := ('A' ≤ c && c ≤ 'Z') || ('a' ≤ c && c ≤ 'z')

def isHexDigit (c : Char) : Bool := isDigit c || ('a' ≤ c && c ≤ 'f') || ('A' ≤ c && c ≤ 'F')

/-- `^edge(?:inner*edge)?$`. -/
def edged (edge inner : Char → Bool) : List Char → Bool
  | [] => false
  | first :: rest =>
      edge first && (rest.isEmpty || (rest.dropLast.all inner && rest.getLast?.any edge))

/-- `^first rest*$`. -/
def headed (first rest : Char → Bool) : List Char → Bool
  | [] => false
  | c :: text => first c && text.all rest

def startsWithDash (value : String) : Bool := value.toList.head? = some '-'

def blank (value : String) : Bool := value.toList.any isSpace || value.toList.any isControlChar

section Validators

variable (tables : UnicodeTables)

def isAlphanumeric (c : Char) : Bool := tables.letter c || tables.number c

def localPartPattern : List Char → Bool :=
  edged (isAlphanumeric tables) fun c => isAlphanumeric tables c || c ∈ ['.', '_', '%', '+', '-']

def domainLabelPattern : List Char → Bool :=
  edged (isAlphanumeric tables) fun c => isAlphanumeric tables c || c = '-'

def isValidDomainShape (domain : List Char) : Bool :=
  if domain.isEmpty || 253 < unitLength domain then false
  else
    let labels := domain.splitOn '.'
    if labels.length < 2 then false
    else labels.all fun label =>
      !label.isEmpty && unitLength label ≤ 63 && domainLabelPattern tables label

/-- `none` for a valid value, as in all validators. What is wrong is said by the first check
that fails. -/
def validateDomain (value : String) : Option String :=
  if value = "" then some "domain must not be empty"
  else if startsWithDash value then
    some "domain must not start with \"-\" (would be read as a command-line flag)"
  else if blank value then some "domain must not contain whitespace or control characters"
  else if !isValidDomainShape tables value.toList then
    some ("\"" ++ value ++ "\" is not a valid domain")
  else none

/-- Why an address may not stand in an argument vector, if it may not. The checks come in the
order of the source, so that the first that fails gives the message. -/
def validateAddressForArgv (value : String) (allowCatchAll : Bool) : Option String :=
  if value = "" then some "address must not be empty"
  else if startsWithDash value then
    some "address must not start with \"-\" (would be read as a command-line flag)"
  else if blank value then some "address must not contain whitespace or control characters"
  else if value.toList.count '@' ≠ 1 then some "address must contain exactly one \"@\""
  else
    let localPart := value.toList.takeWhile (· ≠ '@')
    let domain := (value.toList.dropWhile (· ≠ '@')).drop 1
    if localPart.isEmpty && !allowCatchAll then
      some "address is missing a local part before \"@\""
    else if !localPart.isEmpty && !localPartPattern tables localPart then
      some ("\"" ++ String.ofList localPart ++ "\" is not a valid local part (letters, " ++
        "numbers, and . _ % + - only, not leading/trailing punctuation)")
    else if !isValidDomainShape tables domain then
      some ("\"" ++ String.ofList domain ++ "\" is not a valid domain")
    else none

end Validators

/-- Digits, and a unit or none. -/
def quotaPattern (value : List Char) : Bool :=
  let digits := value.takeWhile isDigit
  let rest := value.dropWhile isDigit
  !digits.isEmpty && (rest.isEmpty ||
    (rest.length = 1 && rest.all fun c => c ∈ ['b', 'B', 'k', 'K', 'm', 'M', 'g', 'G', 't', 'T']))

def validateQuota (value : String) : Option String :=
  if value = "" then some "quota must not be empty"
  else if !quotaPattern value.toList then
    some ("quota must be digits optionally followed by a single unit letter, e.g. \"50M\" " ++
      "or \"2G\"")
  else none

/-- `25[0-5]|2[0-4]\d|1\d\d|[1-9]?\d`. Each alternative has its own number of digits and first
digit, so they can be told apart by these. -/
def isOctet : List Char → Bool
  | [c] => isDigit c
  | [c, d] => isDigit c && c ≠ '0' && isDigit d
  | ['1', c, d] => isDigit c && isDigit d
  | ['2', c, d] => ('0' ≤ c && c ≤ '4' && isDigit d) || (c = '5' && '0' ≤ d && d ≤ '5')
  | _ => false

def ipv4Pattern (value : List Char) : Bool :=
  let octets := value.splitOn '.'
  octets.length = 4 && octets.all isOctet

def ipv6Pattern (value : List Char) : Bool :=
  let groups := value.splitOn ':'
  3 ≤ groups.length && groups.length ≤ 8 &&
    groups.all fun group => group.length ≤ 4 && group.all isHexDigit

def validateIpAddress (value : String) : Option String :=
  if value = "" then some "IP address must not be empty"
  else if startsWithDash value then
    some "IP address must not start with \"-\" (would be read as a command-line flag)"
  else if ipv4Pattern value.toList || ipv6Pattern value.toList then none
  else some ("\"" ++ value ++ "\" is not a valid IPv4 or IPv6 address")

def selectorPattern : List Char → Bool :=
  headed (fun c => isAsciiLetter c || isDigit c) fun c =>
    isAsciiLetter c || isDigit c || c = '_' || c = '-'

def validateDkimSelector (value : String) : Option String :=
  if value = "" then some "selector must not be empty"
  else if !selectorPattern value.toList then
    some ("selector may only contain letters, numbers, \"-\" and \"_\", and must start with " ++
      "a letter or number")
  else none

def validDkimKeysizes : List JsNumber := [.finite 1024, .finite 2048, .finite 4096]

def validateDkimKeysize (value : JsNumber) : Option String :=
  if value ∈ validDkimKeysizes then none else some "keysize must be one of 1024, 2048, 4096"

def validatePassword (value : String) : Option String :=
  if value = "" then some "password must not be empty" else none

def sieveScriptNamePattern (value : List Char) : Bool :=
  headed (fun c => isAsciiLetter c || isDigit c) (fun c =>
    isAsciiLetter c || isDigit c || c = '_' || c = '.' || c = '-') value && value.length ≤ 128

/-- Why a name of a script may not stand in an argument vector, if it may not: nothing that
reads as a flag, a path or more than one word gets through. -/
def validateSieveScriptName (value : String) : Option String :=
  if value = "" then some "script name must not be empty"
  else if startsWithDash value then
    some "script name must not start with \"-\" (would be read as a command-line flag)"
  else if value = "." || value = ".." then some "script name must not be \".\" or \"..\""
  else if '/' ∈ value.toList || '\\' ∈ value.toList then
    some "script name must not contain a path separator"
  else if blank value then
    some "script name must not contain whitespace or control characters"
  else if !sieveScriptNamePattern value.toList then
    some ("script name may only contain letters, numbers, \"-\", \"_\" and \".\" (max 128 " ++
      "characters), and must start with a letter or number")
  else none

example : [validateDomain .ascii "example.com", validateAddressForArgv .ascii "a.b@example.com" false,
    validateAddressForArgv .ascii "@example.com" true, validateQuota "50M",
    validateIpAddress "192.0.2.1", validateIpAddress "2001:db8::1", validateDkimSelector "mail-1",
    validateSieveScriptName "dwg.filter"].all Option.isNone = true := by
  decide

/- What a valid value cannot hold -/

/-- The control characters of Unicode. -/
def Control (c : Char) : Prop := c.toNat < 32 ∨ 127 ≤ c.toNat ∧ c.toNat < 160

structure PlainChar (c : Char) : Prop where
  space : isSpace c = false
  control : ¬Control c
  slash : c ≠ '/'

/-- No flag, and no character that ends an argument, a line or a path segment. -/
structure PlainLeaf (value : String) : Prop where
  dash : value.toList.head? ≠ some '-'
  chars : ∀ c ∈ value.toList, PlainChar c

section Chars

variable {tables : UnicodeTables} {c : Char} {text : List Char}

theorem isSpace_eq_false_of_printable (hlow : 32 < c.toNat) (hhigh : c.toNat < 127) :
    isSpace c = false := by
  by_contra hspace
  rw [Bool.not_eq_false, isSpace, Bool.or_eq_true] at hspace
  rcases hspace with hlisted | hrange
  · have hoff : ∀ d ∈ ['\t', '\n', '\x0b', '\x0c', '\r', ' ', '\u00a0', '\u1680', '\u2028',
        '\u2029', '\u202f', '\u205f', '\u3000', '\ufeff'],
        ¬(32 < d.toNat ∧ d.toNat < 127) :=
      List.all_iff_forall_prop.mp (by decide)
    exact hoff c (by simpa using hlisted) ⟨hlow, hhigh⟩
  · simp only [Bool.and_eq_true, decide_eq_true_eq] at hrange
    omega

theorem PlainChar.of_printable (hlow : 32 < c.toNat) (hhigh : c.toNat < 127) (hslash : c ≠ '/') :
    PlainChar c where
  space := isSpace_eq_false_of_printable hlow hhigh
  control := by
    rw [Control]
    omega
  slash := hslash

theorem PlainChar.of_range {low high : Char} (hlow : low ≤ c) (hhigh : c ≤ high)
    (hbounds : 47 < low.toNat ∧ high.toNat < 127) : PlainChar c := by
  have hlow' : low.toNat ≤ c.toNat := hlow
  have hhigh' : c.toNat ≤ high.toNat := hhigh
  apply PlainChar.of_printable
  · omega
  · omega
  · rintro rfl
    have hslash : ('/' : Char).toNat = 47 := rfl
    omega

theorem PlainChar.of_digit (hdigit : isDigit c = true) : PlainChar c := by
  rw [isDigit, Bool.and_eq_true, decide_eq_true_eq, decide_eq_true_eq] at hdigit
  exact PlainChar.of_range hdigit.1 hdigit.2 (by decide)

theorem PlainChar.of_asciiLetter (hletter : isAsciiLetter c = true) : PlainChar c := by
  simp only [isAsciiLetter, Bool.or_eq_true, Bool.and_eq_true, decide_eq_true_eq] at hletter
  rcases hletter with ⟨hlow, hhigh⟩ | ⟨hlow, hhigh⟩
  · exact PlainChar.of_range hlow hhigh (by decide)
  · exact PlainChar.of_range hlow hhigh (by decide)

theorem PlainChar.of_hexDigit (hhex : isHexDigit c = true) : PlainChar c := by
  simp only [isHexDigit, Bool.or_eq_true, Bool.and_eq_true, decide_eq_true_eq] at hhex
  rcases hhex with (hdigit | ⟨hlow, hhigh⟩) | ⟨hlow, hhigh⟩
  · exact PlainChar.of_digit hdigit
  · exact PlainChar.of_range hlow hhigh (by decide)
  · exact PlainChar.of_range hlow hhigh (by decide)

/-- A letter or a number is no slash, and none of the later control characters. -/
theorem isAlphanumeric_spec (h : isAlphanumeric tables c = true) :
    c ≠ '/' ∧ c ≠ ',' ∧ c ≠ '*' ∧ ¬(128 ≤ c.toNat ∧ c.toNat < 160) := by
  have hplain : ∀ d ∈ ['/', ',', '*'], isAlphanumeric tables d = false := by
    have hneither : ∀ d ∈ ['/', ',', '*'], d.toNat < 128 ∧ (d.isAlpha || isDigit d) = false :=
      List.all_iff_forall_prop.mp (by decide)
    intro d hd
    obtain ⟨hascii, hplain⟩ := hneither d hd
    rw [isAlphanumeric, tables.ascii_letter d hascii, tables.ascii_number d hascii]
    exact hplain
  refine ⟨?_, ?_, ?_, ?_⟩
  · rintro rfl
    rw [hplain '/' (by decide)] at h
    cases h
  · rintro rfl
    rw [hplain ',' (by decide)] at h
    cases h
  · rintro rfl
    rw [hplain '*' (by decide)] at h
    cases h
  · rintro ⟨hlow, hhigh⟩
    obtain ⟨hletter, hnumber⟩ := tables.control c hlow hhigh
    rw [isAlphanumeric, hletter, hnumber] at h
    cases h

theorem edged_forall {edge inner : Char → Bool} (hinner : ∀ c, edge c = true → inner c = true)
    (htext : edged edge inner text = true) : ∀ c ∈ text, inner c = true := by
  cases text with
  | nil => exact fun c hc => absurd hc List.not_mem_nil
  | cons first rest =>
      simp only [edged, Bool.and_eq_true, Bool.or_eq_true, List.isEmpty_iff, List.all_eq_true,
        Option.any_eq_true] at htext
      intro c hc
      rcases List.mem_cons.mp hc with rfl | hrest
      · exact hinner c htext.1
      · rcases htext.2 with rfl | ⟨hmiddle, last, hlast, hedge⟩
        · exact absurd hrest List.not_mem_nil
        · rw [← List.dropLast_append_getLast? last hlast] at hrest
          rcases List.mem_append.mp hrest with hinit | hend
          · exact hmiddle c hinit
          · rw [List.mem_singleton.mp hend]
            exact hinner last hedge

theorem headed_spec {first rest : Char → Bool} (hrest : ∀ c, first c = true → rest c = true)
    (htext : headed first rest text = true) :
    (∀ c ∈ text, rest c = true) ∧ ∃ c, text.head? = some c ∧ first c = true := by
  cases text with
  | nil => cases htext
  | cons c text =>
      rw [headed, Bool.and_eq_true, List.all_eq_true] at htext
      exact ⟨List.forall_mem_cons.mpr ⟨hrest c htext.1, htext.2⟩, c, rfl, htext.1⟩

theorem mem_intercalate {separator : Char} {pieces : List (List Char)}
    (hc : c ∈ [separator].intercalate pieces) : c = separator ∨ ∃ piece ∈ pieces, c ∈ piece := by
  induction pieces with
  | nil => exact absurd hc List.not_mem_nil
  | cons piece pieces ih =>
      cases pieces with
      | nil =>
          rw [List.intercalate_singleton] at hc
          exact Or.inr ⟨piece, List.mem_cons_self, hc⟩
      | cons next rest =>
          rw [List.intercalate_cons_cons, List.mem_append, List.mem_append] at hc
          rcases hc with (hpiece | hseparator) | hrest
          · exact Or.inr ⟨piece, List.mem_cons_self, hpiece⟩
          · exact Or.inl (List.mem_singleton.mp hseparator)
          · rcases ih hrest with hseparator | ⟨other, hother, hmem⟩
            · exact Or.inl hseparator
            · exact Or.inr ⟨other, List.mem_cons_of_mem piece hother, hmem⟩

/-- A character of a text is a separator or stands in a piece. -/
theorem mem_splitOn (separator : Char) (hc : c ∈ text) :
    c = separator ∨ ∃ piece ∈ text.splitOn separator, c ∈ piece := by
  have hjoin : [separator].intercalate (text.splitOn separator) = text :=
    List.intercalate_splitOn separator
  rw [← hjoin] at hc
  exact mem_intercalate hc

/-- The characters of a domain. -/
theorem mem_domain (hdomain : isValidDomainShape tables text = true) (hc : c ∈ text) :
    c = '.' ∨ c = '-' ∨ isAlphanumeric tables c = true := by
  rw [isValidDomainShape] at hdomain
  split at hdomain
  · cases hdomain
  dsimp only at hdomain
  split at hdomain
  · cases hdomain
  rcases mem_splitOn '.' hc with hdot | ⟨label, hlabel, hmem⟩
  · exact Or.inl hdot
  · have hvalid := List.all_eq_true.mp hdomain label hlabel
    simp only [Bool.and_eq_true] at hvalid
    have hinner := edged_forall (fun d hd => by simp [hd]) hvalid.2 c hmem
    simp only [Bool.or_eq_true, decide_eq_true_eq] at hinner
    exact Or.inr hinner.symm

end Chars

section Leaves

variable {tables : UnicodeTables} {value : String}

theorem PlainChar.of_blank {c : Char} (hblank : blank value = false) (hc : c ∈ value.toList)
    (hslash : c ≠ '/') (hlate : ¬(128 ≤ c.toNat ∧ c.toNat < 160)) : PlainChar c := by
  rw [blank, Bool.or_eq_false_iff, List.any_eq_false, List.any_eq_false] at hblank
  have hspace := hblank.1 c hc
  have hcontrol := hblank.2 c hc
  simp only [isControlChar, Bool.or_eq_true, decide_eq_true_eq, not_or] at hcontrol
  refine ⟨by simpa using hspace, ?_, hslash⟩
  rw [Control]
  omega

/-- What stands in a domain is plain, as far as it is no blank. -/
theorem domainChar_spec {c : Char} (hc : c = '.' ∨ c = '-' ∨ isAlphanumeric tables c = true) :
    c ≠ '/' ∧ c ≠ ',' ∧ c ≠ '*' ∧ ¬(128 ≤ c.toNat ∧ c.toNat < 160) := by
  rcases hc with rfl | rfl | halphanumeric
  · decide
  · decide
  · exact isAlphanumeric_spec halphanumeric

/-- A check of a validator that is passed. -/
theorem check_eq_none {failed : Prop} [Decidable failed] {message : String}
    {rest : Option String} :
    (if failed then some message else rest) = none ↔ ¬failed ∧ rest = none := by
  by_cases hfailed : failed
  · simp [hfailed]
  · simp [hfailed]

theorem validateDomain_eq_none (hvalid : validateDomain tables value = none) :
    startsWithDash value = false ∧ blank value = false ∧
      isValidDomainShape tables value.toList = true := by
  simp only [validateDomain, check_eq_none, Bool.not_eq_true, Bool.not_eq_false',
    and_true] at hvalid
  exact hvalid.2

theorem head_of_startsWithDash (hdash : startsWithDash value = false) :
    value.toList.head? ≠ some '-' := by
  simpa [startsWithDash] using hdash

theorem PlainLeaf.of_domain (hvalid : validateDomain tables value = none) :
    PlainLeaf value := by
  obtain ⟨hdash, hblank, hshape⟩ := validateDomain_eq_none hvalid
  refine ⟨head_of_startsWithDash hdash, ?_⟩
  intro c hc
  obtain ⟨hslash, -, -, hlate⟩ := domainChar_spec (mem_domain hshape hc)
  exact PlainChar.of_blank hblank hc hslash hlate

/-- What is left from a character on begins with it. -/
theorem dropWhile_ne_eq (a : Char) (text : List Char) :
    text.dropWhile (· ≠ a) = [] ∨
      text.dropWhile (· ≠ a) = a :: (text.dropWhile (· ≠ a)).drop 1 := by
  induction text with
  | nil => exact Or.inl rfl
  | cons c text ih =>
      by_cases hc : c = a
      · right
        simp [hc]
      · simpa [List.dropWhile_cons, hc] using ih

theorem listed_spec {c : Char} (hc : c ∈ ['.', '_', '%', '+', '-', '@']) :
    c ≠ '/' ∧ ¬(128 ≤ c.toNat ∧ c.toNat < 160) := by
  have hall : ∀ d ∈ ['.', '_', '%', '+', '-', '@'],
      d ≠ '/' ∧ ¬(128 ≤ d.toNat ∧ d.toNat < 160) := List.all_iff_forall_prop.mp (by decide)
  exact hall c hc

/-- The characters of an address that may stand in an argument vector: no slash is among them,
and no control character. -/
theorem mem_address {allowCatchAll : Bool} {c : Char}
    (hvalid : validateAddressForArgv tables value allowCatchAll = none)
    (hc : c ∈ value.toList) : c ≠ '/' ∧ ¬(128 ≤ c.toNat ∧ c.toNat < 160) := by
  simp only [validateAddressForArgv, check_eq_none, Bool.not_eq_true, Bool.and_eq_false_iff,
    Bool.not_eq_false', and_true] at hvalid
  obtain ⟨-, -, -, -, -, hlocal, hshape⟩ := hvalid
  rw [← List.takeWhile_append_dropWhile (p := (· ≠ '@')) (l := value.toList)] at hc
  rcases List.mem_append.mp hc with hbefore | hafter
  · rcases hlocal with hempty | hpattern
    · rw [List.isEmpty_iff.mp hempty] at hbefore
      exact absurd hbefore List.not_mem_nil
    · have hinner := edged_forall (fun d hd => by simp [hd]) hpattern c hbefore
      simp only [Bool.or_eq_true, decide_eq_true_eq] at hinner
      rcases hinner with halphanumeric | hlisted
      · obtain ⟨hslash, -, -, hlate⟩ := isAlphanumeric_spec halphanumeric
        exact ⟨hslash, hlate⟩
      · exact listed_spec (List.mem_append_left ['@'] hlisted)
  · rcases dropWhile_ne_eq '@' value.toList with hnone | hsome
    · rw [hnone] at hafter
      exact absurd hafter List.not_mem_nil
    · rw [hsome] at hafter
      rcases List.mem_cons.mp hafter with rfl | hdomain
      · exact listed_spec (by decide)
      · obtain ⟨hslash, -, -, hlate⟩ := domainChar_spec (mem_domain hshape hdomain)
        exact ⟨hslash, hlate⟩

theorem PlainLeaf.of_address {allowCatchAll : Bool}
    (hvalid : validateAddressForArgv tables value allowCatchAll = none) : PlainLeaf value := by
  have hchars := fun c hc => mem_address (c := c) hvalid hc
  simp only [validateAddressForArgv, check_eq_none, Bool.not_eq_true] at hvalid
  obtain ⟨-, hdash, hblank, -⟩ := hvalid
  refine ⟨head_of_startsWithDash hdash, ?_⟩
  intro c hc
  exact PlainChar.of_blank hblank hc (hchars c hc).1 (hchars c hc).2

theorem PlainLeaf.of_quota (hvalid : validateQuota value = none) : PlainLeaf value := by
  simp only [validateQuota, check_eq_none, quotaPattern, Bool.not_eq_true', Bool.not_eq_false,
    Bool.and_eq_true, Bool.or_eq_true, and_true] at hvalid
  obtain ⟨-, hdigits, hrest⟩ := hvalid
  have hsplit := List.takeWhile_append_dropWhile (p := isDigit) (l := value.toList)
  have hbefore : ∀ c ∈ value.toList.takeWhile isDigit, isDigit c = true :=
    fun c hc => List.mem_takeWhile_imp hc
  constructor
  · rw [← hsplit]
    cases htake : value.toList.takeWhile isDigit with
    | nil => simp [htake] at hdigits
    | cons c digits =>
        rw [htake] at hbefore
        intro hdash
        obtain rfl : c = '-' := Option.some.inj hdash
        exact absurd (hbefore '-' List.mem_cons_self) (by decide)
  · intro c hc
    rw [← hsplit] at hc
    rcases List.mem_append.mp hc with hdigit | hunit
    · exact PlainChar.of_digit (hbefore c hdigit)
    · rcases hrest with hempty | ⟨-, hunits⟩
      · rw [List.isEmpty_iff.mp hempty] at hunit
        exact absurd hunit List.not_mem_nil
      · have hlisted := List.all_eq_true.mp hunits c hunit
        rw [decide_eq_true_eq] at hlisted
        have hletters : ∀ d ∈ ['b', 'B', 'k', 'K', 'm', 'M', 'g', 'G', 't', 'T'],
            isAsciiLetter d = true :=
          List.all_iff_forall_prop.mp (by decide)
        exact PlainChar.of_asciiLetter (hletters c hlisted)

/-- Words of letters, digits and some punctuation, that begin with a letter or digit. -/
theorem PlainLeaf.of_headed {rest : Char → Bool}
    (hrest : ∀ c, rest c = true → isAsciiLetter c = true ∨ isDigit c = true ∨
      c ∈ ['_', '.', '-'])
    (hfirst : ∀ c, (isAsciiLetter c || isDigit c) = true → rest c = true)
    (htext : headed (fun c => isAsciiLetter c || isDigit c) rest value.toList = true) :
    PlainLeaf value := by
  obtain ⟨hall, first, hhead, hbegins⟩ := headed_spec hfirst htext
  constructor
  · rw [hhead]
    intro hdash
    obtain rfl : first = '-' := Option.some.inj hdash
    exact absurd hbegins (by decide)
  · intro c hc
    rcases hrest c (hall c hc) with hletter | hdigit | hlisted
    · exact PlainChar.of_asciiLetter hletter
    · exact PlainChar.of_digit hdigit
    · have hplain : ∀ d ∈ ['_', '.', '-'], 32 < d.toNat ∧ d.toNat < 127 ∧ d ≠ '/' :=
        List.all_iff_forall_prop.mp (by decide)
      obtain ⟨hlow, hhigh, hslash⟩ := hplain c hlisted
      exact PlainChar.of_printable hlow hhigh hslash

theorem PlainLeaf.of_selector (hvalid : validateDkimSelector value = none) :
    PlainLeaf value := by
  simp only [validateDkimSelector, check_eq_none, Bool.not_eq_true', Bool.not_eq_false,
    and_true] at hvalid
  refine PlainLeaf.of_headed ?_ (fun c hc => by simp [hc]) hvalid.2
  intro c hc
  simp only [Bool.or_eq_true, decide_eq_true_eq] at hc
  rcases hc with ((hletter | hdigit) | rfl) | rfl
  · exact Or.inl hletter
  · exact Or.inr (Or.inl hdigit)
  · exact Or.inr (Or.inr (by decide))
  · exact Or.inr (Or.inr (by decide))

theorem PlainLeaf.of_sieveScriptName (hvalid : validateSieveScriptName value = none) :
    PlainLeaf value := by
  simp only [validateSieveScriptName, check_eq_none, Bool.not_eq_true', Bool.not_eq_false,
    sieveScriptNamePattern, Bool.and_eq_true, and_true] at hvalid
  obtain ⟨-, -, -, -, -, hpattern, -⟩ := hvalid
  refine PlainLeaf.of_headed ?_ (fun c hc => by simp [hc]) hpattern
  intro c hc
  simp only [Bool.or_eq_true, decide_eq_true_eq] at hc
  rcases hc with (((hletter | hdigit) | rfl) | rfl) | rfl
  · exact Or.inl hletter
  · exact Or.inr (Or.inl hdigit)
  · exact Or.inr (Or.inr (by decide))
  · exact Or.inr (Or.inr (by decide))
  · exact Or.inr (Or.inr (by decide))

theorem isOctet_digits {octet : List Char} (hoctet : isOctet octet = true) :
    ∀ c ∈ octet, isDigit c = true := by
  have hrange : ∀ {c high : Char}, '0' ≤ c → c ≤ high → high ≤ '9' → isDigit c = true := by
    intro c high hlow hle hhigh
    rw [isDigit, Bool.and_eq_true, decide_eq_true_eq, decide_eq_true_eq]
    exact ⟨hlow, Char.le_trans hle hhigh⟩
  unfold isOctet at hoctet
  split at hoctet
  · simpa using hoctet
  · simp only [Bool.and_eq_true] at hoctet
    simpa using ⟨hoctet.1.1, hoctet.2⟩
  · simp only [Bool.and_eq_true] at hoctet
    simpa using ⟨(by decide : isDigit '1' = true), hoctet⟩
  · rename_i c d
    simp only [Bool.or_eq_true, Bool.and_eq_true, decide_eq_true_eq] at hoctet
    have hboth : isDigit c = true ∧ isDigit d = true := by
      rcases hoctet with ⟨⟨hlow, hhigh⟩, hd⟩ | ⟨⟨rfl, hlow⟩, hhigh⟩
      · exact ⟨hrange hlow hhigh (by decide), hd⟩
      · exact ⟨by decide, hrange hlow hhigh (by decide)⟩
    simpa using ⟨(by decide : isDigit '2' = true), hboth⟩
  · cases hoctet

theorem PlainLeaf.of_ip (hvalid : validateIpAddress value = none) : PlainLeaf value := by
  simp only [validateIpAddress, check_eq_none, Bool.not_eq_true] at hvalid
  obtain ⟨-, hdash, hpattern⟩ := hvalid
  have hmatches : ipv4Pattern value.toList = true ∨ ipv6Pattern value.toList = true := by
    by_contra hnone
    simp only [← Bool.or_eq_true] at hnone
    rw [if_neg hnone] at hpattern
    cases hpattern
  refine ⟨head_of_startsWithDash hdash, ?_⟩
  intro c hc
  rcases hmatches with hv4 | hv6
  · simp only [ipv4Pattern, Bool.and_eq_true, List.all_eq_true] at hv4
    rcases mem_splitOn '.' hc with rfl | ⟨octet, hoctet, hmem⟩
    · exact PlainChar.of_printable (by decide) (by decide) (by decide)
    · exact PlainChar.of_digit (isOctet_digits (hv4.2 octet hoctet) c hmem)
  · simp only [ipv6Pattern, Bool.and_eq_true, List.all_eq_true] at hv6
    rcases mem_splitOn ':' hc with rfl | ⟨group, hgroup, hmem⟩
    · exact PlainChar.of_printable (by decide) (by decide) (by decide)
    · exact PlainChar.of_hexDigit ((hv6.2 group hgroup).2 c hmem)

theorem PlainLeaf.of_keysize {keysize : JsNumber} (hvalid : validateDkimKeysize keysize = none) :
    ∃ size : ℚ, keysize = .finite size ∧ 0 < size ∧
      PlainLeaf (String.ofList (toText size)) := by
  simp only [validateDkimKeysize, ite_eq_left_iff, reduceCtorEq, imp_false, not_not,
    validDkimKeysizes, List.mem_cons, List.not_mem_nil, or_false] at hvalid
  have hdigits : ∀ text : List Char, text.all isDigit = true → PlainLeaf (String.ofList text) := by
    intro text htext
    rw [List.all_eq_true] at htext
    constructor
    · rw [String.toList_ofList]
      intro hdash
      exact absurd (htext '-' (List.mem_of_mem_head? hdash)) (by decide)
    · intro c hc
      rw [String.toList_ofList] at hc
      exact PlainChar.of_digit (htext c hc)
  rcases hvalid with rfl | rfl | rfl
  · exact ⟨1024, rfl, by decide, hdigits _ (by decide +kernel)⟩
  · exact ⟨2048, rfl, by decide, hdigits _ (by decide +kernel)⟩
  · exact ⟨4096, rfl, by decide, hdigits _ (by decide +kernel)⟩

end Leaves

end Dms

end MailPanel

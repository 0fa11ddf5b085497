import MailPanel.ConfigParsers
import MailPanel.DmsValidators
import MailPanel.TrimmedText

/-
The documented formats of the account, alias and quota tables, and that the panel reads back
what stands in them.
-/

namespace MailPanel

namespace Parsers

open ScriptText Aliases Dms

/-- Spaces and tabs. -/
def Blanks (text : List Char) : Prop := ∀ c ∈ text, c = ' ' ∨ c = '\t'

def Unbroken (value : List Char) : Prop :=
  ∀ c ∈ value, isSpace c = false ∧ isControl c = false

/-- One `@` with something on either side. -/
def IsAddress (value : List Char) : Prop :=
  Unbroken value ∧ ∃ localPart domain, value = localPart ++ '@' :: domain ∧
    localPart ≠ [] ∧ domain ≠ [] ∧ '@' ∉ localPart ∧ '@' ∉ domain

def IsCatchAll (value : List Char) : Prop :=
  Unbroken value ∧ ∃ domain, value = '@' :: domain ∧ domain ≠ [] ∧ '@' ∉ domain

def localPartOf (address : String) : String :=
  String.ofList (address.toList.takeWhile (· ≠ '@'))

def domainPartOf (address : String) : String :=
  String.ofList ((address.toList.dropWhile (· ≠ '@')).drop 1)

section Formats

variable (tables : UnicodeTables) (toLowerCase : String → String)

/- Accounts -/

structure Account where
  email : String
  passwordHash : String
  attributes : String
deriving DecidableEq, Repr

/-- An account that the mail server can have written: its address passes the panel's own check,
its hash is one word without a bar, and its attributes have no bar and no blanks around them. -/
structure Account.Valid (account : Account) : Prop where
  email : validateAddressForArgv tables account.email false = none
  hash_ne : account.passwordHash ≠ ""
  hash : ∀ c ∈ account.passwordHash.toList, c ≠ '|' ∧ isSpace c = false
  attributes : '|' ∉ account.attributes.toList ∧
    trim account.attributes.toList = account.attributes.toList

def Account.entry (account : Account) : PostfixAccountEntry where
  email := account.email
  localPart := localPartOf account.email
  domain := toLowerCase (domainPartOf account.email)
  passwordHash := account.passwordHash
  attributes := account.attributes

/-- `email|hash` or `email|hash|attributes`, with blanks around the fields. -/
def Account.Renders (account : Account) (text : List Char) : Prop :=
  ∃ before afterEmail beforeHash afterHash rest,
    Blanks before ∧ Blanks afterEmail ∧ Blanks beforeHash ∧ Blanks afterHash ∧
      text = before ++ account.email.toList ++ afterEmail ++ '|' ::
        (beforeHash ++ account.passwordHash.toList ++ afterHash ++ rest) ∧
      ((rest = [] ∧ account.attributes = "") ∨
        ∃ beforeAttributes after, Blanks beforeAttributes ∧ Blanks after ∧
          rest = '|' :: (beforeAttributes ++ account.attributes.toList ++ after))

/-- Two or three fields, the first an address and the second not empty. -/
def AccountShape (text : List Char) : Prop :=
  ∃ email passwordHash, IsAddress (trim email) ∧ trim passwordHash ≠ [] ∧
    (text.splitOn '|' = [email, passwordHash] ∨
      ∃ attributes, text.splitOn '|' = [email, passwordHash, attributes])

def accountFormat : Format Account where
  Renders := fun account text => account.Valid tables ∧ account.Renders text
  Malformed := fun text => ¬Skipped text ∧ ¬AccountShape text

/- Quotas -/

structure Quota where
  email : String
  quota : String
deriving DecidableEq, Repr

def Quota.entry (quota : Quota) : DovecotQuotaEntry where
  email := quota.email
  localPart := localPartOf quota.email
  domain := toLowerCase (domainPartOf quota.email)
  quota := quota.quota

/-- `email:quota`, with blanks around the fields. -/
def Quota.Renders (quota : Quota) (text : List Char) : Prop :=
  ∃ before afterEmail beforeQuota after,
    Blanks before ∧ Blanks afterEmail ∧ Blanks beforeQuota ∧ Blanks after ∧
      text = before ++ quota.email.toList ++ afterEmail ++ ':' ::
        (beforeQuota ++ quota.quota.toList ++ after)

/-- An address before the first colon, and something behind it. -/
def QuotaShape (text : List Char) : Prop :=
  ∃ email quota, text = email ++ ':' :: quota ∧ ':' ∉ email ∧ IsAddress (trim email) ∧
    trim quota ≠ []

def quotaFormat : Format Quota where
  Renders := fun quota text => (validateAddressForArgv tables quota.email false = none ∧
    validateQuota quota.quota = none) ∧ quota.Renders text
  Malformed := fun text => ¬Skipped text ∧ ¬QuotaShape text

/- Aliases -/

structure AliasRecord where
  address : String
  recipients : List String
deriving DecidableEq, Repr

structure AliasRecord.Valid (record : AliasRecord) : Prop where
  address : validateAddressForArgv tables record.address true = none
  recipients_ne : record.recipients ≠ []
  recipients : ∀ recipient ∈ record.recipients,
    validateAddressForArgv tables recipient false = none

def AliasRecord.entry (record : AliasRecord) : PostfixVirtualEntry where
  address := record.address
  isCatchAll := record.address.toList.head? = some '@'
  localPart := localPartOf record.address
  domain := toLowerCase (domainPartOf record.address)
  recipients := record.recipients

/-- Recipients with commas or blanks between them, in any number and mixture. It is what the
format lets a line hold, whichever way the parser finds to take it apart. -/
inductive Joined : List String → List Char → Prop
  | one (recipient : String) : Joined [recipient] recipient.toList
  | more (recipient : String) (separator : List Char) {recipients : List String}
      {text : List Char} (hne : separator ≠ [])
      (hseparator : ∀ c ∈ separator, c = ',' ∨ c = ' ' ∨ c = '\t')
      (hjoined : Joined recipients text) :
      Joined (recipient :: recipients) (recipient.toList ++ (separator ++ text))

/-- An address or a catch-all, blanks, and the recipients. -/
def AliasRecord.Renders (record : AliasRecord) (text : List Char) : Prop :=
  ∃ before gap recipients after, Blanks before ∧ Blanks gap ∧ gap ≠ [] ∧ Blanks after ∧
    Joined record.recipients recipients ∧
    text = before ++ (record.address.toList ++ (gap ++ recipients)) ++ after

def lineSeparators : List Char := ['\n', '\r', '\u2028', '\u2029']

/-- An address or a catch-all, white space, and then on one line words that are addresses. -/
def AliasShape (text : List Char) : Prop :=
  ∃ address gap recipients, trim text = address ++ (gap ++ recipients) ∧
    (IsAddress address ∨ IsCatchAll address) ∧ gap ≠ [] ∧ (∀ c ∈ gap, isSpace c = true) ∧
    (∀ c, recipients.head? = some c → isSpace c = false) ∧
    (∀ c ∈ recipients, c ∉ lineSeparators) ∧ recipientTokens recipients ≠ [] ∧
    ∀ word ∈ recipientTokens recipients, IsAddress word

def aliasFormat : Format AliasRecord where
  Renders := fun record text => record.Valid tables ∧ record.Renders text
  Malformed := fun text => ¬Skipped text ∧ ¬AliasShape text

end Formats

/- Addresses -/

section Addresses

variable {tables : UnicodeTables} {toLowerCase : String → String} {value : List Char}

theorem takeWhile_append_at {localPart domain : List Char} (hat : '@' ∉ localPart) :
    (localPart ++ '@' :: domain).takeWhile (· ≠ '@') = localPart ∧
      (localPart ++ '@' :: domain).dropWhile (· ≠ '@') = '@' :: domain := by
  have hall : ∀ c ∈ localPart, decide (c ≠ '@') = true := by
    intro c hc
    rw [decide_eq_true_eq]
    rintro rfl
    exact hat hc
  rw [List.takeWhile_append_of_pos hall, List.dropWhile_append_of_pos hall]
  simp

theorem Unbroken.any_eq_false (hvalue : Unbroken value) :
    (value.any fun c => isSpace c || isControl c) = false := by
  rw [List.any_eq_false]
  intro c hc
  obtain ⟨hspace, hcontrol⟩ := hvalue c hc
  rw [hspace, hcontrol]
  exact Bool.false_ne_true

theorem splitEmailAddress_of_parts {localPart domain : List Char}
    (hvalue : Unbroken (localPart ++ '@' :: domain)) (hlocal : localPart ≠ [])
    (hdomain : domain ≠ []) (hat : '@' ∉ localPart) (hat' : '@' ∉ domain) :
    splitEmailAddress toLowerCase (localPart ++ '@' :: domain) =
      some ⟨String.ofList (localPart ++ '@' :: domain), String.ofList localPart,
        toLowerCase (String.ofList domain)⟩ := by
  obtain ⟨htake, hdrop⟩ := @takeWhile_append_at _ domain hat
  rw [splitEmailAddress, hvalue.any_eq_false, if_neg Bool.false_ne_true, htake, hdrop]
  have hparts : (localPart.isEmpty || domain.isEmpty || decide ('@' ∈ domain)) = false := by
    simp [hlocal, hdomain, hat']
  exact if_neg (Bool.eq_false_iff.mp hparts)

theorem isAddress_of_split {split : SplitAddress}
    (hsplit : splitEmailAddress toLowerCase value = some split) : IsAddress value := by
  rw [splitEmailAddress] at hsplit
  by_cases hbroken : (value.any fun c => isSpace c || isControl c) = true
  · rw [if_pos hbroken] at hsplit
    cases hsplit
  · rw [if_neg hbroken] at hsplit
    rw [Bool.not_eq_true, List.any_eq_false] at hbroken
    have hvalue : Unbroken value := by
      intro c hc
      simpa using hbroken c hc
    refine ⟨hvalue, ?_⟩
    have hwhole := List.takeWhile_append_dropWhile (p := (· ≠ '@')) (l := value)
    have hat : '@' ∉ value.takeWhile (· ≠ '@') := by
      intro hmem
      simpa using List.mem_takeWhile_imp hmem
    split at hsplit
    · rename_i domain hdrop
      split at hsplit
      · cases hsplit
      · rename_i hparts
        simp only [Bool.or_eq_true, List.isEmpty_iff, decide_eq_true_eq, not_or] at hparts
        rw [hdrop] at hwhole
        exact ⟨_, domain, hwhole.symm, hparts.1.1, hparts.1.2, hat, hparts.2⟩
    · cases hsplit

theorem splitEmailAddress_eq_none (hnot : ¬IsAddress value) :
    splitEmailAddress toLowerCase value = none := by
  cases hsplit : splitEmailAddress toLowerCase value with
  | none => rfl
  | some split => exact absurd (isAddress_of_split hsplit) hnot

theorem splitEmailAddress_of_isAddress (haddress : IsAddress value) :
    splitEmailAddress toLowerCase value =
      some ⟨String.ofList value, localPartOf (String.ofList value),
        toLowerCase (domainPartOf (String.ofList value))⟩ := by
  obtain ⟨hvalue, localPart, domain, rfl, hlocal, hdomain, hat, hat'⟩ := haddress
  obtain ⟨htake, hdrop⟩ := @takeWhile_append_at _ domain hat
  rw [splitEmailAddress_of_parts hvalue hlocal hdomain hat hat', localPartOf, domainPartOf,
    String.toList_ofList, htake, hdrop]
  rfl

theorem splitAliasAddress_of_isAddress (haddress : IsAddress value) :
    splitAliasAddress toLowerCase value = splitEmailAddress toLowerCase value := by
  obtain ⟨hvalue, localPart, domain, rfl, hlocal, hdomain, hat, hat'⟩ := haddress
  rw [splitAliasAddress.eq_def, hvalue.any_eq_false, if_neg Bool.false_ne_true]
  cases localPart with
  | nil => exact absurd rfl hlocal
  | cons c localPart =>
      rw [List.cons_append]
      split
      · rename_i heq
        obtain ⟨rfl, -⟩ := List.cons.inj heq
        exact absurd List.mem_cons_self hat
      · rfl

theorem splitAliasAddress_of_isCatchAll (haddress : IsCatchAll value) :
    splitAliasAddress toLowerCase value =
      some ⟨String.ofList value, localPartOf (String.ofList value),
        toLowerCase (domainPartOf (String.ofList value))⟩ := by
  obtain ⟨hvalue, domain, rfl, hdomain, hat⟩ := haddress
  rw [splitAliasAddress.eq_def, hvalue.any_eq_false, if_neg Bool.false_ne_true]
  have hparts : (domain.isEmpty || decide ('@' ∈ domain)) = false := by
    simp [hdomain, hat]
  have hempty : localPartOf (String.ofList ('@' :: domain)) = "" := by
    rw [localPartOf, String.toList_ofList]
    rfl
  have hdomain : domainPartOf (String.ofList ('@' :: domain)) = String.ofList domain := by
    rw [domainPartOf, String.toList_ofList]
    rfl
  rw [hempty, hdomain]
  exact if_neg (Bool.eq_false_iff.mp hparts)

theorem isAliasAddress_of_split {split : SplitAddress}
    (hsplit : splitAliasAddress toLowerCase value = some split) :
    IsAddress value ∨ IsCatchAll value := by
  rw [splitAliasAddress.eq_def] at hsplit
  by_cases hbroken : (value.any fun c => isSpace c || isControl c) = true
  · rw [if_pos hbroken] at hsplit
    cases hsplit
  · rw [if_neg hbroken] at hsplit
    rw [Bool.not_eq_true, List.any_eq_false] at hbroken
    have hvalue : Unbroken value := by
      intro c hc
      simpa using hbroken c hc
    split at hsplit
    · rename_i domain
      split at hsplit
      · cases hsplit
      · rename_i hparts
        simp only [Bool.or_eq_true, List.isEmpty_iff, decide_eq_true_eq, not_or] at hparts
        exact Or.inr ⟨hvalue, domain, rfl, hparts.1, hparts.2⟩
    · exact Or.inl (isAddress_of_split hsplit)

end Addresses

end Parsers

end MailPanel

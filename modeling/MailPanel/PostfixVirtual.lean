import MailPanel.ScriptText

/-
The alias table as the panel reads it: a line for an address or a catch-all, with its
recipients.  A line that does not parse is reported, and never an entry.
-/

namespace MailPanel

namespace Aliases

open ScriptText

def isControl (c : Char) : Bool := c.toNat ≤ 0x1f || c.toNat = 0x7f

/-- The lines before `\r\n`, `\r` and `\n`; the first argument is the line read so far. -/
def splitFrom (line : List Char) : List Char → List (List Char)
  | [] => [line.reverse]
  | '\r' :: '\n' :: rest => line.reverse :: splitFrom [] rest
  | '\r' :: rest => line.reverse :: splitFrom [] rest
  | '\n' :: rest => line.reverse :: splitFrom [] rest
  | c :: rest => splitFrom (c :: line) rest

def splitLines (content : List Char) : List (List Char) :=
  if content.isEmpty then [] else splitFrom [] content

def isBlankOrComment (trimmedLine : List Char) : Bool :=
  trimmedLine.isEmpty || trimmedLine.head? = some '#'

structure SplitAddress where
  address : String
  localPart : String
  domain : String
deriving DecidableEq, Repr

section Parser

variable (toLowerCase : String → String)

/-- One `@`, with something on either side, and no blank or control character. -/
def splitEmailAddress (value : List Char) : Option SplitAddress :=
  if value.any fun c => isSpace c || isControl c then none
  else
    match value.takeWhile (· ≠ '@'), value.dropWhile (· ≠ '@') with
    | localPart, '@' :: domain =>
        if localPart.isEmpty || domain.isEmpty || '@' ∈ domain then none
        else some ⟨String.ofList value, String.ofList localPart,
          toLowerCase (String.ofList domain)⟩
    | _, _ => none

def splitAliasAddress (value : List Char) : Option SplitAddress :=
  if value.any fun c => isSpace c || isControl c then none
  else
    match value with
    | '@' :: domain =>
        if domain.isEmpty || '@' ∈ domain then none
        else some ⟨String.ofList value, "", toLowerCase (String.ofList domain)⟩
    | _ => splitEmailAddress toLowerCase value

/-- A line of the file of aliases as the parser gives it: an address, cut at its at sign, and
the recipients in the order of the line. -/
structure PostfixVirtualEntry where
  address : String
  isCatchAll : Bool
  localPart : String
  domain : String
  recipients : List String
deriving DecidableEq, Repr

structure ParseIssue where
  line : Nat
  raw : String
  reason : String
deriving DecidableEq, Repr

/-- The first word, and what follows the blanks after it. A line break in the rest makes the
expression of the source fail. -/
def splitAddressAndRecipients (trimmedLine : List Char) : Option (List Char × List Char) :=
  let address := trimmedLine.takeWhile fun c => !isSpace c
  let recipients := (trimmedLine.dropWhile fun c => !isSpace c).dropWhile isSpace
  if address.isEmpty || recipients.isEmpty ||
      recipients.any (fun c => c ∈ ['\n', '\r', '\u2028', '\u2029']) then none
  else some (address, recipients)

/-- The words between commas and blanks. -/
def recipientTokens (recipientsRaw : List Char) : List (List Char) :=
  (recipientsRaw.splitOnP fun c => c = ',' || isSpace c).filter fun token => !token.isEmpty

/-- A line of the file of aliases. The address ends at the first blank, every recipient has to
be an address, and what is wrong is an issue with the line's number. -/
def parseLine (lineNumber : Nat) (rawLine : List Char) :
    Option (Except ParseIssue PostfixVirtualEntry) :=
  let line := trim rawLine
  let issue := fun reason => some (.error ⟨lineNumber, String.ofList rawLine, reason⟩)
  if isBlankOrComment line then none
  else
    match splitAddressAndRecipients line with
    | none =>
        issue ("expected \"<alias-or-@domain> <recipient1>[,<recipient2>,...]\" " ++
          "(no recipient field found)")
    | some (addressField, recipientsRaw) =>
        match splitAliasAddress toLowerCase addressField with
        | none =>
            issue ("\"" ++ String.ofList addressField ++
              "\" is not a valid alias address or @domain catch-all")
        | some split =>
            let tokens := recipientTokens recipientsRaw
            if tokens.isEmpty then issue "no recipients listed"
            else
              match tokens.find? fun token => (splitEmailAddress toLowerCase token).isNone with
              | some invalid =>
                  issue ("recipient \"" ++ String.ofList invalid ++
                    "\" is not a valid email address")
              | none =>
                  some (.ok
                    { address := split.address
                      isCatchAll := addressField.head? = some '@'
                      localPart := split.localPart
                      domain := split.domain
                      recipients := tokens.map String.ofList })

structure ParseResult where
  entries : List PostfixVirtualEntry
  issues : List ParseIssue
deriving DecidableEq, Repr

def parsePostfixVirtual (content : List Char) : ParseResult :=
  let lines := (splitLines content).zipIdx 1
  let parsed := lines.filterMap fun (rawLine, lineNumber) =>
    parseLine toLowerCase lineNumber rawLine
  { entries := parsed.filterMap Except.toOption
    issues := parsed.filterMap fun
      | .error issue => some issue
      | .ok _ => none }

end Parser

/-- What every entry of a parsed table is: an address or a catch-all, with one recipient at
least, and only addresses for recipients. -/
structure PostfixVirtualEntry.Valid (toLowerCase : String → String)
    (entry : PostfixVirtualEntry) : Prop where
  address : (splitAliasAddress toLowerCase entry.address.toList).isSome = true
  recipients_ne : entry.recipients ≠ []
  recipients : ∀ recipient ∈ entry.recipients,
    (splitEmailAddress toLowerCase recipient.toList).isSome = true

section Valid

variable {toLowerCase : String → String}

theorem splitEmailAddress_address {value : List Char} {split : SplitAddress}
    (hsplit : splitEmailAddress toLowerCase value = some split) :
    split.address = String.ofList value := by
  simp only [splitEmailAddress] at hsplit
  split at hsplit
  · exact absurd hsplit.symm (Option.some_ne_none split)
  · split at hsplit
    · split at hsplit
      · exact absurd hsplit.symm (Option.some_ne_none split)
      · rw [← Option.some.inj hsplit]
    · exact absurd hsplit.symm (Option.some_ne_none split)

theorem splitAliasAddress_address {value : List Char} {split : SplitAddress}
    (hsplit : splitAliasAddress toLowerCase value = some split) :
    split.address = String.ofList value := by
  simp only [splitAliasAddress] at hsplit
  split at hsplit
  · exact absurd hsplit.symm (Option.some_ne_none split)
  · split at hsplit
    · split at hsplit
      · exact absurd hsplit.symm (Option.some_ne_none split)
      · rw [← Option.some.inj hsplit]
    · exact splitEmailAddress_address hsplit

theorem parseLine_valid {lineNumber : Nat} {rawLine : List Char} {entry : PostfixVirtualEntry}
    (hparse : parseLine toLowerCase lineNumber rawLine = some (.ok entry)) :
    entry.Valid toLowerCase := by
  simp only [parseLine] at hparse
  split at hparse
  · exact absurd hparse.symm (Option.some_ne_none _)
  · split at hparse
    · cases hparse
    · rename_i addressField recipientsRaw _
      split at hparse
      · cases hparse
      · rename_i split hsplit
        split at hparse
        · cases hparse
        · rename_i htokens
          split at hparse
          · cases hparse
          · rename_i hvalid
            cases hparse
            refine ⟨?_, ?_, ?_⟩
            · change (splitAliasAddress toLowerCase split.address.toList).isSome = true
              rw [splitAliasAddress_address hsplit, String.toList_ofList, hsplit]
              rfl
            · simpa using htokens
            · intro recipient hrecipient
              obtain ⟨token, htoken, rfl⟩ := List.mem_map.mp hrecipient
              have hsome := List.find?_eq_none.mp hvalid token htoken
              rw [String.toList_ofList]
              exact Option.isNone_eq_false_iff.mp (Bool.eq_false_iff.mpr hsome)

/-- Whatever the file holds, the entries that are read from it are valid. -/
theorem parsePostfixVirtual_valid (content : List Char) :
    ∀ entry ∈ (parsePostfixVirtual toLowerCase content).entries, entry.Valid toLowerCase := by
  intro entry hentry
  obtain ⟨result, hresult, hok⟩ := List.mem_filterMap.mp hentry
  obtain ⟨⟨rawLine, lineNumber⟩, _, hparse⟩ := List.mem_filterMap.mp hresult
  cases result with
  | error issue => exact absurd hok.symm (Option.some_ne_none entry)
  | ok parsed =>
      obtain rfl := Option.some.inj hok
      exact parseLine_valid hparse

end Valid

end Aliases

end MailPanel

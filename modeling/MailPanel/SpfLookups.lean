import MailPanel.ScriptText

/-
The check of a domain's SPF record: its terms that query the DNS are counted through every
include and redirect.
-/

namespace MailPanel

namespace Spf

open ScriptText

/-- Texts are lists of characters, so that they can be taken apart. -/
abbrev Text := List Char

/-- What a failed lookup throws. Either part may be missing. -/
structure DnsError where
  code : Option Text
  message : Option Text
deriving DecidableEq, Repr

/-- A lookup fails because there is nothing, or for some other reason. -/
inductive DnsFailureClass where
  | missing
  | unknown
deriving DecidableEq, Repr

/-- The two codes that say that there is nothing. -/
def classifyDnsError (error : DnsError) : DnsFailureClass :=
  if error.code ∈ [some "ENOTFOUND".toList, some "ENODATA".toList] then .missing else .unknown

/-- The text for a failed lookup, by its code or else its message. -/
def describeDnsError (error : DnsError) : Text :=
  match error.code, error.message with
  | some code, _ => "DNS lookup failed (".toList ++ code ++ ")".toList
  | none, some message => "DNS lookup failed: ".toList ++ message
  | none, none => "DNS lookup failed".toList

/-- `resolveTxt`: the records of a domain, in chunks, as the resolver of a moment answers it. -/
abbrev Zone := Text → Except DnsError (List (List Text))

/-- `/^v=spf1(?:\s|$)/i`: the version in any case, and then a blank or the end. -/
def isSpfRecord (record : Text) : Bool :=
  (record.take 6).map Char.toLower = "v=spf1".toList && (record.drop 6).head?.all isSpace

/-- The SPF records of a domain, each put together from its chunks. -/
def fetchSpfRecords (zone : Zone) (domain : Text) : Except DnsError (List Text) :=
  (zone domain).map fun txts => (txts.map List.flatten).filter isSpfRecord

/-- `split(/\s+/)`, of a text without blanks at its ends. -/
def splitBlanks (text : Text) : List Text :=
  (text.splitOnP isSpace).filter fun token => !token.isEmpty

/-- The characters that may stand before a mechanism. -/
def qualifiers : List Char := ['+', '-', '~', '?']

/-- `replace(/^[+\-~?]/, '')`: at most one qualifier goes. -/
def withoutQualifier (token : Text) : Text :=
  match token with
  | c :: rest => if c ∈ qualifiers then rest else token
  | [] => []

/-- What a term asks for; the domain of an include or a redirect as it is spelled. Everything
that queries the DNS without leading to another record is one kind. -/
inductive Term where
  | all
  | query
  | includes (spec : Text)
  | redirects (spec : Text)
  | other
deriving DecidableEq, Repr

section Check

variable (toLowerCase : Text → Text)

/-- What a token of a record asks of the resolver. A token that is not understood asks for
nothing. -/
def termOf (token : Text) : Term :=
  let bare := withoutQualifier token
  let lower := toLowerCase bare
  let startsWith := fun front : String => front.toList.isPrefixOf lower
  if lower = "all".toList then .all
  else if lower = [] ∨ startsWith "ip4:" ∨ startsWith "ip6:" then .other
  else if lower = "a".toList ∨ startsWith "a:" ∨ startsWith "a/" then .query
  else if lower = "mx".toList ∨ startsWith "mx:" ∨ startsWith "mx/" then .query
  else if lower = "ptr".toList ∨ startsWith "ptr:" then .query
  else if startsWith "exists:" then .query
  else if startsWith "include:" then .includes (bare.drop "include:".length)
  else if startsWith "redirect=" then .redirects (bare.drop "redirect=".length)
  else .other

/-- The tokens after the version, in their order. -/
def termsOf (record : Text) : List Term :=
  ((splitBlanks (trim record)).drop 1).map (termOf toLowerCase)

/-- How deep includes are followed, against records that include each other. -/
def maxSpfRecursionDepth : Nat := 10

/-- The limit of the standard on lookups that one evaluation may cause. -/
def spfRfcLookupLimit : Nat := 10

/-- The loop over the terms: the count, and the domains visited by then. A nested record is
counted by the function that it is given, and a failed lookup leaves no count at all. -/
def countTerms (zone : Zone) (countNested : Text → List Text → Option (Nat × List Text)) :
    List Term → List Text → Option (Nat × List Text)
  | [], visited => some (0, visited)
  | term :: terms, visited =>
      let skip := (countTerms zone countNested terms visited).map fun (count, visited) =>
        (count + 1, visited)
      let follow := fun spec : Text =>
        let target := toLowerCase spec
        if target = [] ∨ target ∈ visited then skip
        else
          match fetchSpfRecords zone target with
          | .error _ => none
          | .ok [nested] =>
              match countNested nested (target :: visited) with
              | none => none
              | some (nestedCount, visited) =>
                  (countTerms zone countNested terms visited).map fun (count, visited) =>
                    (count + nestedCount + 1, visited)
          | .ok _ =>
              (countTerms zone countNested terms (target :: visited)).map fun (count, visited) =>
                (count + 1, visited)
      match term with
      | .all => countTerms zone countNested terms visited
      | .other => countTerms zone countNested terms visited
      | .query => skip
      | .includes spec => follow spec
      | .redirects spec => follow spec

/-- `none` where a nested lookup failed, or no level is left: the depth is what is missing to
`MAX_SPF_RECURSION_DEPTH + 1` levels. -/
def countSpfLookups (zone : Zone) : Nat → Text → List Text → Option (Nat × List Text)
  | 0, _, _ => none
  | levels + 1, record, visited =>
      countTerms toLowerCase zone (countSpfLookups zone levels) (termsOf toLowerCase record) visited

/-- What a record says about all other senders. -/
inductive SpfAllQualifier where
  | pass
  | fail
  | softFail
  | neutral
deriving DecidableEq, Repr

/-- `/^([+\-~?]?)all$/i`, with the plus sign where no qualifier stands. -/
def allToken (token : Text) : Option SpfAllQualifier :=
  if (withoutQualifier token).map Char.toLower = "all".toList then
    some <|
      if token.head? = some '-' then .fail
      else if token.head? = some '~' then .softFail
      else if token.head? = some '?' then .neutral
      else .pass
  else none

/-- The last `all` of a record, if it has one. -/
def extractAllQualifier (record : Text) : Option SpfAllQualifier :=
  ((splitBlanks (trim record)).filterMap allToken).getLast?

/-- How serious a finding is. -/
inductive Severity where
  | info
  | warning
  | error
deriving DecidableEq, Repr

/-- A finding that the panel shows. -/
structure DnsIssue where
  severity : Severity
  message : Text
deriving DecidableEq, Repr

/-- The finding about the end of a record, by its qualifier, with the texts of the panel. -/
def allQualifierIssue : Option SpfAllQualifier → DnsIssue
  | some .fail => ⟨.info, "Hardfail (-all) — SPF is enforced for this domain.".toList⟩
  | some .softFail =>
      ⟨.info, "Softfail (~all) — SPF is in monitoring mode, not fully enforced.".toList⟩
  | some .neutral => ⟨.warning, "Neutral (?all) provides no meaningful protection.".toList⟩
  | some .pass =>
      ⟨.warning, ("Pass-all (+all) permits any host to send as this domain — SPF provides no " ++
        "protection.").toList⟩
  | none =>
      ⟨.warning, ("No \"all\" mechanism found — the record has no default/catch-all " ++
        "action.").toList⟩

/-- What the panel says of a domain's SPF as a whole: no record, a lookup that failed, a
record that is broken or not the only one, one whose lookups could not be counted, or one
that is fine. -/
inductive SpfState where
  | missing
  | unknown
  | invalid
  | detected
  | valid
deriving DecidableEq, Repr

/-- The answer of the check, with everything that it has found out: the state, the records, the
count of lookups, the last mechanism's qualifier, and the issues. -/
structure SpfCheck where
  state : SpfState
  record : Option Text
  allRecords : List Text
  lookupCount : Option Nat
  allQualifier : Option SpfAllQualifier
  issues : List DnsIssue
deriving DecidableEq, Repr

/-- A number in the text of a finding. -/
def number (value : Nat) : Text := (toString value).toList

/-- The finding about the number of lookups, which is there when the number is too high or could
not be determined. -/
def countIssues : Option Nat → List DnsIssue
  | none =>
      [⟨.warning, ("The DNS lookup count could not be fully determined (a nested " ++
        "include/redirect lookup failed).").toList⟩]
  | some lookupCount =>
      if spfRfcLookupLimit < lookupCount then
        [⟨.error, "This record requires ".toList ++ number lookupCount ++
          " DNS lookups, exceeding the RFC 7208 limit of ".toList ++ number spfRfcLookupLimit ++
          " — receivers may treat it as a permanent error (permerror).".toList⟩]
      else []

/-- The check of a domain: no record, one record or several, and of one record its lookups and
its end. -/
def checkSpf (zone : Zone) (domain : Text) : SpfCheck :=
  match fetchSpfRecords zone domain with
  | .error error =>
      if classifyDnsError error = .missing then ⟨.missing, none, [], none, none, []⟩
      else ⟨.unknown, none, [], none, none, [⟨.error, describeDnsError error⟩]⟩
  | .ok [] => ⟨.missing, none, [], none, none, []⟩
  | .ok [record] =>
      let allQualifier := extractAllQualifier record
      let lookupCount := (countSpfLookups toLowerCase zone (maxSpfRecursionDepth + 1) record
        [toLowerCase domain]).map Prod.fst
      let issues := allQualifierIssue allQualifier :: countIssues lookupCount
      let hasError := issues.any fun issue => issue.severity = .error
      ⟨if hasError then .invalid else if lookupCount = none then .detected else .valid,
        some record, [record], lookupCount, allQualifier, issues⟩
  | .ok allRecords =>
      ⟨.invalid, none, allRecords, none, none,
        [⟨.error, number allRecords.length ++
          (" SPF records found — RFC 7208 permits exactly one \"v=spf1\" record per " ++
            "domain.").toList⟩]⟩

end Check

end Spf

end MailPanel

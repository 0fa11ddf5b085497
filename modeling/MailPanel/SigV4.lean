import Mathlib.Data.Finmap
import Mathlib.Data.Finset.Sort
import MailPanel.DmsEnvironment
import MailPanel.DmsValidators
import MailPanel.IsoTime
import MailPanel.PercentEscape
import MailPanel.UrlPath
import MailPanel.Utf16Text

/-
Requests to an S3 store, signed over a text that has to say which request was meant.
-/

namespace MailPanel

namespace SigV4

open ScriptText PercentEscape IsoTime

/-- A record, whatever the order of its names. -/
abbrev Headers := Finmap fun _ : Text => Text

structure SigV4Credentials where
  accessKeyId : Text
  secretAccessKey : Text
  region : Text
  service : Text
deriving DecidableEq, Repr

/-- What the signer reads of a URL, with its parameters as they were set. -/
structure RequestUrl where
  host : Text
  pathname : Text
  searchParams : List (Text × Text)
deriving DecidableEq, Repr

structure SigV4SignParams where
  method : Text
  url : RequestUrl
  headers : List (Text × Text)
  payloadSha256 : Text
deriving DecidableEq, Repr

/-- The functions of the runtime: digests, and letters in the other case. -/
structure Runtime where
  sha256 : List UInt8 → List UInt8
  hmac : List UInt8 → List UInt8 → List UInt8
  toUpperCase : Text → Text
  toLowerCase : Text → Text

def hexDigest (bytes : List UInt8) : Text :=
  bytes.flatMap fun byte => [Nat.digitChar (byte.toNat / 16), Nat.digitChar (byte.toNat % 16)]

def isUnreserved (c : Char) : Bool := c.isAlphanum || c ∈ ['-', '.', '_', '~']

def awsUriEncode (input : Text) (encodeSlash : Bool) : Text :=
  escape (fun c => isUnreserved c || c = '/' && !encodeSlash) input

/-- `text.replace(/[:-]|\.\d{3}/g, '')`. Of a time as it is written by the language, letters and
digits are left. -/
def stripMarks : Text → Text
  | [] => []
  | '.' :: first :: second :: third :: rest =>
      if first.isDigit && second.isDigit && third.isDigit then stripMarks rest
      else '.' :: stripMarks (first :: second :: third :: rest)
  | c :: rest => if c = ':' ∨ c = '-' then stripMarks rest else c :: stripMarks rest

structure AmzDates where
  amzDate : Text
  dateStamp : Text
deriving DecidableEq, Repr

def amzDates (now : ℕ) : AmzDates :=
  let amzDate := stripMarks (isoText now)
  ⟨amzDate, amzDate.take 8⟩

example : amzDates 1369353600000 = ⟨"20130524T000000Z".toList, "20130524".toList⟩ := by
  decide

/-- Texts are compared unit by unit. -/
def units (text : Text) : List ℕ := (encodeUtf16 text).map UInt16.toNat

def UnitsLe (a b : Text) : Prop := units a ≤ units b

/-- Texts with the same units are the same text. -/
theorem units_injective : Function.Injective units := by
  intro a b hunits
  have hutf16 : encodeUtf16 a = encodeUtf16 b :=
    List.map_injective_iff.mpr (fun _ _ heq => UInt16.toNat_inj.mp heq) hunits
  exact Function.LeftInverse.injective decodeUtf16_encodeUtf16 hutf16

instance : DecidableRel UnitsLe := fun a b => inferInstanceAs (Decidable (units a ≤ units b))

instance : IsTrans Text UnitsLe :=
  ⟨fun a b c hab hbc => @le_trans _ _ (units a) (units b) (units c) hab hbc⟩

instance : Std.Antisymm UnitsLe :=
  ⟨fun a b hab hba => units_injective (@le_antisymm _ _ (units a) (units b) hab hba)⟩

instance : Std.Total UnitsLe := ⟨fun a b => le_total (units a) (units b)⟩

/-- The canonical lines of the headers, and the names that are signed. -/
def canonicalHeaders (headers : Headers) : Text × Text :=
  let names := headers.keys.sort UnitsLe
  (names.flatMap fun name => name ++ ':' :: (headers.lookup name).getD "undefined".toList ++ ['\n'],
    [';'].intercalate names)

def comparePairs (a b : Text × Text) : Ordering :=
  if units a.1 < units b.1 then .lt
  else if units b.1 < units a.1 then .gt
  else if units a.2 < units b.2 then .lt
  else if units b.2 < units a.2 then .gt
  else .eq

def canonicalQueryString (url : RequestUrl) : Text :=
  let pairs := url.searchParams.map fun entry =>
    (awsUriEncode entry.1 true, awsUriEncode entry.2 true)
  ['&'].intercalate ((pairs.mergeSort fun a b => (comparePairs a b).isLE).map fun pair =>
    pair.1 ++ '=' :: pair.2)

def canonicalUri (url : RequestUrl) : Text :=
  let encoded := ['/'].intercalate ((url.pathname.splitOn '/').map (awsUriEncode · true))
  if encoded = [] then ['/'] else encoded

section Signing

variable (runtime : Runtime)

def sha256Hex (data : Text) : Text := hexDigest (runtime.sha256 (encodeUtf8 data))

/-- The headers that are signed and sent, the signature apart. -/
def requestHeaders (params : SigV4SignParams) (now : ℕ) : Headers :=
  let given := params.headers.foldl (fun (headers : Headers) entry =>
    headers.insert (runtime.toLowerCase entry.1) (trim entry.2)) ∅
  ((given.insert "host".toList params.url.host).insert "x-amz-date".toList
    (amzDates now).amzDate).insert "x-amz-content-sha256".toList params.payloadSha256

def canonicalRequest (params : SigV4SignParams) (now : ℕ) : Text :=
  let headers := canonicalHeaders (requestHeaders runtime params now)
  ['\n'].intercalate
    [runtime.toUpperCase params.method, canonicalUri params.url, canonicalQueryString params.url,
      headers.1, headers.2, params.payloadSha256]

def credentialScope (credentials : SigV4Credentials) (now : ℕ) : Text :=
  (amzDates now).dateStamp ++ '/' :: credentials.region ++ '/' :: credentials.service ++
    "/aws4_request".toList

def stringToSign (params : SigV4SignParams) (credentials : SigV4Credentials) (now : ℕ) : Text :=
  ['\n'].intercalate
    ["AWS4-HMAC-SHA256".toList, (amzDates now).amzDate, credentialScope credentials now,
      sha256Hex runtime (canonicalRequest runtime params now)]

def signature (params : SigV4SignParams) (credentials : SigV4Credentials) (now : ℕ) : Text :=
  let kDate := runtime.hmac (encodeUtf8 ("AWS4".toList ++ credentials.secretAccessKey))
    (encodeUtf8 (amzDates now).dateStamp)
  let kRegion := runtime.hmac kDate (encodeUtf8 credentials.region)
  let kService := runtime.hmac kRegion (encodeUtf8 credentials.service)
  let kSigning := runtime.hmac kService (encodeUtf8 "aws4_request".toList)
  hexDigest (runtime.hmac kSigning (encodeUtf8 (stringToSign runtime params credentials now)))

def signRequestV4 (params : SigV4SignParams) (credentials : SigV4Credentials) (now : ℕ) :
    Headers :=
  let headers := requestHeaders runtime params now
  headers.insert "authorization".toList
    ("AWS4-HMAC-SHA256 Credential=".toList ++ credentials.accessKeyId ++
      '/' :: credentialScope credentials now ++ ", SignedHeaders=".toList ++
      (canonicalHeaders headers).2 ++ ", Signature=".toList ++
      signature runtime params credentials now)

end Signing

/- Lines -/

/-- Pieces can be told from the joined text when none of them holds the separator. -/
theorem intercalate_injective {sep : Char} {pieces others : List Text}
    (hpieces : ∀ piece ∈ pieces, sep ∉ piece) (hothers : ∀ piece ∈ others, sep ∉ piece)
    (hne : pieces ≠ []) (hother : others ≠ [])
    (heq : [sep].intercalate pieces = [sep].intercalate others) : pieces = others := by
  have hsplit := congrArg (·.splitOn sep) heq
  rwa [List.splitOn_intercalate sep hpieces hne, List.splitOn_intercalate sep hothers hother]
    at hsplit

/-- A part made of whole lines gives these lines and an empty one, which is where the blank line
of the request comes from. -/
theorem intercalate_lines (lines rest : List Text) :
    ['\n'].intercalate (lines.flatMap (· ++ ['\n']) :: rest) =
      ['\n'].intercalate (lines ++ [] :: rest) := by
  induction lines with
  | nil => rfl
  | cons line lines ih =>
      have hne : lines ++ [] :: rest ≠ [] :=
        List.append_ne_nil_of_right_ne_nil _ (List.cons_ne_nil _ _)
      rw [List.cons_append, List.intercalate_cons_of_ne_nil hne, ← ih, List.flatMap_cons]
      cases rest with
      | nil => rw [List.intercalate_singleton, List.intercalate_singleton]
      | cons next rest =>
          rw [List.intercalate_cons_cons, List.intercalate_cons_cons]
          simp only [List.append_assoc]

/-- Names and values, each set apart by a mark. -/
def marked (mark : Char) (entry : Text × Text) : Text := entry.1 ++ mark :: entry.2

/-- Names and values can be told from each other when no name holds the mark. A value may hold
it. -/
theorem marked_injective {mark : Char} {entries others : List (Text × Text)}
    (hentries : ∀ entry ∈ entries, mark ∉ entry.1) (hothers : ∀ entry ∈ others, mark ∉ entry.1)
    (hlines : entries.map (marked mark) = others.map (marked mark)) : entries = others := by
  induction entries generalizing others with
  | nil => exact (List.map_eq_nil_iff.mp hlines.symm).symm
  | cons entry entries ih =>
      cases others with
      | nil => exact absurd hlines (List.cons_ne_nil _ _)
      | cons other others =>
          rw [List.map_cons, List.map_cons, List.cons.injEq] at hlines
          rw [List.forall_mem_cons] at hentries hothers
          obtain ⟨hname, hvalue⟩ := Dms.cut_unique hentries.1 hothers.1 hlines.1
          rw [Prod.ext hname hvalue, ih hentries.2 hothers.2 hlines.2]

section Headers

variable {headers others : Headers}

def headerEntries (headers : Headers) : List (Text × Text) :=
  (headers.keys.sort UnitsLe).map fun name =>
    (name, (headers.lookup name).getD "undefined".toList)

/-- The header part is one line for each header, in the order of the sorted names. -/
theorem canonicalHeaders_fst (headers : Headers) :
    (canonicalHeaders headers).1 =
      ((headerEntries headers).map (marked ':')).flatMap (· ++ ['\n']) := by
  rw [canonicalHeaders, headerEntries, List.map_map, List.flatMap_map]
  rfl

/-- The entries are the names of the record with their values, and no others. -/
theorem mem_headerEntries {entry : Text × Text} :
    entry ∈ headerEntries headers ↔ headers.lookup entry.1 = some entry.2 := by
  rw [headerEntries, List.mem_map]
  constructor
  · rintro ⟨name, hname, rfl⟩
    rw [Finset.mem_sort, Finmap.mem_keys, Finmap.mem_iff] at hname
    obtain ⟨value, hvalue⟩ := hname
    rw [hvalue]
    rfl
  · intro hvalue
    refine ⟨entry.1, ?_, ?_⟩
    · rw [Finset.mem_sort, Finmap.mem_keys]
      exact Finmap.mem_of_lookup_eq_some hvalue
    · rw [hvalue]
      rfl

/-- Two records with the same entries are the same record. -/
theorem headerEntries_injective (hentries : headerEntries headers = headerEntries others) :
    headers = others := by
  refine Finmap.ext_lookup fun name => Option.ext fun value => ?_
  have hheaders : (name, value) ∈ headerEntries headers ↔ headers.lookup name = some value :=
    mem_headerEntries
  have hothers : (name, value) ∈ headerEntries others ↔ others.lookup name = some value :=
    mem_headerEntries
  rw [← hheaders, ← hothers, hentries]

end Headers

section Encoding

/-- The percent sign is always escaped, whatever becomes of a slash. -/
theorem not_keep_percent (encodeSlash : Bool) :
    (isUnreserved '%' || '%' = '/' && !encodeSlash) = false := by
  cases encodeSlash
  · decide
  · decide

/-- A text can be told from its encoding, because the sign that introduces an escape is itself
escaped. -/
theorem awsUriEncode_injective (encodeSlash : Bool) :
    Function.Injective (awsUriEncode · encodeSlash) :=
  escape_injective (not_keep_percent encodeSlash)

/-- The marks of a query string are in no name and no value, once these are encoded. -/
theorem not_mem_awsUriEncode {input : Text} {encodeSlash : Bool} {c : Char}
    (hc : c ∈ ['&', '=', '\n']) : c ∉ awsUriEncode input encodeSlash := by
  intro hmem
  have hclosed : ∀ c ∈ ['&', '=', '\n'], isUnreserved c = false ∧ c ≠ '/' ∧ c ≠ '%' ∧
      c.isAlphanum = false :=
    List.forall_mem_cons.mpr ⟨by decide, List.forall_mem_cons.mpr ⟨by decide,
      List.forall_mem_cons.mpr ⟨by decide, fun _ hnil => absurd hnil List.not_mem_nil⟩⟩⟩
  obtain ⟨hreserved, hslash, hpercent, halphanum⟩ := hclosed c hc
  rcases mem_escape hmem with hkeep | hkeep | hkeep
  · rw [hreserved, Bool.false_or, decide_eq_false hslash] at hkeep
    exact Bool.false_ne_true hkeep
  · exact hpercent hkeep
  · exact Bool.false_ne_true (halphanum.symm.trans hkeep)

/-- Encoding the parts of a path between slashes is encoding the path and leaving its slashes. -/
theorem canonicalUri_eq {url : RequestUrl} (hpathname : url.pathname ≠ []) :
    canonicalUri url = awsUriEncode url.pathname false := by
  have hsegments : ∀ segments : List Text, (∀ segment ∈ segments, '/' ∉ segment) →
      ['/'].intercalate (segments.map (awsUriEncode · true)) =
        awsUriEncode (['/'].intercalate segments) false := by
    intro segments hslash
    induction segments with
    | nil => rfl
    | cons segment segments ih =>
        rw [List.forall_mem_cons] at hslash
        have hsegment : awsUriEncode segment true = awsUriEncode segment false := by
          refine List.flatMap_congr fun c hc => ?_
          have hne : c ≠ '/' := fun heq => hslash.1 (heq ▸ hc)
          rw [escapeChar, escapeChar, decide_eq_false hne, Bool.false_and, Bool.false_and]
        cases segments with
        | nil =>
            rw [List.map_singleton, List.intercalate_singleton, List.intercalate_singleton,
              hsegment]
        | cons next segments =>
            have hnext := ih hslash.2
            rw [List.map_cons] at hnext
            rw [List.map_cons, List.map_cons, List.intercalate_cons_cons, hnext,
              List.intercalate_cons_cons, awsUriEncode, awsUriEncode, awsUriEncode,
              escape_append, escape_append]
            rw [awsUriEncode, awsUriEncode] at hsegment
            rw [hsegment]
            rfl
  have hwhole := hsegments (url.pathname.splitOn '/')
    fun segment hmem => notMem_of_mem_splitOn hmem
  have hjoined : ['/'].intercalate (url.pathname.splitOn '/') = url.pathname :=
    List.intercalate_splitOn '/'
  rw [hjoined] at hwhole
  have hne : awsUriEncode url.pathname false ≠ [] := by
    rw [awsUriEncode, Ne, escape_eq_nil_iff (not_keep_percent false)]
    exact hpathname
  rw [canonicalUri, hwhole]
  exact if_neg hne

end Encoding

section Query

/-- The parameters as they are sorted and written. -/
def encodedPair (entry : Text × Text) : Text × Text :=
  (awsUriEncode entry.1 true, awsUriEncode entry.2 true)

/-- Parameters can be told from their encodings. -/
theorem encodedPair_injective : Function.Injective encodedPair := by
  rintro ⟨name, value⟩ ⟨other, otherValue⟩ heq
  obtain ⟨hname, hvalue⟩ := Prod.mk.inj heq
  exact Prod.ext (awsUriEncode_injective true hname) (awsUriEncode_injective true hvalue)

def sortedPairs (url : RequestUrl) : List (Text × Text) :=
  (url.searchParams.map encodedPair).mergeSort fun a b => (comparePairs a b).isLE

theorem canonicalQueryString_eq (url : RequestUrl) :
    canonicalQueryString url =
      ['&'].intercalate ((sortedPairs url).map (marked '=')) :=
  rfl

/-- Sorting neither adds nor drops a parameter. -/
theorem sortedPairs_perm (url : RequestUrl) :
    (sortedPairs url).Perm (url.searchParams.map encodedPair) :=
  List.mergeSort_perm _ _

theorem mem_sortedPairs {url : RequestUrl} {pair : Text × Text} (hmem : pair ∈ sortedPairs url) :
    ∃ entry : Text × Text, encodedPair entry = pair := by
  obtain ⟨entry, -, heq⟩ := List.mem_map.mp ((sortedPairs_perm url).mem_iff.mp hmem)
  exact ⟨entry, heq⟩

/-- The order of the written parameters is that of their units, name first. -/
theorem comparePairs_isLE_iff (a b : Text × Text) :
    (comparePairs a b).isLE = true ↔
      units a.1 < units b.1 ∨ units a.1 = units b.1 ∧ units a.2 ≤ units b.2 := by
  rw [comparePairs]
  rcases lt_trichotomy (units a.1) (units b.1) with hlt | heq | hgt
  · rw [if_pos hlt]
    exact iff_of_true rfl (Or.inl hlt)
  · rw [heq, if_neg (lt_irrefl _), if_neg (lt_irrefl _)]
    rcases lt_trichotomy (units a.2) (units b.2) with hlt | hsame | hgt
    · rw [if_pos hlt]
      exact iff_of_true rfl (Or.inr ⟨rfl, hlt.le⟩)
    · rw [hsame, if_neg (lt_irrefl _), if_neg (lt_irrefl _)]
      exact iff_of_true rfl (Or.inr ⟨rfl, le_rfl⟩)
    · rw [if_neg hgt.le.not_gt, if_pos hgt]
      refine iff_of_false Bool.false_ne_true ?_
      rintro (hfirst | ⟨-, hsecond⟩)
      · exact lt_irrefl _ hfirst
      · exact hsecond.not_gt hgt
  · rw [if_neg hgt.le.not_gt, if_pos hgt]
    refine iff_of_false Bool.false_ne_true ?_
    rintro (hfirst | ⟨hsame, -⟩)
    · exact hfirst.not_gt hgt
    · exact hgt.ne' hsame

/-- The parameters are in the order of their units, first by name and then by value. -/
theorem pairwise_sortedPairs (url : RequestUrl) :
    (sortedPairs url).Pairwise fun a b => (comparePairs a b).isLE = true := by
  refine List.pairwise_mergeSort (fun a b c hab hbc => ?_) (fun a b => ?_) _
  · rw [comparePairs_isLE_iff] at hab hbc ⊢
    rcases hab with hab | ⟨hab, hab'⟩
    · rcases hbc with hbc | ⟨hbc, -⟩
      · exact Or.inl (hab.trans hbc)
      · exact Or.inl (hbc ▸ hab)
    · rcases hbc with hbc | ⟨hbc, hbc'⟩
      · exact Or.inl (hab ▸ hbc)
      · exact Or.inr ⟨hab.trans hbc, hab'.trans hbc'⟩
  · rw [Bool.or_eq_true, comparePairs_isLE_iff, comparePairs_isLE_iff]
    rcases lt_trichotomy (units a.1) (units b.1) with hlt | heq | hgt
    · exact Or.inl (Or.inl hlt)
    · rcases le_total (units a.2) (units b.2) with hle | hle
      · exact Or.inl (Or.inr ⟨heq, hle⟩)
      · exact Or.inr (Or.inr ⟨heq.symm, hle⟩)
    · exact Or.inr (Or.inl hgt)

/-- The order in which parameters were set is not in the text, since equal pairs cannot be told
apart. -/
theorem sortedPairs_eq_of_perm {url other : RequestUrl}
    (hperm : url.searchParams.Perm other.searchParams) : sortedPairs url = sortedPairs other := by
  have hsorted : (sortedPairs url).Perm (sortedPairs other) :=
    (sortedPairs_perm url).trans ((hperm.map encodedPair).trans (sortedPairs_perm other).symm)
  refine hsorted.eq_of_pairwise (fun a b _ _ hab hba => ?_) (pairwise_sortedPairs url)
    (pairwise_sortedPairs other)
  rw [comparePairs_isLE_iff] at hab hba
  rcases hab with hab | ⟨hname, hab⟩
  · rcases hba with hba | ⟨hname, -⟩
    · exact absurd hab hba.not_gt
    · exact absurd hname hab.ne'
  · rcases hba with hba | ⟨-, hba⟩
    · exact absurd hname hba.ne'
    · exact Prod.ext (units_injective hname) (units_injective (hab.antisymm hba))

theorem not_mem_marked_pair {c : Char} {url : RequestUrl} {pair : Text × Text}
    (hescaped : c ∈ ['&', '=', '\n']) (hequals : c ≠ '=') (hpair : pair ∈ sortedPairs url) :
    c ∉ marked '=' pair := by
  obtain ⟨entry, rfl⟩ := mem_sortedPairs hpair
  rw [marked, List.mem_append, List.mem_cons]
  rintro (hname | hmark | hvalue)
  · exact not_mem_awsUriEncode hescaped hname
  · exact hequals hmark
  · exact not_mem_awsUriEncode hescaped hvalue

/-- The query string is empty only without parameters: even an empty name leaves its mark. -/
theorem canonicalQueryString_eq_nil_iff (url : RequestUrl) :
    canonicalQueryString url = [] ↔ sortedPairs url = [] := by
  rw [canonicalQueryString_eq]
  cases sortedPairs url with
  | nil => exact iff_of_true rfl rfl
  | cons pair pairs =>
      refine iff_of_false ?_ (List.cons_ne_nil _ _)
      intro hnil
      have hmem : '=' ∈ ['&'].intercalate ((pair :: pairs).map (marked '=')) :=
        UrlPath.mem_intercalate_of_mem List.mem_cons_self
          (List.mem_append_right _ List.mem_cons_self)
      rw [hnil] at hmem
      exact absurd hmem List.not_mem_nil

/-- The parameters can be told from the query string, up to their order, since what joins them
is escaped inside of them. -/
theorem canonicalQueryString_injective {url other : RequestUrl}
    (hquery : canonicalQueryString url = canonicalQueryString other) :
    sortedPairs url = sortedPairs other := by
  have hwritten : ∀ url : RequestUrl, ∀ piece ∈ (sortedPairs url).map (marked '='),
      '&' ∉ piece := by
    intro url piece hpiece
    obtain ⟨pair, hpair, rfl⟩ := List.mem_map.mp hpiece
    exact not_mem_marked_pair List.mem_cons_self (by decide) hpair
  have hname : ∀ url : RequestUrl, ∀ pair ∈ sortedPairs url, '=' ∉ pair.1 := by
    intro url pair hpair
    obtain ⟨entry, rfl⟩ := mem_sortedPairs hpair
    exact not_mem_awsUriEncode (by decide)
  by_cases hnil : sortedPairs url = []
  · have hother := (canonicalQueryString_eq_nil_iff url).mpr hnil
    rw [hquery, canonicalQueryString_eq_nil_iff] at hother
    rw [hnil, hother]
  · have hother : sortedPairs other ≠ [] := by
      rwa [Ne, ← canonicalQueryString_eq_nil_iff, ← hquery, canonicalQueryString_eq_nil_iff]
    exact marked_injective (hname url) (hname other)
      (intercalate_injective (hwritten url) (hwritten other) (List.map_eq_nil_iff.not.mpr hnil)
        (List.map_eq_nil_iff.not.mpr hother) hquery)

end Query

section Requests

variable {runtime : Runtime} {params other : SigV4SignParams} {now later : ℕ}

/-- What a client can send: no part has a line end, and no name a colon. Without this two
requests could be written as one text. -/
structure Sendable (runtime : Runtime) (params : SigV4SignParams) : Prop where
  method : '\n' ∉ runtime.toUpperCase params.method
  names : ∀ entry ∈ params.headers,
    ':' ∉ runtime.toLowerCase entry.1 ∧ '\n' ∉ runtime.toLowerCase entry.1
  values : ∀ entry ∈ params.headers, '\n' ∉ trim entry.2
  host : '\n' ∉ params.url.host
  payloadSha256 : '\n' ∉ params.payloadSha256
  pathname : params.url.pathname ≠ []

/-- One request, with its parameters and its headers in any order: nothing that the signature
has to cover differs. -/
structure SameRequest (runtime : Runtime) (params : SigV4SignParams) (now : ℕ)
    (other : SigV4SignParams) (later : ℕ) : Prop where
  method : runtime.toUpperCase params.method = runtime.toUpperCase other.method
  pathname : params.url.pathname = other.url.pathname
  searchParams : params.url.searchParams.Perm other.url.searchParams
  headers : requestHeaders runtime params now = requestHeaders runtime other later
  payloadSha256 : params.payloadSha256 = other.payloadSha256

theorem mem_of_mem_stripMarks {text : Text} {c : Char} (hmem : c ∈ stripMarks text) :
    c ∈ text := by
  induction text using stripMarks.induct with
  | case1 => exact hmem
  | case2 first second third rest hdigits ih =>
      rw [stripMarks, if_pos hdigits] at hmem
      exact List.mem_cons_of_mem _ (List.mem_cons_of_mem _ (List.mem_cons_of_mem _
        (List.mem_cons_of_mem _ (ih hmem))))
  | case3 first second third rest hdigits ih =>
      rw [stripMarks, if_neg hdigits] at hmem
      rcases List.mem_cons.mp hmem with rfl | hrest
      · exact List.mem_cons_self
      · exact List.mem_cons_of_mem _ (ih hrest)
  | case4 d rest hnot hmark ih =>
      rw [stripMarks, if_pos hmark] at hmem
      · exact List.mem_cons_of_mem _ (ih hmem)
      · exact hnot
  | case5 d rest hnot hmark ih =>
      rw [stripMarks, if_neg hmark] at hmem
      · rcases List.mem_cons.mp hmem with rfl | hrest
        · exact List.mem_cons_self
        · exact List.mem_cons_of_mem _ (ih hrest)
      · exact hnot

theorem newline_not_mem_padded (width value : ℕ) : '\n' ∉ padded width value := by
  rw [padded, List.mem_append, List.mem_replicate]
  rintro (⟨-, hzero⟩ | hdigit)
  · exact absurd hzero (by decide)
  · have hten := Nat.isDigit_of_mem_toDigits (by decide) (by decide) hdigit
    exact absurd hten (by decide)

theorem newline_not_mem_isoText (now : ℕ) : '\n' ∉ isoText now := by
  have hpadded := newline_not_mem_padded
  have hyear : ∀ year, '\n' ∉ if year < 10000 then padded 4 year else '+' :: padded 6 year := by
    intro year
    split
    · exact hpadded 4 year
    · exact List.not_mem_cons_of_ne_of_not_mem (by decide) (hpadded 6 year)
  rw [isoText]
  simp only [List.mem_append, List.mem_cons, hyear, hpadded, List.not_mem_nil, false_or, or_false]
  decide

theorem newline_not_mem_amzDate (now : ℕ) : '\n' ∉ (amzDates now).amzDate := by
  intro hmem
  rw [amzDates] at hmem
  exact newline_not_mem_isoText now (mem_of_mem_stripMarks hmem)

/-- Headers with no mark in a name and no line end. -/
def Lines (headers : Headers) : Prop :=
  ∀ name value, headers.lookup name = some value → ':' ∉ name ∧ '\n' ∉ name ∧ '\n' ∉ value

/-- A header without line ends in it may be added to a record of which the same holds. -/
theorem lines_insert {headers : Headers} {name value : Text} (hlines : Lines headers)
    (hcolon : ':' ∉ name) (hname : '\n' ∉ name) (hvalue : '\n' ∉ value) :
    Lines (headers.insert name value) := by
  intro found text hfound
  by_cases heq : found = name
  · subst heq
    rw [Finmap.lookup_insert] at hfound
    obtain rfl := Option.some.inj hfound
    exact ⟨hcolon, hname, hvalue⟩
  · rw [Finmap.lookup_insert_of_ne _ heq] at hfound
    exact hlines found text hfound

/-- The headers that are signed are those of the request and three of the signer's own, and none
holds a line end. -/
theorem Sendable.lines (hsendable : Sendable runtime params) :
    Lines (requestHeaders runtime params now) := by
  have hgiven : ∀ (entries : List (Text × Text)) (headers : Headers), Lines headers →
      (∀ entry ∈ entries,
        (':' ∉ runtime.toLowerCase entry.1 ∧ '\n' ∉ runtime.toLowerCase entry.1) ∧
          '\n' ∉ trim entry.2) →
      Lines (entries.foldl (fun (headers : Headers) entry =>
        headers.insert (runtime.toLowerCase entry.1) (trim entry.2)) headers) := by
    intro entries
    induction entries with
    | nil => exact fun headers hlines _ => hlines
    | cons entry entries ih =>
        intro headers hlines hentries
        rw [List.forall_mem_cons] at hentries
        obtain ⟨⟨⟨hcolon, hname⟩, hvalue⟩, hrest⟩ := hentries
        exact ih _ (lines_insert hlines hcolon hname hvalue) hrest
  have hempty : Lines ∅ := by
    intro name value hvalue
    rw [Finmap.lookup_empty] at hvalue
    exact absurd hvalue.symm (Option.some_ne_none value)
  have hall := hgiven params.headers ∅ hempty
    fun entry hentry => ⟨hsendable.names entry hentry, hsendable.values entry hentry⟩
  exact lines_insert (lines_insert (lines_insert hall (by decide) (by decide) hsendable.host)
    (by decide) (by decide) (newline_not_mem_amzDate now)) (by decide) (by decide)
    hsendable.payloadSha256

/-- The canonical request, line by line. -/
def requestLines (runtime : Runtime) (params : SigV4SignParams) (now : ℕ) : List Text :=
  let headers := requestHeaders runtime params now
  [runtime.toUpperCase params.method, canonicalUri params.url, canonicalQueryString params.url] ++
    ((headerEntries headers).map (marked ':') ++
      [[], (canonicalHeaders headers).2, params.payloadSha256])

/-- The canonical request is its lines with line ends between them. -/
theorem canonicalRequest_eq :
    canonicalRequest runtime params now =
      ['\n'].intercalate (requestLines runtime params now) := by
  have hlines := intercalate_lines
    ((headerEntries (requestHeaders runtime params now)).map (marked ':'))
    [(canonicalHeaders (requestHeaders runtime params now)).2, params.payloadSha256]
  have hne : (headerEntries (requestHeaders runtime params now)).map (marked ':') ++
      [[], (canonicalHeaders (requestHeaders runtime params now)).2, params.payloadSha256] ≠ [] :=
    List.append_ne_nil_of_right_ne_nil _ (List.cons_ne_nil _ _)
  rw [canonicalRequest, requestLines, canonicalHeaders_fst, List.intercalate_cons_cons,
    List.intercalate_cons_cons, List.intercalate_cons_cons, hlines, List.cons_append,
    List.cons_append, List.cons_append, List.nil_append, List.intercalate_cons_cons,
    List.intercalate_cons_cons, List.intercalate_cons_of_ne_nil hne]

theorem newline_not_mem_canonicalUri (hsendable : Sendable runtime params) :
    '\n' ∉ canonicalUri params.url := by
  rw [canonicalUri_eq hsendable.pathname]
  exact not_mem_awsUriEncode (by decide)

theorem newline_not_mem_canonicalQueryString (url : RequestUrl) :
    '\n' ∉ canonicalQueryString url := by
  rw [canonicalQueryString_eq]
  intro hmem
  rcases Dms.mem_intercalate hmem with hmark | ⟨piece, hpiece, hpart⟩
  · exact absurd hmark (by decide)
  · obtain ⟨pair, hpair, rfl⟩ := List.mem_map.mp hpiece
    exact not_mem_marked_pair (by decide) (by decide) hpair hpart

theorem newline_not_mem_signedHeaders {headers : Headers} (hlines : Lines headers) :
    '\n' ∉ (canonicalHeaders headers).2 := by
  intro hmem
  rcases Dms.mem_intercalate hmem with hmark | ⟨name, hname, hpart⟩
  · exact absurd hmark (by decide)
  · rw [Finset.mem_sort, Finmap.mem_keys, Finmap.mem_iff] at hname
    obtain ⟨value, hvalue⟩ := hname
    exact (hlines name value hvalue).2.1 hpart

/-- No line of the canonical request holds a line end, so that the lines can be told from the
text. -/
theorem newline_not_mem_requestLines (hsendable : Sendable runtime params) :
    ∀ line ∈ requestLines runtime params now, '\n' ∉ line := by
  have hlines : Lines (requestHeaders runtime params now) := hsendable.lines
  intro line hline
  rw [requestLines, List.mem_append, List.mem_append] at hline
  rcases hline with hfirst | hheader | hlast
  · simp only [List.mem_cons, List.not_mem_nil, or_false] at hfirst
    rcases hfirst with rfl | rfl | rfl
    · exact hsendable.method
    · exact newline_not_mem_canonicalUri hsendable
    · exact newline_not_mem_canonicalQueryString params.url
  · obtain ⟨entry, hentry, rfl⟩ := List.mem_map.mp hheader
    obtain ⟨-, hname, hvalue⟩ := hlines entry.1 entry.2 (mem_headerEntries.mp hentry)
    rw [marked, List.mem_append, List.mem_cons]
    rintro (hmem | hmem | hmem)
    · exact hname hmem
    · exact absurd hmem (by decide)
    · exact hvalue hmem
  · simp only [List.mem_cons, List.not_mem_nil, or_false] at hlast
    rcases hlast with rfl | rfl | rfl
    · exact List.not_mem_nil
    · exact newline_not_mem_signedHeaders hlines
    · exact hsendable.payloadSha256

/-- The text that is signed says which request was meant: its path, its parameters and its
headers, whatever the order in which these were set. -/
theorem canonicalRequest_eq_iff (hparams : Sendable runtime params)
    (hother : Sendable runtime other) :
    canonicalRequest runtime params now = canonicalRequest runtime other later ↔
      SameRequest runtime params now other later := by
  constructor
  · intro hrequest
    rw [canonicalRequest_eq, canonicalRequest_eq] at hrequest
    have hlines := intercalate_injective (newline_not_mem_requestLines hparams)
      (newline_not_mem_requestLines hother) (List.cons_ne_nil _ _) (List.cons_ne_nil _ _) hrequest
    rw [requestLines, requestLines] at hlines
    obtain ⟨hfirst, hrest⟩ := List.append_inj hlines (Eq.refl 3)
    obtain ⟨hheaders, hlast⟩ := List.append_inj' hrest (Eq.refl 3)
    simp only [List.cons.injEq, and_true, true_and] at hfirst hlast
    obtain ⟨hmethod, huri, hquery⟩ := hfirst
    rw [canonicalUri_eq hparams.pathname, canonicalUri_eq hother.pathname] at huri
    have hperm := (sortedPairs_perm params.url).symm
    rw [canonicalQueryString_injective hquery] at hperm
    have hcolon : ∀ {params : SigV4SignParams} {now : ℕ}, Sendable runtime params →
        ∀ entry ∈ headerEntries (requestHeaders runtime params now), ':' ∉ entry.1 :=
      fun hsendable entry hentry =>
        (hsendable.lines entry.1 entry.2 (mem_headerEntries.mp hentry)).1
    exact ⟨hmethod, awsUriEncode_injective false huri,
      (List.map_perm_map_iff encodedPair_injective).mp (hperm.trans (sortedPairs_perm other.url)),
      headerEntries_injective (marked_injective (hcolon hparams) (hcolon hother) hheaders),
      hlast.2⟩
  · intro hsame
    have hquery : canonicalQueryString params.url = canonicalQueryString other.url := by
      rw [canonicalQueryString_eq, sortedPairs_eq_of_perm hsame.searchParams,
        ← canonicalQueryString_eq]
    have huri : canonicalUri params.url = canonicalUri other.url := by
      rw [canonicalUri, canonicalUri, hsame.pathname]
    rw [canonicalRequest, canonicalRequest, hsame.method, huri, hquery, hsame.headers,
      hsame.payloadSha256]

end Requests

section Served

/-- What stands for itself in a path. -/
def isPathChar (c : Char) : Bool := isUnreserved c || c = '/'

/-- The path of a stored object as the store writes it: its bytes, each encoded once. -/
def encodeBytes (bytes : List UInt8) : Text :=
  bytes.flatMap fun byte =>
    if isPathChar (Char.ofNat byte.toNat) then [Char.ofNat byte.toNat] else percentByte byte

def servedUri (pathname : Text) : Text := encodeBytes (percentDecode pathname)

theorem isPathChar_ascii {c : Char} (hc : isPathChar c = true) : c.toNat < 128 := by
  rw [isPathChar, isUnreserved, Bool.or_eq_true, Bool.or_eq_true] at hc
  rcases hc with (halphanum | hmark) | hslash
  · exact lt_of_le_of_lt (UrlPath.alphanum_bounds halphanum).2 (by decide)
  · have hmarks : ∀ c ∈ ['-', '.', '_', '~'], c.toNat < 128 :=
      List.all_iff_forall_prop.mp (by decide)
    exact hmarks c (of_decide_eq_true hmark)
  · rw [of_decide_eq_true hslash]
    decide

/-- A character of ASCII is a single byte. -/
theorem utf8EncodeChar_ascii {c : Char} (hc : c.toNat < 128) :
    String.utf8EncodeChar c = [UInt8.ofNat c.toNat] := by
  have hsize : c.utf8Size = 1 := by
    have hval : c.val ≤ 0x7f := by
      rw [UInt32.le_iff_toNat_le]
      exact Nat.le_of_lt_succ hc
    unfold Char.utf8Size
    exact if_pos hval
  rw [String.utf8EncodeChar_eq_singleton hsize]
  rfl

/-- A byte of ASCII is not a part of another character, so that escapes can be judged byte by
byte. -/
theorem eq_of_mem_utf8EncodeChar {c : Char} {byte : UInt8}
    (hmem : byte ∈ String.utf8EncodeChar c) (hbyte : byte.toNat < 128) :
    c = Char.ofNat byte.toNat := by
  obtain ⟨front, rest, hbytes⟩ := List.append_of_mem hmem
  have hread : decodeUtf8 (encodeUtf8 [c]) = [c] := decodeUtf8_encodeUtf8 [c]
  rw [encodeUtf8, List.flatMap_singleton, hbytes, decodeUtf8_ascii front rest hbyte] at hread
  have hchar : Char.ofNat byte.toNat ∈ [c] :=
    hread ▸ List.mem_append_right _ List.mem_cons_self
  exact (List.mem_singleton.mp hchar).symm

theorem toNat_ofNat_byte (byte : UInt8) : (Char.ofNat byte.toNat).toNat = byte.toNat :=
  toNat_ofNat (Or.inl (Nat.lt_trans byte.toNat_lt (by decide)))

/-- Escaping bytes and reading the escapes back gives the same bytes. -/
theorem percentDecode_encodeBytes (bytes : List UInt8) :
    percentDecode (encodeBytes bytes) = bytes := by
  induction bytes with
  | nil => rfl
  | cons byte bytes ih =>
      rw [encodeBytes, List.flatMap_cons, ← encodeBytes]
      by_cases hkeep : isPathChar (Char.ofNat byte.toNat) = true
      · have hpercent : Char.ofNat byte.toNat ≠ '%' := by
          intro heq
          rw [heq] at hkeep
          exact absurd hkeep (by decide)
        rw [if_pos hkeep, List.singleton_append, percentDecode_of_ne hpercent, ih,
          utf8EncodeChar_ascii (isPathChar_ascii hkeep), toNat_ofNat_byte, UInt8.ofNat_toNat]
        rfl
      · rw [if_neg hkeep, percentDecode_percentByte, ih]

/-- The escape of a character is that of its bytes. -/
theorem encodeBytes_char (c : Char) :
    encodeBytes (String.utf8EncodeChar c) = escapeChar isPathChar c := by
  rw [escapeChar]
  by_cases hkeep : isPathChar c = true
  · have hascii := isPathChar_ascii hkeep
    have hbyte : (UInt8.ofNat c.toNat).toNat = c.toNat :=
      UInt8.toNat_ofNat_of_lt' (Nat.lt_trans hascii (by decide))
    rw [if_pos hkeep, utf8EncodeChar_ascii hascii, encodeBytes, List.flatMap_singleton, hbyte,
      Char.ofNat_toNat, if_pos hkeep]
  · rw [if_neg hkeep]
    refine List.flatMap_congr fun byte hmem => if_neg fun hpath => hkeep ?_
    have hbyte := isPathChar_ascii hpath
    rw [toNat_ofNat_byte] at hbyte
    rwa [eq_of_mem_utf8EncodeChar hmem hbyte]

/-- For a text the server's encoding of its bytes is the signer's encoding. -/
theorem encodeBytes_encodeUtf8 (text : Text) :
    encodeBytes (encodeUtf8 text) = awsUriEncode text false := by
  have hkeep : (fun c => isUnreserved c || c = '/' && !false) = isPathChar :=
    funext fun c => congrArg (isUnreserved c || ·) (Bool.and_true _)
  rw [awsUriEncode, hkeep]
  induction text with
  | nil => rfl
  | cons c text ih =>
      rw [encodeUtf8_cons, encodeBytes, List.flatMap_append, ← encodeBytes, ← encodeBytes, ih,
        encodeBytes_char, escape_cons]

theorem isUnreserved_of_hexDigit {c : Char} (hdigit : (hexDigit? c).isSome = true) :
    isUnreserved c = true := by
  rw [hexDigit?] at hdigit
  have hbounds : ('0' ≤ c ∧ c ≤ '9') ∨ ('a' ≤ c ∧ c ≤ 'f') ∨ ('A' ≤ c ∧ c ≤ 'F') := by
    by_contra hnone
    rw [not_or, not_or] at hnone
    rw [if_neg hnone.1, if_neg hnone.2.1, if_neg hnone.2.2] at hdigit
    cases hdigit
  have halphanum : (decide (65 ≤ c.val ∧ c.val ≤ 90) || (97 ≤ c.val && c.val ≤ 122) ||
      (48 ≤ c.val && c.val ≤ 57)) = true := by
    simp only [Bool.or_eq_true, Bool.and_eq_true, decide_eq_true_eq]
    simp only [Char.le_def, UInt32.le_iff_toNat_le] at hbounds ⊢
    simp at hbounds ⊢
    omega
  have halphanum : c.isAlphanum = true := halphanum
  rw [isUnreserved, halphanum, Bool.true_or]

/-- An escape is not kept: its percent sign is written as the escape of a percent sign. -/
theorem awsUriEncode_escape {high low : Char} (hhigh : (hexDigit? high).isSome = true)
    (hlow : (hexDigit? low).isSome = true) (front rest : Text) :
    awsUriEncode (front ++ '%' :: high :: low :: rest) false =
      awsUriEncode front false ++ "%25".toList ++ high :: low :: awsUriEncode rest false := by
  have hdigit : ∀ {c : Char}, (hexDigit? c).isSome = true →
      escapeChar (fun c => isUnreserved c || c = '/' && !false) c = [c] := by
    intro c hc
    rw [escapeChar, isUnreserved_of_hexDigit hc]
    rfl
  have hpercent : escapeChar (fun c => isUnreserved c || c = '/' && !false) '%' = "%25".toList := by
    decide
  rw [awsUriEncode, escape_append, escape_cons, escape_cons, escape_cons, hdigit hhigh,
    hdigit hlow, hpercent]
  simp only [awsUriEncode, List.append_assoc, List.cons_append, List.nil_append]

/-- The store finds the signed path in the path it is sent only if nothing in it is escaped:
the percent sign of an escape is signed as an escape of its own. -/
theorem canonicalUri_served_iff (url : RequestUrl) (hpathname : url.pathname ≠ []) :
    (canonicalUri url = servedUri url.pathname ↔ hasEscape url.pathname = false) ∧
      ∀ front high low rest, (hexDigit? high).isSome = true → (hexDigit? low).isSome = true →
        url.pathname = front ++ '%' :: high :: low :: rest →
          canonicalUri url =
            awsUriEncode front false ++ "%25".toList ++ high :: low :: awsUriEncode rest false := by
  refine ⟨?_, ?_⟩
  · rw [canonicalUri_eq hpathname, servedUri, ← encodeBytes_encodeUtf8,
      (Function.LeftInverse.injective percentDecode_encodeBytes).eq_iff, eq_comm,
      percentDecode_eq_iff]
  · intro front high low rest hhigh hlow hsplit
    rw [canonicalUri_eq hpathname, hsplit, awsUriEncode_escape hhigh hlow]

/-- A key with a blank is not found: the URL holds `%20`, and that is signed as `%2520`. -/
theorem canonicalUri_served_iff_escaped :
    canonicalUri ⟨"s3.example".toList, "/mail/a%20b.tar".toList, []⟩ ≠
        servedUri "/mail/a%20b.tar".toList ∧
      canonicalUri ⟨"s3.example".toList, "/mail/a%20b.tar".toList, []⟩ =
        "/mail/a%2520b.tar".toList := by
  obtain ⟨hserved, hescape⟩ :=
    canonicalUri_served_iff ⟨"s3.example".toList, "/mail/a%20b.tar".toList, []⟩
      (List.cons_ne_nil _ _)
  refine ⟨fun heq => absurd (hserved.mp heq) (by decide), ?_⟩
  rw [hescape "/mail/a".toList '2' '0' "b.tar".toList (by decide) (by decide) rfl]
  decide

end Served

section Example

def plainRuntime : Runtime where
  sha256 := id
  hmac := fun key data => key ++ data
  toUpperCase := List.map Char.toUpper
  toLowerCase := List.map Char.toLower

def partRequest (searchParams : List (Text × Text)) : SigV4SignParams where
  method := "put".toList
  url := ⟨"s3.example".toList, "/mail/a.tar".toList, searchParams⟩
  headers := [("Range".toList, " bytes=0-9".toList)]
  payloadSha256 := "e3b0".toList

/-- Two parameters in either order, one of them with a character that has to be escaped. -/
theorem canonicalRequest_eq_iff_part :
    canonicalRequest plainRuntime
        (partRequest [("uploadId".toList, "x&y".toList), ("part".toList, "2".toList)]) 0 =
      canonicalRequest plainRuntime
        (partRequest [("part".toList, "2".toList), ("uploadId".toList, "x&y".toList)]) 0 := by
  have hmethod : '\n' ∉ plainRuntime.toUpperCase "put".toList := by
    decide
  have hhost : '\n' ∉ "s3.example".toList := by
    decide
  have hpayload : '\n' ∉ "e3b0".toList := by
    decide
  have hentries : ∀ entry ∈ [("Range".toList, " bytes=0-9".toList)],
      ((':' ∉ plainRuntime.toLowerCase entry.1 ∧ '\n' ∉ plainRuntime.toLowerCase entry.1) ∧
        '\n' ∉ trim entry.2) := by
    intro entry hentry
    obtain rfl := List.mem_singleton.mp hentry
    exact ⟨by decide, by decide⟩
  have hsendable : ∀ searchParams, Sendable plainRuntime (partRequest searchParams) :=
    fun _ => ⟨hmethod, fun entry hentry => (hentries entry hentry).1,
      fun entry hentry => (hentries entry hentry).2, hhost, hpayload, List.cons_ne_nil _ _⟩
  exact (canonicalRequest_eq_iff (hsendable _) (hsendable _)).mpr
    ⟨rfl, rfl, List.Perm.swap _ _ [], rfl, rfl⟩

end Example

end SigV4

end MailPanel

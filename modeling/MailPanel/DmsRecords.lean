import MailPanel.DmsCommands
import MailPanel.DmsEnvironment
import MailPanel.Glob

/-
The public DKIM records in the mail container, and the one that is read for a selector and a
domain.
-/

namespace MailPanel

namespace Dms

open ScriptText NumberText Glob

/-- A selector and a domain that the validators accept. -/
structure KeyName (tables : UnicodeTables) where
  selector : String
  domain : String
  selector_valid : validateDkimSelector selector = none
  domain_valid : validateDomain tables domain = none

variable {tables : UnicodeTables}

/-- `opendkim/keys/<domain>/<selector>.txt`. -/
structure OpenDkimRecord (tables : UnicodeTables) where
  key : KeyName tables
  content : Text

/-- `rspamd/dkim/rsa-<bits>-<selector>-<domain>.public.dns.txt`. The name is made of parts that
the key generator has checked, and the file holds something. -/
structure RspamdRecord (tables : UnicodeTables) where
  bits : JsNumber
  key : KeyName tables
  content : Text
  bits_valid : validateDkimKeysize bits = none
  content_written : ∃ c ∈ content, isSpace c = false

def DMS_CONFIG_DIR : String := "/tmp/docker-mailserver"

def openDkimPath (selector domain : String) : String :=
  DMS_CONFIG_DIR ++ "/opendkim/keys/" ++ domain ++ "/" ++ selector ++ ".txt"

def OpenDkimRecord.path (record : OpenDkimRecord tables) : String :=
  openDkimPath record.key.selector record.key.domain

def RspamdRecord.fileName (record : RspamdRecord tables) : String :=
  "rsa-" ++ numberText record.bits ++ "-" ++ record.key.selector ++ "-" ++ record.key.domain ++
    ".public.dns.txt"

/-- The records that have been written; the second directory may be missing. -/
structure KeyStore (tables : UnicodeTables) where
  openDkim : List (OpenDkimRecord tables)
  rspamd : Option (List (RspamdRecord tables))
  paths_nodup : (openDkim.map OpenDkimRecord.path).Nodup
  names_nodup : ∀ files ∈ rspamd, (files.map RspamdRecord.fileName).Nodup

namespace KeyStore

variable (store : KeyStore tables)

/-- `cat path`. -/
def cat (path : String) : ExecResult :=
  match RowTable.lookup OpenDkimRecord.path path store.openDkim with
  | some record => ⟨0, record.content⟩
  | none => ⟨1, []⟩

def matching (pattern : String) (files : List (RspamdRecord tables)) :
    List (RspamdRecord tables) :=
  files.filter fun record => fnmatch pattern.toList record.fileName.toList

/-- `find directory -maxdepth 1 -type f -name pattern -exec cat {} +`. -/
def findCat (pattern : String) : ExecResult :=
  match store.rspamd with
  | none => ⟨1, []⟩
  | some files => ⟨0, (matching pattern files).flatMap RspamdRecord.content⟩

end KeyStore

def recordPattern (selector domain : String) : String :=
  "*-" ++ selector ++ "-" ++ domain ++ ".public.dns.txt"

def handleDmsDkimRecordRead (store : KeyStore tables) (body : KeyName tables) : Option Text :=
  let openDkim := store.cat (openDkimPath body.selector body.domain)
  if openDkim.exitCode = 0 then some openDkim.stdout
  else
    let rspamd := store.findCat (recordPattern body.selector body.domain)
    let found := if rspamd.exitCode = 0 then trim rspamd.stdout else []
    if 0 < found.length then some rspamd.stdout else none

namespace KeyStore

/-- The contents of the records that were generated for a key. -/
inductive Recorded (store : KeyStore tables) (key : KeyName tables) : Text → Prop
  | openDkim {record} (hrecord : record ∈ store.openDkim) (hkey : record.key = key) :
      Recorded store key record.content
  | rspamd {files record} (hfiles : store.rspamd = some files) (hrecord : record ∈ files)
      (hkey : record.key = key) : Recorded store key record.content

/-- A key's answer is the content of one of its records, or nothing if it has none. -/
def Answered (store : KeyStore tables) (key : KeyName tables) : Option Text → Prop
  | some content => store.Recorded key content
  | none => ∀ content, ¬store.Recorded key content

/-- What a key's name looks like at the end of a file name. -/
def nameEnding (key : KeyName tables) : Text :=
  '-' :: key.selector.toList ++ '-' :: key.domain.toList

/-- Of the records of the second directory, no other key's ends like the key, and the key has
one at most. -/
structure Unambiguous (store : KeyStore tables) (key : KeyName tables) : Prop where
  own : ∀ files ∈ store.rspamd, ∀ record ∈ files,
    nameEnding key <:+ ("rsa-" ++ numberText record.bits).toList ++ nameEnding record.key →
      record.key = key
  single : ∀ files ∈ store.rspamd, ∀ record ∈ files, ∀ other ∈ files, record.key = key →
    other.key = key → record = other

end KeyStore

section Names

variable {key other : KeyName tables}

theorem KeyName.eq_of (hselector : key.selector = other.selector)
    (hdomain : key.domain = other.domain) : key = other := by
  cases key
  cases other
  cases hselector
  cases hdomain
  rfl

theorem KeyName.slash_not_mem (key : KeyName tables) : '/' ∉ key.domain.toList := by
  intro hslash
  exact ((PlainLeaf.of_domain key.domain_valid).chars '/' hslash).slash rfl

/-- A path below the keys directory is one key's. -/
theorem openDkimPath_inj (hpath : openDkimPath key.selector key.domain =
    openDkimPath other.selector other.domain) : key = other := by
  have htext := congrArg String.toList hpath
  simp only [openDkimPath, String.toList_append, List.append_assoc, List.append_cancel_left_eq]
    at htext
  obtain ⟨hdomain, hselector⟩ := cut_unique key.slash_not_mem other.slash_not_mem htext
  have hnames : key.selector.toList ++ ".txt".toList = other.selector.toList ++ ".txt".toList :=
    hselector
  rw [List.append_cancel_right_eq] at hnames
  exact KeyName.eq_of (String.toList_injective hnames) (String.toList_injective hdomain)

theorem literal_selector (key : KeyName tables) : Literal key.selector.toList := by
  have hvalid := key.selector_valid
  simp only [validateDkimSelector, check_eq_none, Bool.not_eq_true', Bool.not_eq_false,
    and_true] at hvalid
  obtain ⟨hall, -⟩ := headed_spec (fun c hc => by simp [hc]) hvalid.2
  intro c hc hspecial
  have hno : ∀ d ∈ ['*', '?', '[', '\\'],
      (isAsciiLetter d || isDigit d || d = '_' || d = '-') = false :=
    List.all_iff_forall_prop.mp (by decide)
  have hyes := hall c hc
  rw [hno c hspecial] at hyes
  cases hyes

theorem literal_domain (key : KeyName tables) : Literal key.domain.toList := by
  obtain ⟨-, -, hshape⟩ := validateDomain_eq_none key.domain_valid
  have hno : ∀ d ∈ ['*', '?', '[', '\\'],
      d ≠ '.' ∧ d ≠ '-' ∧ d.toNat < 128 ∧ (d.isAlpha || isDigit d) = false :=
    List.all_iff_forall_prop.mp (by decide)
  intro c hc hspecial
  obtain ⟨hdot, hdash, hascii, hplain⟩ := hno c hspecial
  rcases mem_domain hshape hc with heq | heq | halphanumeric
  · exact hdot heq
  · exact hdash heq
  · rw [isAlphanumeric, tables.ascii_letter c hascii, tables.ascii_number c hascii,
      hplain] at halphanumeric
    cases halphanumeric

theorem literal_append {text rest : Text} (htext : Literal text) (hrest : Literal rest) :
    Literal (text ++ rest) := by
  intro c hc
  rcases List.mem_append.mp hc with hc | hc
  · exact htext c hc
  · exact hrest c hc

theorem literal_ending (key : KeyName tables) :
    Literal (KeyStore.nameEnding key ++ ".public.dns.txt".toList) := by
  have hdash : Literal ['-'] := List.all_iff_forall_prop.mp (by decide)
  have hsuffix : Literal ".public.dns.txt".toList := List.all_iff_forall_prop.mp (by decide)
  have hdomain := literal_append hdash (literal_domain key)
  have hselector := literal_append hdash (literal_append (literal_selector key) hdomain)
  exact literal_append hselector hsuffix

/-- The pattern of a key matches the files that end like the key. -/
theorem matches_iff {record : RspamdRecord tables} :
    fnmatch (recordPattern key.selector key.domain).toList record.fileName.toList = true ↔
      KeyStore.nameEnding key <:+
        ("rsa-" ++ numberText record.bits).toList ++ KeyStore.nameEnding record.key := by
  have hpattern : (recordPattern key.selector key.domain).toList =
      '*' :: (KeyStore.nameEnding key ++ ".public.dns.txt".toList) := by
    simp only [recordPattern, String.toList_append, KeyStore.nameEnding, List.append_assoc,
      List.cons_append]
    rfl
  have hname : record.fileName.toList = (("rsa-" ++ numberText record.bits).toList ++
      KeyStore.nameEnding record.key) ++ ".public.dns.txt".toList := by
    simp only [RspamdRecord.fileName, String.toList_append, KeyStore.nameEnding,
      List.append_assoc, List.cons_append]
    rfl
  rw [hpattern, fnmatch_star_literal (literal_ending key), hname, List.suffix_append_self_iff]

end Names

section Reading

variable {store : KeyStore tables} {key : KeyName tables}

theorem length_trim_pos {text : Text} (hwritten : ∃ c ∈ text, isSpace c = false) :
    0 < (trim text).length := by
  obtain ⟨c, hc, hspace⟩ := hwritten
  have hkept : ∀ {text : Text}, c ∈ text → c ∈ text.dropWhile isSpace := by
    intro text hmem
    rw [← List.takeWhile_append_dropWhile (p := isSpace) (l := text), List.mem_append] at hmem
    rcases hmem with htaken | hleft
    · have htrue := List.mem_takeWhile_imp htaken
      rw [hspace] at htrue
      cases htrue
    · exact hleft
  apply List.length_pos_of_mem (a := c)
  rw [trim, List.mem_reverse]
  exact hkept (List.mem_reverse.mpr (hkept hc))

theorem cat_of_mem {record : OpenDkimRecord tables} (hrecord : record ∈ store.openDkim)
    (hkey : record.key = key) :
    store.cat (openDkimPath key.selector key.domain) = ⟨0, record.content⟩ := by
  have hpath : openDkimPath key.selector key.domain = record.path := by
    rw [OpenDkimRecord.path, hkey]
  rw [KeyStore.cat, hpath, RowTable.lookup_of_mem store.paths_nodup hrecord]

theorem cat_of_forall (hnone : ∀ record ∈ store.openDkim, record.key ≠ key) :
    store.cat (openDkimPath key.selector key.domain) = ⟨1, []⟩ := by
  unfold KeyStore.cat
  split
  · rename_i record hlookup
    have hpath := RowTable.key_of_lookup hlookup
    exact absurd (openDkimPath_inj hpath) (hnone record (RowTable.mem_of_lookup hlookup))
  · rfl

/-- The first layout answers for the keys that it holds. -/
theorem read_openDkim {record : OpenDkimRecord tables} (hrecord : record ∈ store.openDkim)
    (hkey : record.key = key) :
    handleDmsDkimRecordRead store key = some record.content := by
  rw [handleDmsDkimRecordRead, cat_of_mem hrecord hkey]
  rfl

theorem read_missing (hnone : ∀ record ∈ store.openDkim, record.key ≠ key)
    (hdirectory : store.rspamd = none) : handleDmsDkimRecordRead store key = none := by
  rw [handleDmsDkimRecordRead, cat_of_forall hnone, KeyStore.findCat, hdirectory]
  rfl

/-- The second layout answers with all files that match, one after the other. -/
theorem read_rspamd {files : List (RspamdRecord tables)}
    (hnone : ∀ record ∈ store.openDkim, record.key ≠ key)
    (hfiles : store.rspamd = some files) :
    handleDmsDkimRecordRead store key =
      match KeyStore.matching (recordPattern key.selector key.domain) files with
      | [] => none
      | first :: rest => some (first.content ++ rest.flatMap RspamdRecord.content) := by
  rw [handleDmsDkimRecordRead, cat_of_forall hnone, KeyStore.findCat, hfiles]
  dsimp only
  rw [if_neg Nat.one_ne_zero, if_pos rfl]
  cases hmatching : KeyStore.matching (recordPattern key.selector key.domain) files with
  | nil => rfl
  | cons first rest =>
      rw [List.flatMap_cons, if_pos]
      obtain ⟨c, hc, hspace⟩ := first.content_written
      exact length_trim_pos ⟨c, List.mem_append_left _ hc, hspace⟩

end Reading

section Answers

variable {store : KeyStore tables} {key : KeyName tables}

theorem recorded_rspamd {files : List (RspamdRecord tables)} {content : Text}
    (hnone : ∀ record ∈ store.openDkim, record.key ≠ key) (hfiles : store.rspamd = some files)
    (hrecorded : store.Recorded key content) :
    ∃ record ∈ files, record.key = key ∧ record.content = content := by
  cases hrecorded with
  | openDkim hrecord hkey => exact absurd hkey (hnone _ hrecord)
  | rspamd hdirectory hrecord hkey =>
      rw [hfiles, Option.some.injEq] at hdirectory
      subst hdirectory
      exact ⟨_, hrecord, hkey, rfl⟩

/-- The files that the key's pattern matches. -/
def matchingKey (key : KeyName tables) (files : List (RspamdRecord tables)) :
    List (RspamdRecord tables) :=
  KeyStore.matching (recordPattern key.selector key.domain) files

theorem mem_matchingKey {files : List (RspamdRecord tables)} {record : RspamdRecord tables} :
    record ∈ matchingKey key files ↔ record ∈ files ∧ KeyStore.nameEnding key <:+
      ("rsa-" ++ numberText record.bits).toList ++ KeyStore.nameEnding record.key := by
  rw [matchingKey, KeyStore.matching, List.mem_filter, matches_iff]

theorem own_mem_matchingKey {files : List (RspamdRecord tables)} {record : RspamdRecord tables}
    (hrecord : record ∈ files) (hkey : record.key = key) : record ∈ matchingKey key files := by
  rw [mem_matchingKey, hkey]
  exact ⟨hrecord, List.suffix_append _ _⟩

theorem content_length_pos (record : RspamdRecord tables) : 0 < record.content.length := by
  obtain ⟨c, hc, -⟩ := record.content_written
  exact List.length_pos_of_mem hc

/-- A content among several is shorter than all of them together. -/
theorem content_length_lt {first second : RspamdRecord tables}
    {rest : List (RspamdRecord tables)} {record : RspamdRecord tables}
    (hrecord : record ∈ first :: second :: rest) :
    record.content.length <
      (first.content ++ (second :: rest).flatMap RspamdRecord.content).length := by
  have hfirst := content_length_pos first
  have hsecond := content_length_pos second
  rw [List.flatMap_cons, List.length_append, List.length_append]
  rcases List.mem_cons.mp hrecord with rfl | hlater
  · omega
  · rcases List.mem_cons.mp hlater with rfl | hrest
    · omega
    · have hle : record.content.length ≤ (rest.flatMap RspamdRecord.content).length := by
        rw [List.length_flatMap]
        exact List.single_le_sum (by simp) _ (List.mem_map_of_mem hrest)
      omega

/-- One file of the key at most, and no other. -/
def MatchesOwn (key : KeyName tables) (files : List (RspamdRecord tables)) : Prop :=
  matchingKey key files = [] ∨ ∃ record, matchingKey key files = [record] ∧ record.key = key

theorem unambiguous_iff {files : List (RspamdRecord tables)}
    (hfiles : store.rspamd = some files) :
    store.Unambiguous key ↔ MatchesOwn key files := by
  have hnodup : (matchingKey key files).Nodup :=
    (List.Nodup.of_map _ (store.names_nodup files hfiles)).filter _
  constructor
  · intro hunambiguous
    have hkey : ∀ record ∈ matchingKey key files, record ∈ files ∧ record.key = key := by
      intro record hrecord
      obtain ⟨hmem, hending⟩ := mem_matchingKey.mp hrecord
      exact ⟨hmem, hunambiguous.own files hfiles record hmem hending⟩
    unfold MatchesOwn
    match hmatching : matchingKey key files with
    | [] => exact Or.inl rfl
    | [record] =>
        rw [hmatching] at hkey
        exact Or.inr ⟨record, rfl, (hkey record List.mem_cons_self).2⟩
    | first :: second :: rest =>
        rw [hmatching] at hkey hnodup
        have hsecond : second ∈ first :: second :: rest := by simp
        obtain ⟨hfirstMem, hfirstKey⟩ := hkey first List.mem_cons_self
        obtain ⟨hsecondMem, hsecondKey⟩ := hkey second hsecond
        have hsame := hunambiguous.single files hfiles first hfirstMem second hsecondMem
          hfirstKey hsecondKey
        rw [hsame] at hnodup
        exact absurd List.mem_cons_self (List.nodup_cons.mp hnodup).1
  · intro hmatches
    have hall : ∀ record ∈ matchingKey key files,
        matchingKey key files = [record] ∧ record.key = key := by
      intro record hrecord
      rcases hmatches with hempty | ⟨only, honly, hkey⟩
      · rw [hempty] at hrecord
        exact absurd hrecord List.not_mem_nil
      · rw [honly, List.mem_singleton] at hrecord
        subst hrecord
        exact ⟨honly, hkey⟩
    constructor
    · rintro _ hdirectory record hrecord hending
      cases hfiles.symm.trans hdirectory
      exact (hall record (mem_matchingKey.mpr ⟨hrecord, hending⟩)).2
    · rintro _ hdirectory record hrecord other hother hrecordKey hotherKey
      cases hfiles.symm.trans hdirectory
      have halone := (hall record (own_mem_matchingKey hrecord hrecordKey)).1
      have hmem := own_mem_matchingKey hother hotherKey
      rw [halone] at hmem
      exact (List.mem_singleton.mp hmem).symm

/-- Where the first layout has no record, the answer is right when the pattern matches the
key's own file, or none. -/
theorem answered_iff_matches {files : List (RspamdRecord tables)}
    (hnone : ∀ record ∈ store.openDkim, record.key ≠ key)
    (hfiles : store.rspamd = some files) :
    store.Answered key (handleDmsDkimRecordRead store key) ↔ MatchesOwn key files := by
  rw [read_rspamd hnone hfiles]
  constructor
  · intro hanswered
    unfold MatchesOwn
    match hmatching : matchingKey key files with
    | [] => exact Or.inl rfl
    | [only] =>
        rw [← matchingKey, hmatching] at hanswered
        obtain ⟨record, hrecord, hkey, -⟩ := recorded_rspamd hnone hfiles hanswered
        have hmem := own_mem_matchingKey hrecord hkey
        rw [hmatching, List.mem_singleton] at hmem
        exact Or.inr ⟨only, rfl, hmem ▸ hkey⟩
    | first :: second :: rest =>
        rw [← matchingKey, hmatching] at hanswered
        obtain ⟨record, hrecord, hkey, hcontent⟩ := recorded_rspamd hnone hfiles hanswered
        have hmem := own_mem_matchingKey hrecord hkey
        rw [hmatching] at hmem
        have hlength := content_length_lt hmem
        rw [hcontent] at hlength
        exact absurd hlength (Nat.lt_irrefl _)
  · rintro (hempty | ⟨only, honly, hkey⟩)
    · rw [← matchingKey, hempty]
      intro content hrecorded
      obtain ⟨record, hrecord, hkey, -⟩ := recorded_rspamd hnone hfiles hrecorded
      have hmem := own_mem_matchingKey hrecord hkey
      rw [hempty] at hmem
      exact absurd hmem List.not_mem_nil
    · rw [← matchingKey, honly]
      dsimp only
      rw [List.flatMap_nil, List.append_nil]
      have hmem : only ∈ matchingKey key files := by
        rw [honly]
        exact List.mem_cons_self
      exact KeyStore.Recorded.rspamd hfiles (mem_matchingKey.mp hmem).1 hkey

/-- The answer is the key's own record exactly when the first layout holds the key, or the
second is unambiguous about it. The second layout is searched by a pattern that begins with a
wildcard, and everything that it matches is printed. -/
theorem recordRead_answered_iff (store : KeyStore tables) (body : KeyName tables) :
    store.Answered body (handleDmsDkimRecordRead store body) ↔
      (∃ record ∈ store.openDkim, record.key = body) ∨ store.Unambiguous body := by
  by_cases hopenDkim : ∃ record ∈ store.openDkim, record.key = body
  · refine iff_of_true ?_ (Or.inl hopenDkim)
    obtain ⟨record, hrecord, hkey⟩ := hopenDkim
    rw [read_openDkim hrecord hkey]
    exact KeyStore.Recorded.openDkim hrecord hkey
  · have hnone : ∀ record ∈ store.openDkim, record.key ≠ body := by
      intro record hrecord hkey
      exact hopenDkim ⟨record, hrecord, hkey⟩
    rw [or_iff_right hopenDkim]
    cases hfiles : store.rspamd with
    | some files => rw [answered_iff_matches hnone hfiles, unambiguous_iff hfiles]
    | none =>
        rw [read_missing hnone hfiles]
        refine iff_of_true ?_ ⟨?_, ?_⟩
        · intro content hrecorded
          cases hrecorded with
          | openDkim hrecord hkey => exact hnone _ hrecord hkey
          | rspamd hdirectory =>
              rw [hfiles] at hdirectory
              cases hdirectory
        · intro files hdirectory
          rw [hfiles] at hdirectory
          cases hdirectory
        · intro files hdirectory
          rw [hfiles] at hdirectory
          cases hdirectory

end Answers

namespace LongerSelector

def mailKey : KeyName .ascii := ⟨"mail", "example.com", by decide, by decide⟩

def oldMailKey : KeyName .ascii :=
  ⟨"old-mail", "example.com", by decide, by decide⟩

/-- Only the other selector has a record: a store in which the request for one selector finds
the file of a longer one. -/
def store : KeyStore .ascii where
  openDkim := []
  rspamd := some [⟨.finite 2048, oldMailKey, "v=DKIM1; p=AA".toList, by decide,
    'v', by decide, by decide⟩]
  paths_nodup := List.nodup_nil
  names_nodup := by
    intro files hfiles
    cases hfiles
    exact List.nodup_singleton _

/-- The other selector's record is answered: its name ends in the one that was asked for, and
the key itself has no record. -/
theorem other_answered : ¬store.Answered mailKey (handleDmsDkimRecordRead store mailKey) := by
  have hanswer : handleDmsDkimRecordRead store mailKey = some "v=DKIM1; p=AA".toList := by
    decide +kernel
  rw [hanswer]
  intro hrecorded
  obtain ⟨record, hrecord, hkey, -⟩ := recorded_rspamd (by simp [store]) rfl hrecorded
  rw [List.mem_singleton.mp hrecord] at hkey
  have hselector := congrArg KeyName.selector hkey
  exact absurd hselector (by decide)

end LongerSelector

end Dms

end MailPanel

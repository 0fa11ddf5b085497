import Mathlib.Data.Finset.Card
import Mathlib.Data.List.Dedup

/-
Verification of a backup archive.  The outer tar is listed, never extracted:
every member is hashed and compared with the manifest found inside the archive,
and the panel's recorded manifest enters through its creation time only.
-/

namespace MailPanel

/-- The four volumes of a backup. -/
inductive BackupVolumeKey where
  | mail
  | mailState
  | mailLog
  | dmsConfig
deriving DecidableEq, Repr

/-- The symbolic key as manifests and member names spell it. -/
def BackupVolumeKey.text : BackupVolumeKey → String
  | .mail => "mail"
  | .mailState => "mailState"
  | .mailLog => "mailLog"
  | .dmsConfig => "dmsConfig"

def backupVolumeKeys : List BackupVolumeKey :=
  [.mail, .mailState, .mailLog, .dmsConfig]

theorem BackupVolumeKey.mem_backupVolumeKeys (key : BackupVolumeKey) :
    key ∈ backupVolumeKeys := by
  cases key <;> decide

structure BackupManifestVolume where
  key : BackupVolumeKey
  checksumSha256 : String
deriving DecidableEq, Repr

/-- The manifest fields the verifier reads. -/
structure BackupManifest where
  createdAt : String
  volumes : List BackupManifestVolume
deriving DecidableEq, Repr

/-- The digest a manifest records for one volume: its first entry for the key. -/
def BackupManifest.digestOf (manifest : BackupManifest) (key : BackupVolumeKey) :
    Option String :=
  (manifest.volumes.find? (fun volume => volume.key = key)).map
    BackupManifestVolume.checksumSha256

namespace BackupArchive

/-- One member of the outer tar, with its whole content. -/
structure ReadEntry where
  path : String
  body : List UInt8
deriving DecidableEq, Repr

/-- The packages the archive code calls: listing a tar, parsing and validating
manifest JSON, and SHA-256 in hexadecimal. -/
structure ArchiveTools (Archive : Type) where
  list : Archive → Except String (List ReadEntry)
  parseManifest : List UInt8 → Except String BackupManifest
  sha256 : List UInt8 → String

def manifestFilename : String := "manifest.json"

def volumeTarFilename (key : BackupVolumeKey) : String := key.text ++ ".tar"

def expectedOuterEntryNames : List String :=
  manifestFilename :: backupVolumeKeys.map volumeTarFilename

/-- A path without its final `.tar`, as `path.replace(/\.tar$/, '')` leaves it. -/
def stripTarSuffix (path : String) : String :=
  let chars := path.toList
  if chars.drop (chars.length - 4) = ['.', 't', 'a', 'r'] then
    String.ofList (chars.take (chars.length - 4))
  else path

structure VerifyBackupArchiveResult where
  ok : Bool
  reason : Option String
deriving DecidableEq, Repr

section Verify

variable {Archive : Type} (tools : ArchiveTools Archive)

/-- The archive's own manifest: the last `manifest.json` member wins. -/
def readManifestFromArchive (archive : Archive) : Except String BackupManifest := do
  let entries ← tools.list archive
  match (entries.filter fun entry => entry.path = manifestFilename).getLast? with
  | none => throw ("Archive has no " ++ manifestFilename ++ " member.")
  | some entry => tools.parseManifest entry.body

/-- The volume of a manifest that a member's path names. -/
def volumeFor (manifest : BackupManifest) (path : String) :
    Option BackupManifestVolume :=
  manifest.volumes.find? fun volume => volume.key.text = stripTarSuffix path

/-- What verification says about one member other than the manifest: that no volume of the
manifest has this file name, or that its contents hash to something else. -/
def memberReason (archiveManifest : BackupManifest) (entry : ReadEntry) :
    Option String :=
  if entry.path = manifestFilename then none
  else
    let sha256 := tools.sha256 entry.body
    match volumeFor archiveManifest entry.path with
    | none => some ("Unexpected archive member: " ++ entry.path)
    | some expectedVolume =>
        if sha256 ≠ expectedVolume.checksumSha256 then
          some ("Checksum mismatch for " ++ entry.path ++ ": manifest.json says " ++
            expectedVolume.checksumSha256 ++ ", actual content hashes to " ++ sha256 ++ ".")
        else none

def createdAtReason (archiveManifest expectedManifest : BackupManifest) : List String :=
  if archiveManifest.createdAt ≠ expectedManifest.createdAt then
    ["The archive's own manifest.json does not match the panel's recorded manifest (createdAt differs) — the file on disk may have been replaced."]
  else []

def missingReasons (seenNames : List String) : List String :=
  (expectedOuterEntryNames.filter fun name => name ∉ seenNames).map
    ("Missing archive member: " ++ ·)

def memberCountReason (seenNames : List String) : List String :=
  if seenNames.length ≠ expectedOuterEntryNames.length then
    ["Archive has " ++ toString seenNames.length ++ " member(s); expected exactly " ++
      toString expectedOuterEntryNames.length ++ "."]
  else []

/-- Every reason to refuse the archive, in the order the verifier finds them. -/
def verifyReasons (archiveManifest expectedManifest : BackupManifest)
    (entries : List ReadEntry) : List String :=
  let seenNames := (entries.map ReadEntry.path).dedup
  createdAtReason archiveManifest expectedManifest ++
    entries.filterMap (memberReason tools archiveManifest) ++
    missingReasons seenNames ++ memberCountReason seenNames

/-- Verification of an archive against the manifest that its row has. Reasons are collected and
joined; whatever throws on the way makes the archive unreadable, which is a verdict too. -/
def verifyBackupArchive (archive : Archive) (expectedManifest : BackupManifest) :
    VerifyBackupArchiveResult :=
  let attempt : Except String (List String) := do
    let archiveManifest ← readManifestFromArchive tools archive
    let entries ← tools.list archive
    return verifyReasons tools archiveManifest expectedManifest entries
  match attempt with
  | .error message =>
      ⟨false, some ("Archive is unreadable or malformed: " ++ message)⟩
  | .ok reasons =>
      if reasons.length > 0 then ⟨false, some (" ".intercalate reasons)⟩
      else ⟨true, none⟩

/-- The archive holds exactly the members of a backup, and every volume member
hashes to the digest `manifest` records for it. -/
def ContentMatches (archive : Archive) (manifest : BackupManifest) : Prop :=
  ∃ entries, tools.list archive = .ok entries ∧
    (∀ name, name ∈ entries.map ReadEntry.path ↔ name ∈ expectedOuterEntryNames) ∧
    ∀ key : BackupVolumeKey, ∀ entry ∈ entries, entry.path = volumeTarFilename key →
      manifest.digestOf key = some (tools.sha256 entry.body)

/-- The archive's own manifest records the same volume digests as `manifest`. -/
def RecordsSameDigests (archive : Archive) (manifest : BackupManifest) : Prop :=
  ∃ archiveManifest, readManifestFromArchive tools archive = .ok archiveManifest ∧
    ∀ key, archiveManifest.digestOf key = manifest.digestOf key

end Verify

@[simp] theorem stripTarSuffix_volumeTarFilename (key : BackupVolumeKey) :
    stripTarSuffix (volumeTarFilename key) = key.text := by
  cases key <;> decide

theorem volumeTarFilename_ne_manifest (key : BackupVolumeKey) :
    volumeTarFilename key ≠ manifestFilename := by
  cases key <;> decide

theorem text_injective : Function.Injective BackupVolumeKey.text := by
  intro left right htext
  cases left <;> cases right <;> first | rfl | (revert htext; decide)

theorem volumeFor_volumeTarFilename (manifest : BackupManifest) (key : BackupVolumeKey) :
    (volumeFor manifest (volumeTarFilename key)).map
      BackupManifestVolume.checksumSha256 = manifest.digestOf key := by
  simp only [volumeFor, BackupManifest.digestOf, stripTarSuffix_volumeTarFilename,
    text_injective.eq_iff]

theorem volumeTarFilename_mem_expected (key : BackupVolumeKey) :
    volumeTarFilename key ∈ expectedOuterEntryNames :=
  List.mem_cons_of_mem _ (List.mem_map_of_mem key.mem_backupVolumeKeys)

theorem expectedOuterEntryNames_nodup : expectedOuterEntryNames.Nodup := by
  decide

section Soundness

variable {Archive : Type} {tools : ArchiveTools Archive}

/-- A member raises no complaint exactly when the archive's own manifest records
its digest. -/
theorem memberReason_volume_eq_none_iff {manifest : BackupManifest} {entry : ReadEntry}
    {key : BackupVolumeKey} (hpath : entry.path = volumeTarFilename key) :
    memberReason tools manifest entry = none ↔
      manifest.digestOf key = some (tools.sha256 entry.body) := by
  rw [← volumeFor_volumeTarFilename, ← hpath]
  have hne : entry.path ≠ manifestFilename := hpath ▸ volumeTarFilename_ne_manifest key
  cases hvolume : volumeFor manifest entry.path with
  | none => simp [memberReason, hne, hvolume]
  | some volume =>
      simp [memberReason, hne, hvolume, eq_comm]

/-- A distinct list of the expected length that contains every expected name
contains nothing else. -/
theorem mem_iff_expected_of_no_reasons {seenNames : List String}
    (hnodup : seenNames.Nodup) (hmissing : missingReasons seenNames = [])
    (hcount : memberCountReason seenNames = []) (name : String) :
    name ∈ seenNames ↔ name ∈ expectedOuterEntryNames := by
  have hsubset : expectedOuterEntryNames ⊆ seenNames := by
    intro expected hexpected
    by_contra hunseen
    have hmem : ("Missing archive member: " ++ expected) ∈ missingReasons seenNames :=
      List.mem_map_of_mem (List.mem_filter.mpr ⟨hexpected, by simpa using hunseen⟩)
    simp [hmissing] at hmem
  have hlength : seenNames.length = expectedOuterEntryNames.length := by
    by_contra hne
    simp [memberCountReason, hne] at hcount
  have hcard : seenNames.toFinset.card ≤ expectedOuterEntryNames.toFinset.card := by
    rw [List.toFinset_card_of_nodup hnodup,
      List.toFinset_card_of_nodup expectedOuterEntryNames_nodup, hlength]
  have hfinset : expectedOuterEntryNames.toFinset = seenNames.toFinset := by
    apply Finset.eq_of_subset_of_card_le _ hcard
    intro expected hexpected
    exact List.mem_toFinset.mpr (hsubset (List.mem_toFinset.mp hexpected))
  rw [← List.mem_toFinset, ← hfinset, List.mem_toFinset]

theorem readManifestFromArchive_eq {archive : Archive} {entries : List ReadEntry}
    {entry : ReadEntry} (hlist : tools.list archive = .ok entries)
    (hlast : (entries.filter fun entry => entry.path = manifestFilename).getLast? =
      some entry) :
    readManifestFromArchive tools archive = tools.parseManifest entry.body := by
  simp [readManifestFromArchive, hlist, hlast, bind, Except.bind]

/-- The verdict is positive exactly when both readings of the archive succeed and
no reason to refuse it is found. -/
theorem verifyBackupArchive_ok_iff {archive : Archive} {expectedManifest : BackupManifest} :
    (verifyBackupArchive tools archive expectedManifest).ok = true ↔
      ∃ archiveManifest entries,
        readManifestFromArchive tools archive = .ok archiveManifest ∧
        tools.list archive = .ok entries ∧
        verifyReasons tools archiveManifest expectedManifest entries = [] := by
  unfold verifyBackupArchive
  cases hmanifest : readManifestFromArchive tools archive with
  | error message => simp [bind, Except.bind]
  | ok archiveManifest =>
      cases hlist : tools.list archive with
      | error message => simp [bind, Except.bind]
      | ok entries =>
          cases hreasons : verifyReasons tools archiveManifest expectedManifest entries with
          | nil => simp [hreasons, bind, Except.bind, pure, Except.pure]
          | cons reason reasons => simp [hreasons, bind, Except.bind, pure, Except.pure]

/-- What an accepting verdict establishes: the members are the expected ones and
each hashes to the digest of the manifest found *inside* the archive. -/
theorem accepts_embedded {archive : Archive} {expectedManifest : BackupManifest}
    (haccept : (verifyBackupArchive tools archive expectedManifest).ok = true) :
    ∃ archiveManifest,
      readManifestFromArchive tools archive = .ok archiveManifest ∧
      archiveManifest.createdAt = expectedManifest.createdAt ∧
      ContentMatches tools archive archiveManifest := by
  obtain ⟨archiveManifest, entries, hmanifest, hlist, hreasons⟩ :=
    verifyBackupArchive_ok_iff.mp haccept
  simp only [verifyReasons, List.append_eq_nil_iff, List.filterMap_eq_nil_iff] at hreasons
  obtain ⟨⟨⟨hcreated, hmembers⟩, hmissing⟩, hcount⟩ := hreasons
  refine ⟨archiveManifest, hmanifest, ?_, entries, hlist, ?_, ?_⟩
  · by_contra hne
    simp [createdAtReason, hne] at hcreated
  · intro name
    rw [← mem_iff_expected_of_no_reasons (List.nodup_dedup _) hmissing hcount,
      List.mem_dedup]
  · intro key entry hentry hpath
    exact (memberReason_volume_eq_none_iff hpath).mp (hmembers entry hentry)

theorem ContentMatches.exists_volume {archive : Archive} {manifest : BackupManifest}
    (hmatches : ContentMatches tools archive manifest) (key : BackupVolumeKey) :
    ∃ entries, tools.list archive = .ok entries ∧
      ∃ entry ∈ entries, entry.path = volumeTarFilename key ∧
        manifest.digestOf key = some (tools.sha256 entry.body) := by
  obtain ⟨entries, hlist, hnames, hdigests⟩ := hmatches
  have hname := (hnames (volumeTarFilename key)).mpr (volumeTarFilename_mem_expected key)
  obtain ⟨entry, hentry, hpath⟩ := List.mem_map.mp hname
  exact ⟨entries, hlist, entry, hentry, hpath, hdigests key entry hentry hpath⟩

/-- The same archive matches two manifests only if they record the same digests. -/
theorem ContentMatches.digestOf_eq {archive : Archive} {left right : BackupManifest}
    (hleft : ContentMatches tools archive left)
    (hright : ContentMatches tools archive right) (key : BackupVolumeKey) :
    left.digestOf key = right.digestOf key := by
  obtain ⟨entries, hlist, entry, hentry, hpath, hdigest⟩ := hleft.exists_volume key
  obtain ⟨entries', hlist', _, hdigests⟩ := hright
  have heq : entries = entries' := Except.ok.inj (hlist.symm.trans hlist')
  rw [hdigest, hdigests key entry (heq ▸ hentry) hpath]

theorem ContentMatches.of_digestOf_eq {archive : Archive} {left right : BackupManifest}
    (hleft : ContentMatches tools archive left)
    (hsame : ∀ key, left.digestOf key = right.digestOf key) :
    ContentMatches tools archive right := by
  obtain ⟨entries, hlist, hnames, hdigests⟩ := hleft
  refine ⟨entries, hlist, hnames, ?_⟩
  intro key entry hentry hpath
  rw [← hsame key]
  exact hdigests key entry hentry hpath

/-- An accepted archive holds what the recorded manifest describes exactly when its own manifest
still records the same digests: nothing else ties the two, as the check compares the recorded
manifest's date with the archive's and the volumes with the archive's own manifest. -/
theorem accepted_contentMatches_iff (tools : ArchiveTools Archive) (archive : Archive)
    (expectedManifest : BackupManifest)
    (haccept : (verifyBackupArchive tools archive expectedManifest).ok = true) :
    ContentMatches tools archive expectedManifest ↔
      RecordsSameDigests tools archive expectedManifest := by
  obtain ⟨archiveManifest, hmanifest, _, hembedded⟩ := accepts_embedded haccept
  constructor
  · intro hmatches
    exact ⟨archiveManifest, hmanifest, hembedded.digestOf_eq hmatches⟩
  · rintro ⟨archiveManifest', hmanifest', hsame⟩
    have heq : archiveManifest = archiveManifest' :=
      Except.ok.inj (hmanifest.symm.trans hmanifest')
    exact hembedded.of_digestOf_eq (heq ▸ hsame)

end Soundness

namespace ReplacedArchiveWitness

/-- SHA-256 of the empty string and of the one-byte string `a`. -/
def emptyDigest : String :=
  "e3b0c44298fc1c149afbf4c8996fb92427ae41e4649b934ca495991b7852b855"

def letterDigest : String :=
  "ca978112ca1bbdcafac231b39a23dc4da786eff8147c4e72b9807785afee48bb"

def manifestWith (mailDigest : String) : BackupManifest where
  createdAt := "2026-01-01T00:00:00.000Z"
  volumes := [⟨.mail, mailDigest⟩, ⟨.mailState, emptyDigest⟩, ⟨.mailLog, emptyDigest⟩,
    ⟨.dmsConfig, emptyDigest⟩]

def volumeJson (key containerPath digest : String) : String :=
  "\x7b\"key\":\"" ++ key ++ "\",\"containerPath\":\"" ++ containerPath ++
    "\",\"entryCount\":0,\"sizeBytes\":0,\"checksumSha256\":\"" ++ digest ++ "\"\x7d"

/-- The JSON text of `manifestWith letterDigest`, as bytes: the manifest that an attacker puts
in the place of the archive's own. -/
def replacedManifestJson : List UInt8 :=
  ("\x7b\"schemaVersion\":1,\"panelVersion\":\"1.0.0\",\"dmsImageDigest\":null," ++
    "\"createdAt\":\"2026-01-01T00:00:00.000Z\"," ++
    "\"createdBy\":\x7b\"adminId\":null,\"label\":\"admin\"\x7d,\"mode\":\"warm\"," ++
    "\"volumes\":[" ++ volumeJson "mail" "/var/mail" letterDigest ++ "," ++
    volumeJson "mailState" "/var/mail-state" emptyDigest ++ "," ++
    volumeJson "mailLog" "/var/log/mail" emptyDigest ++ "," ++
    volumeJson "dmsConfig" "/tmp/docker-mailserver" emptyDigest ++
    "],\"entries\":[],\"notes\":\"\"\x7d").toList.map fun char => UInt8.ofNat char.toNat

/-- The packages on the inputs below: the archive is its list of members. -/
def tools : ArchiveTools (List ReadEntry) where
  list := .ok
  parseManifest body :=
    if body = replacedManifestJson then .ok (manifestWith letterDigest)
    else .error "Unexpected end of JSON input"
  sha256 body := if body = [97] then letterDigest else emptyDigest

/-- A backup whose `mail.tar` and `manifest.json` were replaced together. -/
def replacedArchive : List ReadEntry :=
  [⟨"manifest.json", replacedManifestJson⟩, ⟨"mail.tar", [97]⟩, ⟨"mailState.tar", []⟩,
    ⟨"mailLog.tar", []⟩, ⟨"dmsConfig.tar", []⟩]

theorem replacedArchive_manifest :
    readManifestFromArchive tools replacedArchive = .ok (manifestWith letterDigest) := by
  have hlast : (replacedArchive.filter fun entry => entry.path = manifestFilename).getLast? =
      some ⟨"manifest.json", replacedManifestJson⟩ := by
    simp [replacedArchive, manifestFilename]
  have hlist : tools.list replacedArchive = .ok replacedArchive := rfl
  rw [readManifestFromArchive_eq hlist hlast]
  simp only [tools, if_true]

/-- The verdict does not look at the recorded digests at all. -/
theorem replacedArchive_accepted (digest : String) :
    (verifyBackupArchive tools replacedArchive (manifestWith digest)).ok = true := by
  refine verifyBackupArchive_ok_iff.mpr ⟨manifestWith letterDigest, replacedArchive,
    replacedArchive_manifest, rfl, ?_⟩
  change verifyReasons tools (manifestWith letterDigest) (manifestWith letterDigest)
    replacedArchive = []
  decide

/-- The recorded manifest expects an empty `mail.tar`; the archive carries another one together
with a manifest that was made for it, and is still accepted. -/
theorem accepted_without_contentMatches :
    ¬ ∀ (archive : List ReadEntry) (expectedManifest : BackupManifest),
      (verifyBackupArchive tools archive expectedManifest).ok = true →
        ContentMatches tools archive expectedManifest := by
  intro hclaim
  obtain ⟨entries, hlist, _, hdigests⟩ :=
    hclaim replacedArchive (manifestWith emptyDigest)
      (replacedArchive_accepted emptyDigest)
  have heq : replacedArchive = entries := Except.ok.inj hlist
  subst heq
  have hdigest := hdigests .mail ⟨"mail.tar", [97]⟩ (by decide) (by decide)
  revert hdigest
  decide

/-- The archive is accepted against its own manifest, and matches it. -/
theorem replacedArchive_contentMatches_iff :
    ContentMatches tools replacedArchive (manifestWith letterDigest) ↔
      RecordsSameDigests tools replacedArchive (manifestWith letterDigest) :=
  accepted_contentMatches_iff tools replacedArchive (manifestWith letterDigest)
    (replacedArchive_accepted letterDigest)

end ReplacedArchiveWitness

end BackupArchive

end MailPanel

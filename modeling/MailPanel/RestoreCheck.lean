import MailPanel.BackupArchive
import MailPanel.RestoreTarWalk

/-
The check of a backup's layout before a restore, beside the guard that the restored volumes
stream through.
-/

namespace MailPanel

namespace RestoreTar

open ScriptText

/- The check -/

/-- What listing a tar reports of an entry. -/
structure ReadEntry where
  path : List Char
  type : String
  linkpath : Option (List Char)
deriving DecidableEq, Repr

def rootOf : BackupVolumeKey → List Char
  | .mail => "mail".toList
  | .mailState => "mail-state".toList
  | .mailLog => "mail".toList
  | .dmsConfig => "docker-mailserver".toList

def containerPath : BackupVolumeKey → List Char
  | .mail => "/var/mail".toList
  | .mailState => "/var/mail-state".toList
  | .mailLog => "/var/log/mail".toList
  | .dmsConfig => "/tmp/docker-mailserver".toList

/-- Where a volume is extracted, and the root that its entries carry. -/
def restoreTargetFor (volumePath : List Char) : List Char × List Char :=
  let rootName := (volumePath.reverse.takeWhile (· ≠ '/')).reverse
  let parentPath := (volumePath.reverse.dropWhile (· ≠ '/')).tail.reverse
  (if parentPath.isEmpty then ['/'] else parentPath, rootName)

theorem restoreTargetFor_root (key : BackupVolumeKey) :
    (restoreTargetFor (containerPath key)).2 = rootOf key := by
  cases key with
  | _ => decide

def entryComponents (path : List Char) : Option (List (List Char)) := components path

def isUnder (rootName path : List Char) : Bool :=
  (entryComponents path).bind List.head? = some rootName

/-- The entry, or the target of its hard link, is not under the root. -/
def ReadEntry.isOutside (rootName : List Char) (entry : ReadEntry) : Bool :=
  !isUnder rootName entry.path ||
    (entry.type = "Link" && !isUnder rootName (entry.linkpath.getD []))

/-- Listing a tar, which may fail. -/
abbrev Lister := Bytes → Except String (List ReadEntry)

section Check

variable (list : Lister)

def findEntryOutsideRoot (volumeTar : Bytes) (rootName : List Char) :
    Except String (Option (List Char)) :=
  (list volumeTar).map fun entries =>
    (entries.find? (ReadEntry.isOutside rootName)).map ReadEntry.path

/-- An extracted backup: each volume's tar, in the chunks that it will be read in. -/
abbrev Extracted := BackupVolumeKey → List Bytes

/-- How a restore ends: a volume cannot be listed, an entry lies outside its volume before
anything is written, the guard stops midway, or every volume is written. -/
inductive RestoreResult where
  | unreadable (message : String)
  | misplaced (key : BackupVolumeKey) (path : List Char)
  /-- The guard refused a volume, with those before it and part of its own entries written. -/
  | cutShort (key : BackupVolumeKey) (reason : Rejection)
  | complete
deriving DecidableEq, Repr

/-- The volumes are checked in turn, up to the first that cannot be listed or has an entry
elsewhere. -/
def checkVolumes (backup : Extracted) : List BackupVolumeKey → Option RestoreResult
  | [] => none
  | key :: keys =>
      match findEntryOutsideRoot list (backup key).flatten (rootOf key) with
      | .error message => some (.unreadable message)
      | .ok (some path) => some (.misplaced key path)
      | .ok none => checkVolumes backup keys

/-- The volumes are written in turn, up to the first that the guard refuses, of which a part may
have been written. -/
def putVolumes (backup : Extracted) : List BackupVolumeKey → RestoreResult
  | [] => .complete
  | key :: keys =>
      match (RestoreTarGuard.fed (restoreTargetFor (containerPath key)).2
        (backup key)).rejection with
      | some reason => .cutShort key reason
      | none => putVolumes backup keys

def restoreVolumesFromExtractedArchive (backup : Extracted) : RestoreResult :=
  match checkVolumes list backup backupVolumeKeys with
  | some result => result
  | none => putVolumes backup backupVolumeKeys

end Check

/- What the guard asks of a tar -/

/-- The entry is under the root, and so is the target of a hard link. -/
def TarEntry.Placed (rootName : List Char) (entry : TarEntry) : Prop :=
  (components entry.name).bind List.head? = some rootName ∧
    (entry.type = '1' → (components entry.linkName).bind List.head? = some rootName)

/-- The first is a symlink, and the second lies beneath it. -/
def TarEntry.Shadows (link entry : TarEntry) : Prop :=
  link.type = '2' ∧ ∃ above parts, components link.name = some above ∧
    components entry.name = some parts ∧ above <+: parts ∧ above ≠ parts

/-- The tar reads to its end, every entry is in place, and none lies beneath a symlink that
came before it. -/
def Restorable (rootName : List Char) (volumeTar : Bytes) : Prop :=
  ∃ entries, readEntries Preamble.none false volumeTar = some entries ∧
    (∀ entry ∈ entries, entry.Placed rootName) ∧
      entries.Pairwise fun link entry => ¬ link.Shadows entry

section Permitted

variable {rootName : List Char}

theorem components_parts {path : List Char} {parts : List (List Char)}
    (hparts : components path = some parts) : ∀ part ∈ parts, '/' ∉ part := by
  intro part hpart
  rw [components] at hparts
  split at hparts
  · exact absurd hparts.symm (Option.some_ne_none parts)
  · simp only at hparts
    split at hparts
    · exact absurd hparts.symm (Option.some_ne_none parts)
    · rw [← Option.some.inj hparts] at hpart
      exact notMem_of_mem_splitOn (List.mem_filter.mp hpart).1

theorem joined_inj {left right : List (List Char)} (hleft : ∀ part ∈ left, '/' ∉ part)
    (hright : ∀ part ∈ right, '/' ∉ part) (hne : left ≠ []) (hne' : right ≠ [])
    (heq : joined left = joined right) : left = right := by
  rw [← List.splitOn_intercalate '/' hleft hne, ← List.splitOn_intercalate '/' hright hne']
  exact congrArg (List.splitOn '/') heq

/-- The directories above an entry, as a symlink of the stream names them. -/
theorem beneath_iff {symlinks parts : List (List Char)} :
    beneath symlinks parts = true ↔
      ∃ depth, 1 ≤ depth ∧ depth < parts.length ∧ joined (parts.take depth) ∈ symlinks := by
  simp only [beneath, List.any_eq_true, List.mem_range, Bool.and_eq_true, decide_eq_true_eq]
  constructor
  · rintro ⟨depth, hlt, hpos, hmem⟩
    exact ⟨depth, hpos, hlt, hmem⟩
  · rintro ⟨depth, hpos, hlt, hmem⟩
    exact ⟨depth, hlt, hpos, hmem⟩

theorem beneath_cons {symlinks parts : List (List Char)} {link : List Char} :
    beneath (link :: symlinks) parts = true ↔
      beneath symlinks parts = true ∨
        ∃ depth, 1 ≤ depth ∧ depth < parts.length ∧ joined (parts.take depth) = link := by
  rw [beneath_iff, beneath_iff]
  constructor
  · rintro ⟨depth, hpos, hlt, hmem⟩
    rcases List.mem_cons.mp hmem with heq | hmem
    · exact Or.inr ⟨depth, hpos, hlt, heq⟩
    · exact Or.inl ⟨depth, hpos, hlt, hmem⟩
  · rintro (⟨depth, hpos, hlt, hmem⟩ | ⟨depth, hpos, hlt, heq⟩)
    · exact ⟨depth, hpos, hlt, List.mem_cons_of_mem link hmem⟩
    · exact ⟨depth, hpos, hlt, List.mem_cons.mpr (Or.inl heq)⟩

/-- A name that joins a part of the path above an entry names a directory above it. -/
theorem joined_take_iff {above parts : List (List Char)} (habove : ∀ part ∈ above, '/' ∉ part)
    (hparts : ∀ part ∈ parts, '/' ∉ part) (hne : above ≠ []) :
    (∃ depth, 1 ≤ depth ∧ depth < parts.length ∧ joined (parts.take depth) = joined above) ↔
      above <+: parts ∧ above ≠ parts := by
  constructor
  · rintro ⟨depth, hpos, hlt, hjoined⟩
    have hlength : (parts.take depth).length = depth := List.length_take_of_le hlt.le
    have htake : parts.take depth = above :=
      joined_inj (fun part hpart => hparts part (List.mem_of_mem_take hpart)) habove
        (List.length_pos_iff.mp (by omega)) hne hjoined
    have heq : above ≠ parts := by
      intro heq
      rw [heq] at htake
      rw [htake] at hlength
      omega
    exact ⟨htake ▸ List.take_prefix depth parts, heq⟩
  · rintro ⟨habovePath, heq⟩
    have hlt : above.length < parts.length := by
      have hle := habovePath.length_le
      have hlength : above.length ≠ parts.length :=
        fun hlength => heq (habovePath.eq_of_length hlength)
      omega
    have hpos : 0 < above.length := List.length_pos_iff.mpr hne
    refine ⟨above.length, hpos, hlt, ?_⟩
    rw [← List.prefix_iff_eq_take.mp habovePath]

/-- An entry is let through when it is in place and not beneath a symlink. -/
theorem problemWith_eq_none_iff {symlinks : List (List Char)} {entry : TarEntry} :
    problemWith rootName symlinks entry = none ↔
      entry.Placed rootName ∧
        ∀ parts, components entry.name = some parts → ¬ beneath symlinks parts = true := by
  rw [problemWith, TarEntry.Placed]
  cases hparts : components entry.name with
  | none => simp
  | some parts =>
    simp only [Option.bind_some, Option.some.injEq, forall_eq']
    by_cases hroot : parts.head? = some rootName
    · by_cases hbeneath : beneath symlinks parts = true
      · simp [hroot, hbeneath]
      · by_cases hlink : entry.type = '1'
        · simp [hroot, hbeneath, hlink]
        · simp [hroot, hbeneath, hlink]
    · simp [hroot]

/-- A symlink let through lies above the same entries as its recorded name. -/
theorem beneath_withSymlink {symlinks : List (List Char)} {link entry : TarEntry}
    {parts : List (List Char)} (hplaced : link.Placed rootName)
    (hparts : components entry.name = some parts) :
    beneath (withSymlink symlinks link) parts = true ↔
      beneath symlinks parts = true ∨ link.Shadows entry := by
  obtain ⟨above, habove, hhead⟩ := Option.bind_eq_some_iff.mp hplaced.1
  have hne : above ≠ [] := by
    intro hnil
    rw [hnil] at hhead
    cases hhead
  rw [withSymlink, TarEntry.Shadows]
  split
  · rename_i htype
    rw [beneath_cons, habove, Option.getD_some,
      joined_take_iff (components_parts habove) (components_parts hparts) hne]
    simp [htype, hparts]
  · rename_i htype
    simp [htype]

theorem permitted_iff_aux (entries : List TarEntry) (symlinks : List (List Char)) :
    Permitted rootName symlinks entries ↔
      (∀ entry ∈ entries, entry.Placed rootName) ∧
      (∀ entry ∈ entries, ∀ parts, components entry.name = some parts →
        ¬ beneath symlinks parts = true) ∧
      entries.Pairwise fun link entry => ¬ link.Shadows entry := by
  induction entries generalizing symlinks with
  | nil => simp [Permitted]
  | cons entry entries ih =>
    rw [Permitted, problemWith_eq_none_iff, ih, List.forall_mem_cons, List.forall_mem_cons,
      List.pairwise_cons]
    constructor
    · rintro ⟨⟨hplaced, hbeneath⟩, hall, hclear, hpairwise⟩
      refine ⟨⟨hplaced, hall⟩, ⟨hbeneath, ?_⟩, ?_, hpairwise⟩
      · intro other hother parts hparts hsymlinks
        exact hclear other hother parts hparts
          ((beneath_withSymlink hplaced hparts).mpr (Or.inl hsymlinks))
      · intro other hother hshadows
        obtain ⟨-, -, parts, -, hparts, -⟩ := id hshadows
        exact hclear other hother parts hparts
          ((beneath_withSymlink hplaced hparts).mpr (Or.inr hshadows))
    · rintro ⟨⟨hplaced, hall⟩, ⟨hbeneath, hothers⟩, hclear, hpairwise⟩
      refine ⟨⟨hplaced, hbeneath⟩, hall, ?_, hpairwise⟩
      intro other hother parts hparts hsymlinks
      rcases (beneath_withSymlink hplaced hparts).mp hsymlinks with hsymlinks | hshadows
      · exact hothers other hother parts hparts hsymlinks
      · exact hclear other hother hshadows

theorem permitted_iff (entries : List TarEntry) :
    Permitted rootName [] entries ↔
      (∀ entry ∈ entries, entry.Placed rootName) ∧
        entries.Pairwise fun link entry => ¬ link.Shadows entry := by
  have hclear : ∀ parts : List (List Char), ¬ beneath [] parts = true := by
    intro parts hbeneath
    obtain ⟨_, _, _, hmem⟩ := beneath_iff.mp hbeneath
    exact List.not_mem_nil hmem
  rw [permitted_iff_aux]
  exact and_congr_right fun _ => and_iff_right fun _ _ parts _ => hclear parts

/-- The guard rejects nothing of a restorable tar, in whatever chunks, and something of any
other. -/
theorem fed_accepts_iff (chunks : List Bytes) :
    (RestoreTarGuard.fed rootName chunks).rejection = none ↔
      Restorable rootName chunks.flatten := by
  rw [RestoreTarGuard.fed_iff]
  exact exists_congr fun entries => and_congr_right fun _ => permitted_iff entries

end Permitted

/- The check against the guard -/

/-- What the check asks of a listed entry. -/
def ReadEntry.Within (rootName : List Char) (entry : ReadEntry) : Prop :=
  isUnder rootName entry.path = true ∧
    (entry.type = "Link" → isUnder rootName (entry.linkpath.getD []) = true)

instance (rootName : List Char) (entry : ReadEntry) : Decidable (entry.Within rootName) :=
  inferInstanceAs (Decidable (_ ∧ _))

/-- The volume lists, with every entry within its root. -/
def ListsWithin (list : Lister) (rootName : List Char) (volumeTar : Bytes) : Prop :=
  ∃ entries, list volumeTar = .ok entries ∧ ∀ entry ∈ entries, entry.Within rootName

/-- What passes the check streams through the guard, and no restore is cut short. -/
def RefusedBeforeWriting (list : Lister) (backup : Extracted) : Prop :=
  ((∀ key, findEntryOutsideRoot list (backup key).flatten (rootOf key) = .ok none) →
    ∀ key, (RestoreTarGuard.fed (rootOf key) (backup key)).rejection = none) ∧
  ∀ key reason, restoreVolumesFromExtractedArchive list backup ≠ .cutShort key reason

section Refused

variable {list : Lister} {backup : Extracted}

theorem isOutside_iff {rootName : List Char} {entry : ReadEntry} :
    entry.isOutside rootName = false ↔ entry.Within rootName := by
  simp [ReadEntry.isOutside, ReadEntry.Within]

theorem findEntryOutsideRoot_none_iff {rootName : List Char} {volumeTar : Bytes} :
    findEntryOutsideRoot list volumeTar rootName = .ok none ↔
      ListsWithin list rootName volumeTar := by
  rw [findEntryOutsideRoot, ListsWithin]
  cases hlist : list volumeTar with
  | error message =>
    refine iff_of_false nofun ?_
    rintro ⟨entries, hentries, -⟩
    cases hentries
  | ok entries =>
    simp only [Except.map, Except.ok.injEq, Option.map_eq_none_iff, List.find?_eq_none,
      exists_eq_left', Bool.not_eq_true, isOutside_iff]

theorem checkVolumes_none_iff (keys : List BackupVolumeKey) :
    checkVolumes list backup keys = none ↔
      ∀ key ∈ keys, findEntryOutsideRoot list (backup key).flatten (rootOf key) = .ok none := by
  induction keys with
  | nil => simp [checkVolumes]
  | cons key keys ih =>
    rw [checkVolumes, List.forall_mem_cons]
    split
    · rename_i hfind
      simp [hfind]
    · rename_i hfind
      simp [hfind]
    · rename_i hfind
      rw [ih]
      simp [hfind]

theorem checkVolumes_ne_cutShort (keys : List BackupVolumeKey) (key : BackupVolumeKey)
    (reason : Rejection) : checkVolumes list backup keys ≠ some (.cutShort key reason) := by
  induction keys with
  | nil => nofun
  | cons first keys ih =>
    rw [checkVolumes]
    split
    · nofun
    · nofun
    · exact ih

theorem putVolumes_cutShort_iff (keys : List BackupVolumeKey) :
    (∀ key reason, putVolumes backup keys ≠ .cutShort key reason) ↔
      ∀ key ∈ keys, (RestoreTarGuard.fed (rootOf key) (backup key)).rejection = none := by
  induction keys with
  | nil => simp [putVolumes]
  | cons first keys ih =>
    rw [putVolumes, restoreTargetFor_root, List.forall_mem_cons]
    cases hrejection : (RestoreTarGuard.fed (rootOf first) (backup first)).rejection with
    | some reason =>
      refine iff_of_false ?_ ?_
      · intro hnever
        exact hnever first reason rfl
      · rintro ⟨hnone, -⟩
        cases hnone
    | none => exact ih.trans (and_iff_right rfl).symm

/-- A restore is cut short when the check passes and the guard rejects. Entries that the check
looks at one by one may still be refused together. -/
theorem restore_cutShort_iff :
    (∀ key reason, restoreVolumesFromExtractedArchive list backup ≠ .cutShort key reason) ↔
      ((∀ key, findEntryOutsideRoot list (backup key).flatten (rootOf key) = .ok none) →
        ∀ key, (RestoreTarGuard.fed (rootOf key) (backup key)).rejection = none) := by
  rw [restoreVolumesFromExtractedArchive]
  cases hcheck : checkVolumes list backup backupVolumeKeys with
  | some result =>
    refine iff_of_true ?_ ?_
    · intro key reason heq
      exact checkVolumes_ne_cutShort backupVolumeKeys key reason (hcheck.trans (congrArg some heq))
    · intro hpass
      have hnone := (checkVolumes_none_iff backupVolumeKeys).mpr fun key _ => hpass key
      exact absurd (hcheck.symm.trans hnone) (Option.some_ne_none result)
  | none =>
    have hpass := (checkVolumes_none_iff backupVolumeKeys).mp hcheck
    rw [putVolumes_cutShort_iff]
    constructor
    · intro haccepts _ key
      exact haccepts key key.mem_backupVolumeKeys
    · intro haccepts key _
      exact haccepts (fun key => hpass key key.mem_backupVolumeKeys) key

/-- The check protects a restore exactly when some volume does not list within its root, or the
guard can read every volume to its end, in place and clear of the symlinks before it. The check
looks at the names of the entries; the guard, which reads while the volumes are written, looks
at more. -/
theorem refusedBeforeWriting_iff (list : Lister) (backup : Extracted) :
    RefusedBeforeWriting list backup ↔
      (∃ key, ¬ ListsWithin list (rootOf key) (backup key).flatten) ∨
        ∀ key, Restorable (rootOf key) (backup key).flatten := by
  have hcheck : ∀ key, findEntryOutsideRoot list (backup key).flatten (rootOf key) = .ok none ↔
      ListsWithin list (rootOf key) (backup key).flatten :=
    fun key => findEntryOutsideRoot_none_iff
  rw [RefusedBeforeWriting, restore_cutShort_iff, and_self, ← not_forall, ← imp_iff_not_or]
  simp only [hcheck, fed_accepts_iff]

end Refused

/- A symlink in the backup -/

namespace SymlinkedFolder

open Written

def typeName (type : Char) : String :=
  if type = '5' then "Directory" else if type = '2' then "SymbolicLink" else "File"

/-- Lists a tar of entries without data, as far as the example needs it. -/
def listed : Nat → Bytes → List ReadEntry
  | 0, _ => []
  | turns + 1, bytes =>
      let header := bytes.take blockSize
      if header.all (· = 0) then []
      else
        ⟨readString header 0 100, typeName (typeOf header), some (readString header 157 100)⟩ ::
          listed turns (bytes.drop blockSize)

def list : Lister := fun volumeTar => .ok (listed volumeTar.length volumeTar)

/-- A folder of the mail volume is a symlink, and a message lies beneath it. -/
def backup : Extracted
  | .mail => [headerOf "mail/" '5' "", headerOf "mail/moved" '2' "/srv/moved",
      headerOf "mail/moved/message" '0' "", closing]
  | .mailState => [headerOf "mail-state/" '5' "", closing]
  | .mailLog => [headerOf "mail/" '5' "", closing]
  | .dmsConfig => [headerOf "docker-mailserver/" '5' "", closing]


/-- The check passes every volume, and the guard cuts the restore short at the message, which
lies beneath a symlink of the same archive. By then the volumes before it have been written. -/
theorem symlink_cuts_restore_short :
    (∀ key, findEntryOutsideRoot list (backup key).flatten (rootOf key) = .ok none) ∧
      (RestoreTarGuard.fed (rootOf .mail) (backup .mail)).rejection =
        some (.beneathSymlink "mail/moved/message".toList) ∧
      ¬ RefusedBeforeWriting list backup := by
  have hrejection : (RestoreTarGuard.fed (rootOf .mail) (backup .mail)).rejection =
      some (.beneathSymlink "mail/moved/message".toList) := by
    decide +kernel
  have hpass : ∀ key,
      findEntryOutsideRoot list (backup key).flatten (rootOf key) = .ok none := by
    intro key
    cases key with
    | _ => exact findEntryOutsideRoot_none_iff.mpr ⟨_, rfl, by decide +kernel⟩
  refine ⟨hpass, hrejection, ?_⟩
  intro hrefused
  exact absurd (hrejection.symm.trans (hrefused.1 hpass .mail)) (Option.some_ne_none _)

end SymlinkedFolder

end RestoreTar

end MailPanel

import Mathlib.Data.Bool.AllAny
import Mathlib.Data.List.Basic

/-
Where backups are stored away from the server: how a destination names the object of
a backup, and which of the objects it holds its listing answers.
-/

namespace MailPanel

namespace Backups

abbrev BackupId := String
abbrev Key := String

/-- `<base><id>.tar`, with a slash between unless the base is empty or ends in one. -/
def backupObjectKey (base : String) (backupId : BackupId) : Key :=
  let normalised :=
    if base = "" then "" else if base.toList.getLast? = some '/' then base else base ++ "/"
  normalised ++ backupId ++ ".tar"

/-- The part of a key after its last slash. -/
def baseName (key : Key) : List Char :=
  (key.toList.reverse.takeWhile fun c => c ≠ '/').reverse

/-- The text before a final `.tar`, unless there is none. It looks at the base name only, so any
key with such an end is taken for a backup's. -/
def backupIdFromKey (key : Key) : Option BackupId :=
  let base := baseName key
  if ".tar".toList.isSuffixOf base then
    let id := base.take (base.length - 4)
    if id = [] then none else some (String.ofList id)
  else none

inductive DestinationType where
  | s3
  | ftp
deriving DecidableEq, Repr

/-- No segment is `.` or `..`: in a request such a key would be resolved to another. -/
def noDotSegments (base : String) : Bool :=
  (base.toList.splitOn '/').all fun segment => segment ≠ ['.'] && segment ≠ ['.', '.']

/-- A configured destination: the stored prefix of an S3 bucket, or the base path of
an FTP server with its slashes settled. -/
structure Destination where
  type : DestinationType
  describe : String
  base : String
  plain : noDotSegments base = true
deriving DecidableEq, Repr

namespace Destination

variable (destination : Destination)

def keyForBackup (backupId : BackupId) : Key :=
  backupObjectKey destination.base backupId

/-- S3 lists by the stored prefix as it stands, FTP the entries of one directory. -/
def covers (key : Key) : Bool :=
  match destination.type with
  | .s3 => destination.base.toList.isPrefixOf key.toList
  | .ftp =>
      let directory := if destination.base = "" then "" else destination.base ++ "/"
      decide (key = directory ++ String.ofList (baseName key))

/-- One listing request of S3 answers a page of keys; the code asks for one page. -/
def pageSize : Option Nat :=
  match destination.type with
  | .s3 => some 1000
  | .ftp => none

/-- Which keys `list` takes for backups. -/
def lists (key : Key) : Bool :=
  destination.covers key && (backupIdFromKey key).isSome

end Destination

def SlashFree (backupId : BackupId) : Prop :=
  '/' ∉ backupId.toList

instance : DecidablePred SlashFree := fun backupId =>
  inferInstanceAs (Decidable ('/' ∉ backupId.toList))

example : (backupObjectKey "backups" "bkp_1", backupObjectKey "nightly/" "bkp_1",
    backupIdFromKey "backups/bkp_1.tar", backupIdFromKey "backups/.tar") =
    ("backups/bkp_1.tar", "nightly/bkp_1.tar", some "bkp_1", none) := by decide

/-- The base under which keys start ends at a slash, or is empty. -/
theorem normalised_ends (base : String) :
    ∃ normalised : List Char, (normalised = [] ∨ normalised.getLast? = some '/') ∧
      ∀ id : BackupId, (backupObjectKey base id).toList = normalised ++ id.toList ++
        ".tar".toList := by
  refine ⟨(if base = "" then "" else if base.toList.getLast? = some '/' then base
    else base ++ "/").toList, ?_, ?_⟩
  · by_cases hempty : base = ""
    · exact Or.inl (by simp [hempty])
    · by_cases hslash : base.toList.getLast? = some '/'
      · rw [if_neg hempty, if_pos hslash]
        exact Or.inr hslash
      · rw [if_neg hempty, if_neg hslash, String.toList_append]
        exact Or.inr (by simp)
  · intro id
    simp only [backupObjectKey, String.toList_append]

theorem backupObjectKey_injective (base : String) :
    Function.Injective (backupObjectKey base) := by
  intro left right heq
  obtain ⟨normalised, -, hkey⟩ := normalised_ends base
  have hlist := congrArg String.toList heq
  rw [hkey left, hkey right, List.append_left_inj, List.append_right_inj] at hlist
  exact String.toList_inj.mp hlist

theorem Destination.keyForBackup_inj (destination : Destination) {left right : BackupId} :
    destination.keyForBackup left = destination.keyForBackup right ↔ left = right :=
  (backupObjectKey_injective destination.base).eq_iff

/-- The base name of a backup's key is its id with the ending, whatever the prefix is: an id has
no slash, so the last slash of the key belongs to the prefix. -/
theorem baseName_backupObjectKey (base : String) {id : BackupId} (hid : SlashFree id) :
    baseName (backupObjectKey base id) = id.toList ++ ".tar".toList := by
  obtain ⟨normalised, hends, hkey⟩ := normalised_ends base
  have hreverse : (backupObjectKey base id).toList.reverse =
      (id.toList ++ ".tar".toList).reverse ++ normalised.reverse := by
    rw [hkey id, List.append_assoc, List.reverse_append]
  have hplain : ∀ c ∈ (id.toList ++ ".tar".toList).reverse, (decide (c ≠ '/')) = true := by
    intro c hc
    rcases List.mem_append.mp (List.mem_reverse.mp hc) with hc | hc
    · have hne : c ≠ '/' := fun heq => hid (heq ▸ hc)
      simpa using hne
    · have hending : ∀ c ∈ ".tar".toList, (decide (c ≠ '/')) = true :=
        List.all_iff_forall_prop.mp (by decide)
      exact hending c hc
  have hstop : normalised.reverse.takeWhile (fun c => decide (c ≠ '/')) = [] := by
    rcases hends with rfl | hlast
    · rfl
    · rw [← List.head?_reverse] at hlast
      cases hreversed : normalised.reverse with
      | nil => rfl
      | cons c rest =>
          rw [hreversed, List.head?_cons, Option.some.injEq] at hlast
          rw [hlast]
          rfl
  rw [baseName, hreverse, List.takeWhile_append_of_pos hplain, hstop, List.append_nil,
    List.reverse_reverse]

namespace Destination

variable (destination : Destination)

/-- The destination stores a backup of the panel under this key. -/
def Owns (key : Key) : Prop :=
  ∃ id, SlashFree id ∧ key = destination.keyForBackup id

/-- The one id that can have this key. -/
def idOf (key : Key) : BackupId :=
  String.ofList ((baseName key).take ((baseName key).length - 4))

theorem idOf_keyForBackup {id : BackupId} (hid : SlashFree id) :
    idOf (destination.keyForBackup id) = id := by
  have hbase := baseName_backupObjectKey destination.base hid
  rw [idOf, keyForBackup, hbase]
  simp

theorem owns_iff {key : Key} :
    destination.Owns key ↔
      SlashFree (idOf key) ∧ key = destination.keyForBackup (idOf key) := by
  constructor
  · rintro ⟨id, hid, rfl⟩
    rw [idOf_keyForBackup destination hid]
    exact ⟨hid, rfl⟩
  · rintro ⟨hid, hkey⟩
    exact ⟨idOf key, hid, hkey⟩

instance (key : Key) : Decidable (destination.Owns key) :=
  decidable_of_iff _ destination.owns_iff.symm

end Destination

example : (decide ((⟨.s3, "s3://mail/backups", "backups", by decide⟩ : Destination).Owns
      "backups/bkp_1.tar"),
    decide ((⟨.s3, "s3://mail/backups", "backups", by decide⟩ : Destination).Owns
      "backups/old/bkp_1.tar")) = (true, false) := by decide

end Backups

end MailPanel

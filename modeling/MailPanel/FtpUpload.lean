import MailPanel.StepRun

/-
Uploads of one archive to an FTP server, each of which takes up what the attempts before
it have left at the remote path.
-/

namespace MailPanel

namespace Ftp

open StepRun

abbrev Bytes := List UInt8

/-- The size is the one that the archive writer counted. -/
structure UploadParams where
  content : Bytes
  sizeBytes : Nat
  size_eq : sizeBytes = content.length
deriving DecidableEq, Repr

/-- How a transfer ends: refused before the server touches the file, broken off after this
many bytes have arrived, or answered. -/
inductive Transfer where
  | refused
  | broken (sent : Nat)
  | completed
deriving DecidableEq, Repr

inductive CleanUp where
  | none
  | removed
  | failed (applied : Bool)
deriving DecidableEq, Repr

/-- What the server grants one attempt, and the deletion that follows it. Attempts differ in
nothing else, so a list of them is a whole history of an upload. -/
structure Attempt where
  connects : Bool
  ensuresDir : Bool
  answersSize : Bool
  transfer : Transfer
  cleanUp : CleanUp
deriving DecidableEq, Repr

/-- The remote path, as long as there is a file. -/
abbrev Remote := Option Bytes

/-- `SIZE` of a path without a file fails too. -/
def clientSize (remote : Remote) (attempt : Attempt) : Option Nat :=
  if attempt.answersSize then remote.map List.length else none

/-- `STOR` empties the file before it writes. -/
def uploadFrom (content : Bytes) (remote : Remote) : Transfer → Remote × Bool
  | .refused => (remote, false)
  | .broken sent => (some (content.take sent), false)
  | .completed => (some content, true)

/-- `APPE` from a local offset on. -/
def appendFrom (content : Bytes) (localStart : Nat) (remote : Remote) : Transfer → Remote × Bool
  | .refused => (remote, false)
  | .broken sent => (some (remote.getD [] ++ (content.drop localStart).take sent), false)
  | .completed => (some (remote.getD [] ++ content.drop localStart), true)

/-- The path after the attempt, and whether the promise of `upload` is fulfilled. -/
def upload (basePath : String) (params : UploadParams) (remote : Remote) (attempt : Attempt) :
    Remote × Bool :=
  if !attempt.connects then (remote, false)
  else if basePath ≠ "" && !attempt.ensuresDir then (remote, false)
  else
    let remoteSize := (clientSize remote attempt).getD 0
    if 0 < remoteSize && remoteSize < params.sizeBytes then
      appendFrom params.content remoteSize remote attempt.transfer
    else uploadFrom params.content remote attempt.transfer

def cleanUp (remote : Remote) : CleanUp → Remote
  | .none => remote
  | .removed => none
  | .failed applied => if applied then none else remote

/-- What the attempt and its clean-up leave. -/
def uploadOne (basePath : String) (params : UploadParams) (remote : Remote)
    (attempt : Attempt) : Remote :=
  cleanUp (upload basePath params remote attempt).1 attempt.cleanUp

/-- What is there begins like the archive. -/
def Partial (content : Bytes) (remote : Remote) : Prop :=
  ∀ bytes, remote = some bytes → bytes <+: content

section Attempts

variable {content : Bytes} {remote : Remote}

theorem Partial.uploadFrom (hbegun : Partial content remote) (transfer : Transfer) :
    Partial content (uploadFrom content remote transfer).1 := by
  cases transfer with
  | refused => exact hbegun
  | broken sent =>
      intro bytes hbytes
      obtain rfl := Option.some.inj hbytes
      exact List.take_prefix sent content
  | completed =>
      intro bytes hbytes
      obtain rfl := Option.some.inj hbytes
      exact List.prefix_rfl

/-- What is there and the archive from its end on are the archive. -/
theorem Partial.append_drop {bytes : Bytes} (hbegun : Partial content (some bytes)) :
    bytes ++ content.drop bytes.length = content := by
  obtain ⟨rest, hrest⟩ := hbegun bytes rfl
  rw [← hrest, List.drop_left]

theorem Partial.appendFrom {bytes : Bytes} (hbegun : Partial content (some bytes))
    (transfer : Transfer) :
    Partial content (appendFrom content bytes.length (some bytes) transfer).1 := by
  have hwhole := hbegun.append_drop
  cases transfer with
  | refused => exact hbegun
  | broken sent =>
      intro other hother
      obtain rfl := Option.some.inj hother
      have htake : (content.drop bytes.length).take sent <+: content.drop bytes.length :=
        List.take_prefix sent _
      have happend := (List.prefix_append_right_inj bytes).mpr htake
      rwa [hwhole] at happend
  | completed =>
      intro other hother
      obtain rfl := Option.some.inj hother
      have hsent : bytes ++ content.drop ((some bytes.length).getD 0) = content := hwhole
      exact ⟨[], (List.append_nil _).trans hsent⟩

theorem uploadFrom_resolves {transfer : Transfer}
    (hresolves : (Ftp.uploadFrom content remote transfer).2 = true) :
    (Ftp.uploadFrom content remote transfer).1 = some content := by
  cases transfer with
  | refused => exact absurd hresolves Bool.false_ne_true
  | broken sent => exact absurd hresolves Bool.false_ne_true
  | completed => rfl

theorem Partial.appendFrom_resolves {bytes : Bytes} (hbegun : Partial content (some bytes))
    {transfer : Transfer}
    (hresolves : (Ftp.appendFrom content bytes.length (some bytes) transfer).2 = true) :
    (Ftp.appendFrom content bytes.length (some bytes) transfer).1 = some content := by
  cases transfer with
  | refused => exact absurd hresolves Bool.false_ne_true
  | broken sent => exact absurd hresolves Bool.false_ne_true
  | completed => exact congrArg some hbegun.append_drop

/-- The size that is asked for is that of what is there, unless it is zero. -/
theorem clientSize_pos {attempt : Attempt} (hpos : 0 < (clientSize remote attempt).getD 0) :
    ∃ bytes, remote = some bytes ∧ (clientSize remote attempt).getD 0 = bytes.length := by
  rw [clientSize] at hpos ⊢
  by_cases hanswers : attempt.answersSize = true
  · rw [if_pos hanswers] at hpos ⊢
    cases remote with
    | none => exact absurd hpos (Nat.lt_irrefl 0)
    | some bytes => exact ⟨bytes, rfl, rfl⟩
  · rw [if_neg hanswers] at hpos
    exact absurd hpos (Nat.lt_irrefl 0)

/-- An attempt sends the whole archive, or what is missing of it, or nothing. -/
theorem upload_cases (basePath : String) (params : UploadParams) (remote : Remote)
    (attempt : Attempt) :
    upload basePath params remote attempt = (remote, false) ∨
      upload basePath params remote attempt =
        Ftp.uploadFrom params.content remote attempt.transfer ∨
      ∃ bytes, remote = some bytes ∧ upload basePath params remote attempt =
        Ftp.appendFrom params.content bytes.length remote attempt.transfer := by
  rw [upload]
  split
  · exact Or.inl rfl
  split
  · exact Or.inl rfl
  dsimp only
  split
  · rename_i hresumes
    rw [Bool.and_eq_true, decide_eq_true_eq] at hresumes
    obtain ⟨bytes, hremote, hsize⟩ := clientSize_pos hresumes.1
    right
    right
    exact ⟨bytes, hremote, by rw [hsize]⟩
  · exact Or.inr (Or.inl rfl)

theorem Partial.upload {params : UploadParams} (hbegun : Partial params.content remote)
    (basePath : String) (attempt : Attempt) :
    Partial params.content (upload basePath params remote attempt).1 := by
  rcases upload_cases basePath params remote attempt with hnone | hwhole | ⟨bytes, rfl, hrest⟩
  · rw [hnone]
    exact hbegun
  · rw [hwhole]
    exact hbegun.uploadFrom attempt.transfer
  · rw [hrest]
    exact hbegun.appendFrom attempt.transfer

theorem Partial.cleanUp (hbegun : Partial content remote) (after : CleanUp) :
    Partial content (cleanUp remote after) := by
  have hgone : Partial content none := fun bytes hbytes => by cases hbytes
  cases after with
  | none => exact hbegun
  | removed => exact hgone
  | failed applied =>
      cases applied with
      | true => exact hgone
      | false => exact hbegun

end Attempts

/-- Whatever the attempts before left of the archive, an upload that is fulfilled has stored the
archive. An attempt resumes only behind what the server says it has, and begins anew when that
cannot be asked. -/
theorem upload_reconstructs (basePath : String) (params : UploadParams)
    (attempts : List Attempt) (attempt : Attempt)
    (hresolves : (upload basePath params (run (uploadOne basePath params) none attempts)
      attempt).2 = true) :
    (upload basePath params (run (uploadOne basePath params) none attempts) attempt).1 =
      some params.content := by
  have hbegun : Partial params.content (run (uploadOne basePath params) none attempts) := by
    apply invariant_of_run (uploadOne basePath params) (Partial params.content)
    · intro remote other hremote
      exact (hremote.upload basePath other).cleanUp other.cleanUp
    · exact fun bytes hbytes => by cases hbytes
  rcases upload_cases basePath params (run (uploadOne basePath params) none attempts) attempt
    with hnone | hwhole | ⟨bytes, hbytes, hrest⟩
  · rw [hnone] at hresolves
    exact absurd hresolves Bool.false_ne_true
  · rw [hwhole] at hresolves ⊢
    exact uploadFrom_resolves hresolves
  · rw [hbytes] at hbegun
    rw [hrest, hbytes] at hresolves ⊢
    exact hbegun.appendFrom_resolves hresolves

namespace BrokenTwice

def params : UploadParams := ⟨[1, 2, 3, 4, 5], 5, rfl⟩

/-- The first attempt breaks off, and its clean-up fails; the second one cannot ask for
the size, and the third one resumes and breaks off too. -/
def attempts : List Attempt :=
  [⟨true, true, true, .broken 4, .failed false⟩, ⟨true, true, false, .broken 2, .failed false⟩,
    ⟨true, true, true, .broken 1, .none⟩]

def last : Attempt := ⟨true, true, true, .completed, .none⟩

example : run (uploadOne "/backups" params) none attempts = some [1, 2, 3] := by decide

/-- Three attempts break off: the first with a clean-up that fails, the second without being
able to ask for the size, the third after it has resumed. The last attempt completes the
archive. -/
theorem last_reconstructs :
    (upload "/backups" params (run (uploadOne "/backups" params) none attempts) last).1 =
      some [1, 2, 3, 4, 5] :=
  upload_reconstructs "/backups" params attempts last (by decide)

end BrokenTwice

end Ftp

end MailPanel

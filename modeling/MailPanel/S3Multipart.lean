import MailPanel.RowTable

/-
Uploads to an S3 bucket in parts: the partition of the file, the retries of each part,
and what the store makes of the parts that it has got.
-/

namespace MailPanel

namespace S3

open RowTable

abbrev Bytes := List UInt8

/-- 64 MiB. -/
def defaultPartSizeBytes : Nat := 64 * 1024 * 1024

def maxPartAttempts : Nat := 3

/-- The greatest number the store takes for a part. -/
def maxPartNumber : Nat := 10000

/-- Every part but the last has at least 5 MiB. -/
def minPartBytes : Nat := 5 * 1024 * 1024

structure Config where
  partSize : Nat
  multipartThreshold : Nat
  partSize_pos : 0 < partSize

def Config.default : Config where
  partSize := defaultPartSizeBytes
  multipartThreshold := defaultPartSizeBytes
  partSize_pos := by decide

structure StoredPart where
  number : Nat
  etag : Nat
  content : Bytes
deriving DecidableEq, Repr

structure UploadedPart where
  partNumber : Nat
  etag : Nat
deriving DecidableEq, Repr

inductive Stored where
  | whole (content : Bytes)
  | assembled (parts : List StoredPart)
deriving DecidableEq, Repr

/-- What the store has under the key: the parts of an open upload, and the object. -/
structure Bucket where
  parts : Option (List StoredPart)
  object : Option Stored
  nextTag : Nat
deriving DecidableEq, Repr

/-- How a part request ends.  One that fails may have stored the part. -/
inductive PartOutcome where
  | answered
  | noEtag
  | failed (applied : Bool)
deriving DecidableEq, Repr

/-- How the request for a part ends at each attempt, and the request for a small file. -/
structure Pattern where
  put : Bool
  part : Nat → Nat → PartOutcome

namespace Bucket

variable (b : Bucket)

/-- A part replaces the one of its number. -/
def putPart (number : Nat) (content : Bytes) : Bucket :=
  { b with
    parts := b.parts.map fun stored =>
      stored.filter (fun part => part.number ≠ number) ++ [⟨number, b.nextTag, content⟩]
    nextTag := b.nextTag + 1 }

/-- One request, with the tag that its answer carries. It may be carried out and still fail, and
an answer may lack the tag. -/
def uploadPart (number : Nat) (content : Bytes) (outcome : PartOutcome) :
    Bucket × Option Nat :=
  if maxPartNumber < number then (b, none)
  else
    match outcome with
    | .answered => (b.putPart number content, some b.nextTag)
    | .noEtag => (b.putPart number content, none)
    | .failed applied => (if applied then b.putPart number content else b, none)

/-- The stored part that a line of the completion names. -/
def findPart (stored : List StoredPart) (part : UploadedPart) : Option StoredPart :=
  (lookup StoredPart.number part.partNumber stored).filter fun found => found.etag = part.etag

/-- What the store asks of the parts that it puts together. -/
def assembles (parts : List StoredPart) : Bool :=
  !parts.isEmpty && decide ((parts.map StoredPart.number).Pairwise (· < ·)) &&
    parts.dropLast.all fun part => decide (minPartBytes ≤ part.content.length)

def completeMultipart (parts : List UploadedPart) : Bucket × Bool :=
  match b.parts.bind fun stored => parts.mapM (findPart stored) with
  | none => (b, false)
  | some found =>
      if assembles found then ({ b with parts := none, object := some (.assembled found) }, true)
      else (b, false)

def createMultipart : Bucket := { b with parts := some [] }

def abortMultipart : Bucket := { b with parts := none }

end Bucket

/-- The attempts that are left of a part. A part that was stored in a failed attempt is stored
again, under the same number. -/
def uploadPartWithRetry (outcome : Nat → PartOutcome) (number : Nat) (content : Bytes) :
    Nat → Bucket → Bucket × Option Nat
  | 0, b => (b, none)
  | left + 1, b =>
      match b.uploadPart number content (outcome (maxPartAttempts - left)) with
      | (next, some etag) => (next, some etag)
      | (next, none) => uploadPartWithRetry outcome number content left next

/-- The loop over the file, from an offset on. A part takes as many bytes as are left, and no
more than the configured size. -/
def uploadParts (config : Config) (pattern : Pattern) (file : Bytes) (b : Bucket)
    (partNumber offset : Nat) (parts : List UploadedPart) : Bucket × Option (List UploadedPart) :=
  if offset < file.length then
    let size := min config.partSize (file.length - offset)
    let buffer := (file.drop offset).take size
    match uploadPartWithRetry (pattern.part partNumber) partNumber buffer maxPartAttempts b with
    | (next, none) => (next, none)
    | (next, some etag) =>
        uploadParts config pattern file next (partNumber + 1) (offset + size)
          (parts ++ [⟨partNumber, etag⟩])
  else (b, some parts)
termination_by file.length - offset
decreasing_by
  have hpos := config.partSize_pos
  omega

/-- The bucket, and whether the promise is fulfilled. Whatever fails, the upload is aborted
before the error goes on. -/
def multipartUpload (config : Config) (pattern : Pattern) (file : Bytes) (b : Bucket) :
    Bucket × Bool :=
  match uploadParts config pattern file b.createMultipart 1 0 [] with
  | (next, none) => (next.abortMultipart, false)
  | (next, some parts) =>
      match next.completeMultipart parts with
      | (done, true) => (done, true)
      | (done, false) => (done.abortMultipart, false)

def singlePartUpload (pattern : Pattern) (file : Bytes) (b : Bucket) : Bucket × Bool :=
  if pattern.put then ({ b with object := some (.whole file) }, true) else (b, false)

def upload (config : Config) (pattern : Pattern) (file : Bytes) (b : Bucket) : Bucket × Bool :=
  if config.multipartThreshold < file.length then multipartUpload config pattern file b
  else singlePartUpload pattern file b

/-- The bucket holds the file, in parts that count from one on: no part but the last is below
the smallest size that the store accepts, and together they are the file. -/
structure Bucket.Assembled (b : Bucket) (file : Bytes) (parts : List StoredPart) : Prop where
  object : b.object = some (.assembled parts)
  numbers : parts.map StoredPart.number = List.range' 1 parts.length
  bound : parts.length ≤ maxPartNumber
  sizes : ∀ part ∈ parts.dropLast, minPartBytes ≤ part.content.length
  content : (parts.map StoredPart.content).flatten = file

/-- The uploads of a file: what one that is fulfilled has stored, that one that fails leaves
no upload open, and that the store can grant one. -/
structure Covers (config : Config) (file : Bytes) : Prop where
  completes : ∀ pattern b, config.multipartThreshold < file.length →
    (upload config pattern file b).2 = true →
      ∃ parts, (upload config pattern file b).1.Assembled file parts
  aborts : ∀ pattern b, config.multipartThreshold < file.length →
    (upload config pattern file b).2 = false → (upload config pattern file b).1.parts = none
  possible : ∀ b, ∃ pattern, (upload config pattern file b).2 = true

section Parts

variable {b : Bucket} {stored done : List StoredPart} {number : Nat} {content : Bytes}

/-- An upload is open, its parts have different numbers, and these parts are among them. -/
def Holds (b : Bucket) (done : List StoredPart) : Prop :=
  ∃ stored, b.parts = some stored ∧ (stored.map StoredPart.number).Nodup ∧
    ∀ part ∈ done, part ∈ stored

theorem holds_createMultipart (b : Bucket) : Holds b.createMultipart [] :=
  ⟨[], rfl, List.nodup_nil, fun _ hpart => absurd hpart List.not_mem_nil⟩

theorem Holds.putPart (hholds : Holds b done) (hfresh : ∀ part ∈ done, part.number ≠ number)
    (content : Bytes) :
    Holds (b.putPart number content) (done ++ [⟨number, b.nextTag, content⟩]) := by
  obtain ⟨stored, hparts, hnodup, hmem⟩ := hholds
  refine ⟨_, by rw [Bucket.putPart, hparts]; rfl, ?_, ?_⟩
  · rw [List.map_append, List.map_singleton]
    apply List.Nodup.append (hnodup.sublist (List.filter_sublist.map _)) (List.nodup_singleton _)
    intro other hother hnumber
    obtain ⟨part, hpart, rfl⟩ := List.mem_map.mp hother
    have hne := (List.mem_filter.mp hpart).2
    rw [List.mem_singleton.mp hnumber] at hne
    simp at hne
  · intro part hpart
    rcases List.mem_append.mp hpart with hold | hnew
    · apply List.mem_append_left
      exact List.mem_filter.mpr ⟨hmem part hold, by simpa using hfresh part hold⟩
    · exact List.mem_append_right _ hnew

theorem Holds.mono {fewer : List StoredPart} (hholds : Holds b done)
    (hfewer : ∀ part ∈ fewer, part ∈ done) : Holds b fewer := by
  obtain ⟨stored, hparts, hnodup, hmem⟩ := hholds
  exact ⟨stored, hparts, hnodup, fun part hpart => hmem part (hfewer part hpart)⟩

/-- What one request leaves: the parts that were there, and the one it was answered for. -/
theorem Holds.uploadPart (hholds : Holds b done) (hfresh : ∀ part ∈ done, part.number ≠ number)
    (content : Bytes) (outcome : PartOutcome) :
    Holds (b.uploadPart number content outcome).1 done ∧
      ∀ etag, (b.uploadPart number content outcome).2 = some etag → number ≤ maxPartNumber ∧
        Holds (b.uploadPart number content outcome).1 (done ++ [⟨number, etag, content⟩]) := by
  have hput := hholds.putPart hfresh content
  have hkept := hput.mono fun part hpart => List.mem_append_left _ hpart
  unfold Bucket.uploadPart
  by_cases hnumber : maxPartNumber < number
  · rw [if_pos hnumber]
    exact ⟨hholds, fun etag hetag => by cases hetag⟩
  · rw [if_neg hnumber]
    cases outcome with
    | answered =>
        refine ⟨hkept, ?_⟩
        intro etag hetag
        obtain rfl := Option.some.inj hetag
        exact ⟨Nat.le_of_not_lt hnumber, hput⟩
    | noEtag => exact ⟨hkept, fun etag hetag => by cases hetag⟩
    | failed applied =>
        cases applied with
        | true => exact ⟨hkept, fun etag hetag => by cases hetag⟩
        | false => exact ⟨hholds, fun etag hetag => by cases hetag⟩

theorem Holds.uploadPartWithRetry (hholds : Holds b done)
    (hfresh : ∀ part ∈ done, part.number ≠ number) (outcome : Nat → PartOutcome)
    (content : Bytes) (left : Nat) :
    Holds (uploadPartWithRetry outcome number content left b).1 done ∧
      ∀ etag, (uploadPartWithRetry outcome number content left b).2 = some etag →
        number ≤ maxPartNumber ∧
          Holds (uploadPartWithRetry outcome number content left b).1
            (done ++ [⟨number, etag, content⟩]) := by
  induction left generalizing b with
  | zero => exact ⟨hholds, fun etag hetag => by cases hetag⟩
  | succ left ih =>
      have hrequest := hholds.uploadPart hfresh content (outcome (maxPartAttempts - left))
      rw [S3.uploadPartWithRetry]
      cases hanswer : b.uploadPart number content (outcome (maxPartAttempts - left)) with
      | mk next etag =>
          rw [hanswer] at hrequest
          cases etag with
          | some etag => exact hrequest
          | none => exact ih hrequest.1

end Parts

def StoredPart.uploaded (part : StoredPart) : UploadedPart := ⟨part.number, part.etag⟩

section Loop

variable {config : Config} {pattern : Pattern} {file : Bytes}

/-- The loop has come to this offset, and the parts before it are stored: they are numbered from
one on, and all of them but the last are full. -/
structure Sent (config : Config) (file : Bytes) (b : Bucket) (done : List StoredPart)
    (offset : Nat) : Prop where
  holds : Holds b done
  numbers : done.map StoredPart.number = List.range' 1 done.length
  bound : done.length ≤ maxPartNumber
  content : (done.map StoredPart.content).flatten = file.take offset
  reached : offset = min (done.length * config.partSize) file.length
  sizes : ∀ part ∈ done.dropLast, part.content.length = config.partSize
  full : offset < file.length → ∀ part ∈ done, part.content.length = config.partSize

theorem Sent.start (b : Bucket) : Sent config file b.createMultipart [] 0 where
  holds := holds_createMultipart b
  numbers := rfl
  bound := Nat.zero_le _
  content := rfl
  reached := by simp
  sizes := fun _ hpart => absurd hpart List.not_mem_nil
  full := fun _ _ hpart => absurd hpart List.not_mem_nil

theorem Sent.fresh {b : Bucket} {done : List StoredPart} {offset : Nat}
    (hsent : Sent config file b done offset) :
    ∀ part ∈ done, part.number ≠ done.length + 1 := by
  intro part hpart
  have hnumber : part.number ∈ done.map StoredPart.number := List.mem_map_of_mem hpart
  rw [hsent.numbers, List.mem_range'_1] at hnumber
  omega

/-- One more part: the loop has come as far as the part reaches, and every part but perhaps this
one is full. -/
theorem Sent.next {b next : Bucket} {done : List StoredPart} {offset etag : Nat}
    (hsent : Sent config file b done offset) (hmore : offset < file.length)
    (hbound : done.length + 1 ≤ maxPartNumber)
    (hholds : Holds next (done ++ [⟨done.length + 1, etag,
      (file.drop offset).take (min config.partSize (file.length - offset))⟩])) :
    Sent config file next (done ++ [⟨done.length + 1, etag,
        (file.drop offset).take (min config.partSize (file.length - offset))⟩])
      (offset + min config.partSize (file.length - offset)) where
  holds := hholds
  numbers := by
    rw [List.map_append, hsent.numbers, List.length_append, List.length_singleton,
      List.range'_concat]
    simp [Nat.add_comm]
  bound := by
    rw [List.length_append]
    exact hbound
  content := by
    rw [List.map_append, List.flatten_append, hsent.content, List.take_add]
    simp
  reached := by
    have hoffset := hsent.reached
    have hsucc : (done.length + 1) * config.partSize = done.length * config.partSize +
        config.partSize := Nat.succ_mul _ _
    rw [List.length_append, List.length_singleton, hsucc]
    omega
  sizes := by
    rw [List.dropLast_concat]
    exact hsent.full hmore
  full := by
    intro hstill part hpart
    rcases List.mem_append.mp hpart with hold | hnew
    · exact hsent.full hmore part hold
    · rw [List.mem_singleton.mp hnew, List.length_take, List.length_drop]
      omega

/-- What the loop has stored when it comes to the end of the file: all of it, in parts that are
numbered from one. -/
theorem uploadParts_sent {b next : Bucket} {done : List StoredPart} {offset : Nat}
    {result : List UploadedPart} (hsent : Sent config file b done offset)
    (hresult : uploadParts config pattern file b (done.length + 1) offset
      (done.map StoredPart.uploaded) = (next, some result)) :
    ∃ all, Sent config file next all file.length ∧ result = all.map StoredPart.uploaded := by
  induction hrest : file.length - offset using Nat.strongRecOn
    generalizing b done offset with
  | ind rest ih =>
      rw [uploadParts] at hresult
      by_cases hmore : offset < file.length
      · rw [if_pos hmore] at hresult
        have hpart := hsent.holds.uploadPartWithRetry hsent.fresh
          (pattern.part (done.length + 1))
          ((file.drop offset).take (min config.partSize (file.length - offset))) maxPartAttempts
        cases hanswer : uploadPartWithRetry (pattern.part (done.length + 1)) (done.length + 1)
            ((file.drop offset).take (min config.partSize (file.length - offset)))
            maxPartAttempts b with
        | mk after etag =>
            simp only [hanswer] at hresult hpart
            cases etag with
            | none => simp at hresult
            | some etag =>
                obtain ⟨hbound, hholds⟩ := hpart.2 etag rfl
                have hnext := hsent.next hmore hbound hholds
                have hpos := config.partSize_pos
                apply ih _ _ hnext _ rfl
                · omega
                · simpa [StoredPart.uploaded] using hresult
      · rw [if_neg hmore] at hresult
        obtain ⟨rfl, hparts⟩ := Prod.mk.inj hresult
        have hend : offset = file.length := by
          have hoffset := hsent.reached
          omega
        exact ⟨done, hend ▸ hsent, (Option.some.inj hparts).symm⟩

/-- A store that grants every request. -/
def granting : Pattern := ⟨true, fun _ _ => .answered⟩

theorem uploadPartWithRetry_granting {number : Nat} (hnumber : number ≤ maxPartNumber)
    (content : Bytes) (b : Bucket) :
    uploadPartWithRetry (granting.part number) number content maxPartAttempts b =
      (b.putPart number content, some b.nextTag) := by
  have hgranted : b.uploadPart number content (granting.part number 1) =
      (b.putPart number content, some b.nextTag) := by
    rw [Bucket.uploadPart.eq_def, if_neg (Nat.not_lt_of_le hnumber)]
    rfl
  rw [maxPartAttempts, uploadPartWithRetry, maxPartAttempts, hgranted]

/-- As long as the part numbers last, a store that grants every request lets the loop come
to its end. -/
theorem uploadParts_granting (hsize : file.length ≤ maxPartNumber * config.partSize)
    (b : Bucket) (count : Nat) (parts : List UploadedPart) :
    ∃ next result, uploadParts config granting file b (count + 1)
      (min (count * config.partSize) file.length) parts = (next, some result) := by
  induction hrest : file.length - min (count * config.partSize) file.length using
    Nat.strongRecOn generalizing b count parts with
  | ind rest ih =>
      rw [uploadParts]
      by_cases hmore : min (count * config.partSize) file.length < file.length
      · have hpos := config.partSize_pos
        have hbefore : count * config.partSize < maxPartNumber * config.partSize := by omega
        have hcount : count + 1 ≤ maxPartNumber := Nat.lt_of_mul_lt_mul_right hbefore
        have hsucc : (count + 1) * config.partSize = count * config.partSize +
            config.partSize := Nat.succ_mul _ _
        have hnext : min (count * config.partSize) file.length + min config.partSize
            (file.length - min (count * config.partSize) file.length) =
            min ((count + 1) * config.partSize) file.length := by omega
        simp only [if_pos hmore, uploadPartWithRetry_granting hcount, hnext]
        exact ih _ (by omega) _ _ _ rfl
      · rw [if_neg hmore]
        exact ⟨b, parts, rfl⟩

end Loop

section Completion

variable {config : Config} {pattern : Pattern} {file : Bytes} {b next : Bucket}
  {stored done : List StoredPart}

theorem mapM_findPart (hnodup : (stored.map StoredPart.number).Nodup)
    (hmem : ∀ part ∈ done, part ∈ stored) :
    (done.map StoredPart.uploaded).mapM (Bucket.findPart stored) = some done := by
  induction done with
  | nil => rfl
  | cons part rest ih =>
      have hfound : Bucket.findPart stored part.uploaded = some part := by
        have hlookup := lookup_of_mem hnodup (hmem part List.mem_cons_self)
        rw [Bucket.findPart, StoredPart.uploaded, hlookup]
        simp
      have hrest := ih fun other hother => hmem other (List.mem_cons_of_mem part hother)
      rw [List.map_cons, List.mapM_cons, hfound, hrest]
      rfl

/-- The store puts the listed parts together, if they are long enough. -/
theorem Holds.completeMultipart (hholds : Holds b done) :
    b.completeMultipart (done.map StoredPart.uploaded) =
      if Bucket.assembles done then
        ({ b with parts := none, object := some (.assembled done) }, true)
      else (b, false) := by
  obtain ⟨stored, hparts, hnodup, hmem⟩ := hholds
  rw [Bucket.completeMultipart, hparts, Option.bind_some, mapM_findPart hnodup hmem]

theorem assembles_eq_true : Bucket.assembles done = true ↔
    done ≠ [] ∧ (done.map StoredPart.number).Pairwise (· < ·) ∧
      ∀ part ∈ done.dropLast, minPartBytes ≤ part.content.length := by
  simp only [Bucket.assembles, Bool.and_eq_true, Bool.not_eq_true', List.isEmpty_eq_false_iff,
    decide_eq_true_eq, List.all_eq_true, and_assoc]

/-- A multipart upload that is fulfilled has sent the whole file, and the store has put
the parts together. -/
theorem multipartUpload_resolves
    (hresolves : (multipartUpload config pattern file b).2 = true) :
    ∃ sent done, Sent config file sent done file.length ∧ Bucket.assembles done = true ∧
      (multipartUpload config pattern file b).1.object = some (.assembled done) := by
  rw [multipartUpload] at hresolves ⊢
  cases hloop : uploadParts config pattern file b.createMultipart 1 0 [] with
  | mk sent result =>
      rw [hloop] at hresolves
      cases result with
      | none => exact absurd hresolves Bool.false_ne_true
      | some parts =>
          obtain ⟨done, hsent, rfl⟩ := uploadParts_sent (Sent.start b) hloop
          simp only [hsent.holds.completeMultipart] at hresolves ⊢
          by_cases hassembles : Bucket.assembles done = true
          · rw [if_pos hassembles]
            exact ⟨sent, done, hsent, hassembles, rfl⟩
          · rw [if_neg hassembles] at hresolves
            exact absurd hresolves Bool.false_ne_true

/-- A multipart upload that fails has been aborted. -/
theorem multipartUpload_aborts (hfails : (multipartUpload config pattern file b).2 = false) :
    (multipartUpload config pattern file b).1.parts = none := by
  rw [multipartUpload] at hfails ⊢
  cases hloop : uploadParts config pattern file b.createMultipart 1 0 [] with
  | mk sent result =>
      cases result with
      | none => rfl
      | some parts =>
          simp only [hloop] at hfails ⊢
          cases hcomplete : sent.completeMultipart parts with
          | mk done answered =>
              cases answered with
              | true => simp [hcomplete] at hfails
              | false => rfl

/-- The parts of a whole file of some length can be put together. -/
theorem Sent.assembles (hsent : Sent config file b done file.length) (hfile : file ≠ [])
    (hpart : minPartBytes ≤ config.partSize) : Bucket.assembles done = true := by
  rw [assembles_eq_true]
  refine ⟨?_, ?_, ?_⟩
  · rintro rfl
    have hreached := hsent.content
    rw [List.take_length] at hreached
    exact hfile hreached.symm
  · rw [hsent.numbers]
    exact List.pairwise_lt_range'
  · intro part hmem
    rw [hsent.sizes part hmem]
    exact hpart

theorem multipartUpload_granting (hfile : file ≠ [])
    (hsize : file.length ≤ maxPartNumber * config.partSize)
    (hpart : minPartBytes ≤ config.partSize) :
    (multipartUpload config granting file b).2 = true := by
  obtain ⟨sent, parts, hloop⟩ := uploadParts_granting hsize b.createMultipart 0 []
  rw [Nat.zero_mul, Nat.zero_min] at hloop
  obtain ⟨done, hsent, rfl⟩ := uploadParts_sent (Sent.start b) hloop
  have hassembles := hsent.assembles hfile hpart
  rw [multipartUpload, hloop]
  simp only [hsent.holds.completeMultipart, if_pos hassembles]

/-- What a multipart upload that is fulfilled has stored. -/
theorem Sent.assembled (hsent : Sent config file b done file.length)
    (hassembles : Bucket.assembles done = true)
    (hobject : next.object = some (.assembled done)) : next.Assembled file done where
  object := hobject
  numbers := hsent.numbers
  bound := hsent.bound
  sizes := (assembles_eq_true.mp hassembles).2.2
  content := by rw [hsent.content, List.take_length]

end Completion

/-- Whatever the store grants, only so much can be sent in parts of the default size. -/
theorem upload_resolves_le {pattern : Pattern} {file : Bytes} {b : Bucket}
    (hresolves : (upload Config.default pattern file b).2 = true) :
    file.length ≤ maxPartNumber * defaultPartSizeBytes := by
  have hthreshold : Config.default.multipartThreshold = defaultPartSizeBytes := rfl
  have hpart : Config.default.partSize = defaultPartSizeBytes := rfl
  rw [upload, hthreshold] at hresolves
  by_cases hlarge : defaultPartSizeBytes < file.length
  · rw [if_pos hlarge] at hresolves
    obtain ⟨sent, done, hsent, -, -⟩ := multipartUpload_resolves hresolves
    have hparts : done.length * defaultPartSizeBytes ≤ maxPartNumber * defaultPartSizeBytes :=
      Nat.mul_le_mul_right _ hsent.bound
    have hreached := hsent.reached
    rw [hpart] at hreached
    omega
  · have hone : 1 * defaultPartSizeBytes ≤ maxPartNumber * defaultPartSizeBytes :=
      Nat.mul_le_mul_right _ (by decide)
    omega

/-- The part numbers run out where the file has more than ten thousand parts of the default
size. The part size is fixed and does not grow with the file, which may be far larger than
that. -/
theorem covers_default_iff (file : Bytes) :
    Covers Config.default file ↔ file.length ≤ maxPartNumber * defaultPartSizeBytes := by
  constructor
  · intro hcovers
    obtain ⟨pattern, hresolves⟩ := hcovers.possible ⟨none, none, 0⟩
    exact upload_resolves_le hresolves
  · intro hsize
    refine ⟨?_, ?_, ?_⟩
    · intro pattern b hlarge hresolves
      rw [upload, if_pos hlarge] at hresolves ⊢
      obtain ⟨sent, done, hsent, hassembles, hobject⟩ := multipartUpload_resolves hresolves
      exact ⟨done, hsent.assembled hassembles hobject⟩
    · intro pattern b hlarge hfails
      rw [upload, if_pos hlarge] at hfails ⊢
      exact multipartUpload_aborts hfails
    · intro b
      refine ⟨granting, ?_⟩
      rw [upload]
      by_cases hlarge : Config.default.multipartThreshold < file.length
      · rw [if_pos hlarge]
        apply multipartUpload_granting
        · rintro rfl
          exact absurd hlarge (Nat.not_lt_zero _)
        · exact hsize
        · decide
      · rw [if_neg hlarge]
        rfl

namespace OneByteMore

/-- One byte more than the numbered parts hold, far below the limit of 5 TiB. -/
def file : Bytes := List.replicate (maxPartNumber * defaultPartSizeBytes + 1) 0

/-- One byte more than the numbered parts hold, and far below what an object may have: no store,
however often it lets a part through at the second try, gets such a file. -/
theorem file_impossible :
    file.length ≤ 5 * 1024 * 1024 * 1024 * 1024 ∧ ¬ Covers Config.default file ∧
      ∀ pattern b, (upload Config.default pattern file b).2 = false := by
  have hlength : file.length = maxPartNumber * defaultPartSizeBytes + 1 :=
    List.length_replicate
  have hfails : ∀ pattern b, (upload Config.default pattern file b).2 = false := by
    intro pattern b
    by_contra hresolves
    have hle := upload_resolves_le (Bool.of_not_eq_false hresolves)
    omega
  refine ⟨?_, ?_, hfails⟩
  · rw [hlength]
    decide
  · intro hcovers
    obtain ⟨pattern, hresolves⟩ := hcovers.possible ⟨none, none, 0⟩
    rw [hfails] at hresolves
    exact Bool.false_ne_true hresolves

end OneByteMore

end S3

end MailPanel

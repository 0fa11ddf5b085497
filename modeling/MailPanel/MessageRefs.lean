import MailPanel.Base64Url
import MailPanel.McpTrash
import MailPanel.NumberText
import MailPanel.Utf16Text

/-
References to messages: `m1.<base64url(folder)>.<uidvalidity>.<uid>`.  A folder is bounded by
its UTF-16 units, and its part of a reference by the letters that spell its UTF-8.
-/

namespace MailPanel

namespace MessageRefs

open ScriptText NumberText

structure MessageRef where
  folder : Utf16
  uidValidity : List Char
  uid : Nat
deriving DecidableEq, Repr

def MAX_FOLDER_LENGTH : Nat := 255

def isUnsafeFolderUnit (unit : UInt16) : Bool :=
  unit.toNat < 0x20 || unit.toNat = 0x7f || unit.toNat = '*'.toNat || unit.toNat = '%'.toNat

def isSafeFolderName (folder : Utf16) : Bool :=
  0 < folder.length && folder.length ≤ MAX_FOLDER_LENGTH && !folder.any isUnsafeFolderUnit

/-- The UTF-8 of a folder. -/
def folderBytes (folder : Utf16) : List UInt8 := encodeUtf8 (decodeUtf16 folder)

def refText (ref : MessageRef) : List Char :=
  ['m', '1'] ++ '.' :: (Base64Url.encode (folderBytes ref.folder) ++
    '.' :: (ref.uidValidity ++ '.' :: Nat.toDigits 10 ref.uid))

def encodeMessageRef (ref : MessageRef) : Utf16 := encodeUtf16 (refText ref)

/-- A part of the pattern: up to `most` characters of one kind. -/
def isPart (kind : Char → Bool) (most : Nat) (part : List Char) : Bool :=
  part ≠ [] && part.length ≤ most && part.all kind

def isFolderCharacter (c : Char) : Bool := c.isAlphanum || c = '_' || c = '-'

/-- The pattern is of ASCII, so that it may be held against the text of a string. -/
def decodeMessageRef (id : Utf16) : Option MessageRef :=
  match (decodeUtf16 id).splitOn '.' with
  | [version, folderPart, uidValidity, uidPart] =>
      if version = ['m', '1'] ∧ isPart isFolderCharacter 400 folderPart ∧
          isPart isDigit 20 uidValidity ∧ isPart isDigit 10 uidPart then
        let folder := encodeUtf16 (decodeUtf8 (Base64Url.decode folderPart))
        if folder.length = 0 ∨ MAX_FOLDER_LENGTH < folder.length ∨ ¬isSafeFolderName folder then
          none
        else
          let uid := ofDigits 10 uidPart
          if ¬isSafeInteger uid ∨ uid < 1 ∨ 4294967295 < uid then none
          else some ⟨folder, uidValidity, uid⟩
      else none
  | _ => none

example : decodeMessageRef (encodeUtf16 "m1.SU5CT1g.17.042".toList) =
    some ⟨encodeUtf16 "INBOX".toList, "17".toList, 42⟩ := by
  decide

/- The tools' own check of a folder is the same -/

theorem length_charUnits (c : Char) : (charUnits c).length = Mcp.Trash.units c := by
  rw [charUnits, Mcp.Trash.units]
  split
  · rfl
  · rfl

theorem any_charUnits (c : Char) :
    (charUnits c).any isUnsafeFolderUnit = Mcp.Trash.isUnsafeFolderCharacter c := by
  have hvalid : c.toNat < 0xd800 ∨ 0xdfff < c.toNat ∧ c.toNat < 0x110000 := c.valid
  have hstar : c = '*' ↔ c.toNat = '*'.toNat := Char.toNat_inj.symm
  have hpercent : c = '%' ↔ c.toNat = '%'.toNat := Char.toNat_inj.symm
  have hstarNat : '*'.toNat = 42 := rfl
  have hpercentNat : '%'.toNat = 37 := rfl
  rw [Bool.eq_iff_iff, charUnits]
  by_cases hbasic : c.toNat < 0x10000
  · have hunit : (UInt16.ofNat c.toNat).toNat = c.toNat := by
      rw [UInt16.toNat_ofNat']
      omega
    simp [hbasic, isUnsafeFolderUnit, Mcp.Trash.isUnsafeFolderCharacter, hunit, hstar, hpercent]
  · have hfirst : (UInt16.ofNat (0xd800 + (c.toNat - 0x10000) / 0x400)).toNat =
        0xd800 + (c.toNat - 0x10000) / 0x400 := by
      rw [UInt16.toNat_ofNat']
      omega
    have hsecond : (UInt16.ofNat (0xdc00 + (c.toNat - 0x10000) % 0x400)).toNat =
        0xdc00 + (c.toNat - 0x10000) % 0x400 := by
      rw [UInt16.toNat_ofNat']
      omega
    simp only [hbasic, if_false, List.any_cons, List.any_nil, isUnsafeFolderUnit,
      Mcp.Trash.isUnsafeFolderCharacter, hfirst, hsecond, hstar, hpercent, Bool.or_eq_true,
      decide_eq_true_eq, Bool.or_false, hstarNat, hpercentNat]
    omega

theorem isSafeFolderName_encodeUtf16 (folder : String) :
    isSafeFolderName (encodeUtf16 folder.toList) = Mcp.Trash.isSafeFolderName folder := by
  have hlength : (encodeUtf16 folder.toList).length = (folder.toList.map Mcp.Trash.units).sum := by
    rw [encodeUtf16, List.length_flatMap]
    congr 1
    exact List.map_congr_left fun c _ => length_charUnits c
  have hunsafe : (encodeUtf16 folder.toList).any isUnsafeFolderUnit =
      folder.toList.any Mcp.Trash.isUnsafeFolderCharacter := by
    rw [encodeUtf16, List.any_flatMap]
    congr 1
    exact funext any_charUnits
  rw [isSafeFolderName, Mcp.Trash.isSafeFolderName, hlength, hunsafe]
  rfl

/- Parts -/

theorem isFolderCharacter_of_mem {c : Char} (hc : c ∈ Base64Url.alphabet) :
    isFolderCharacter c = true := by
  have hall : Base64Url.alphabet.all isFolderCharacter = true := by
    rw [Base64Url.alphabet_eq]
    decide
  exact List.all_eq_true.mp hall c hc

theorem ne_dot_of_isFolderCharacter {c : Char} (hc : isFolderCharacter c = true) : c ≠ '.' := by
  rintro rfl
  exact absurd hc (by decide)

theorem ne_dot_of_isDigit {c : Char} (hc : isDigit c = true) : c ≠ '.' := by
  rintro rfl
  exact absurd hc (by decide)

/-- A spelling of a UIDVALIDITY. -/
def IsUidValidity (text : List Char) : Prop := isPart isDigit 20 text = true

theorem splitOn_refText {ref : MessageRef} (hvalidity : IsUidValidity ref.uidValidity) :
    (refText ref).splitOn '.' = [['m', '1'], Base64Url.encode (folderBytes ref.folder),
      ref.uidValidity, Nat.toDigits 10 ref.uid] := by
  have hfolder : '.' ∉ Base64Url.encode (folderBytes ref.folder) := fun hdot =>
    ne_dot_of_isFolderCharacter (isFolderCharacter_of_mem (Base64Url.mem_encode hdot)) rfl
  have hdigits : '.' ∉ ref.uidValidity := by
    intro hdot
    simp only [IsUidValidity, isPart, Bool.and_eq_true] at hvalidity
    exact ne_dot_of_isDigit (List.all_eq_true.mp hvalidity.2 '.' hdot) rfl
  have huid : '.' ∉ Nat.toDigits 10 ref.uid := fun hdot =>
    ne_dot_of_isDigit (isDigit_of_mem_toDigits hdot) rfl
  rw [refText, List.splitOn_append_cons_self_of_not_mem (by decide),
    List.splitOn_append_cons_self_of_not_mem hfolder,
    List.splitOn_append_cons_self_of_not_mem hdigits, List.splitOn_eq_singleton huid]

/-- The letters of a folder are few enough if its bytes are. -/
theorem isPart_encode_iff {bytes : List UInt8} :
    isPart isFolderCharacter 400 (Base64Url.encode bytes) = true ↔
      bytes ≠ [] ∧ bytes.length ≤ 300 := by
  have hall : (Base64Url.encode bytes).all isFolderCharacter = true :=
    List.all_eq_true.mpr fun c hc => isFolderCharacter_of_mem (Base64Url.mem_encode hc)
  have hlength := Base64Url.length_encode bytes
  simp only [isPart, hall, Bool.and_true, Bool.and_eq_true, decide_eq_true_eq, ne_eq,
    ← List.length_eq_zero_iff, hlength]
  omega

theorem decodeUtf16_ne_nil {string : Utf16} (hne : string ≠ []) : decodeUtf16 string ≠ [] := by
  induction string using decodeUtf16.induct with
  | case1 => exact absurd rfl hne
  | case2 unit => exact List.cons_ne_nil _ _
  | case3 unit next rest hpair ih =>
      rw [decodeUtf16, if_pos hpair]
      exact List.cons_ne_nil _ _
  | case4 unit next rest hpair ih =>
      rw [decodeUtf16, if_neg hpair]
      exact List.cons_ne_nil _ _

theorem folderBytes_ne_nil {folder : Utf16} (hne : folder ≠ []) : folderBytes folder ≠ [] := by
  intro hnil
  have hread := decodeUtf8_encodeUtf8 (decodeUtf16 folder)
  rw [folderBytes] at hnil
  rw [hnil] at hread
  exact decodeUtf16_ne_nil hne hread.symm

/- Round trips -/

/-- A reference that may be handed out. -/
structure Sound (ref : MessageRef) : Prop where
  folder : isSafeFolderName ref.folder = true
  uidValidity : IsUidValidity ref.uidValidity
  uid : 1 ≤ ref.uid ∧ ref.uid ≤ 4294967295

theorem Sound.folder_ne_nil {ref : MessageRef} (hsound : Sound ref) : ref.folder ≠ [] := by
  intro hnil
  have hsafe := hsound.folder
  rw [hnil] at hsafe
  exact absurd hsafe (by decide)

theorem Sound.uidPart {ref : MessageRef} (hsound : Sound ref) :
    isPart isDigit 10 (Nat.toDigits 10 ref.uid) = true := by
  have huid := hsound.uid
  have hlength := (Nat.length_toDigits_le_iff (by decide : 1 < 10) (by decide : 0 < 10)).mpr
    (by omega : ref.uid < 10 ^ 10)
  simp [isPart, hlength, all_isDigit_toDigits, Nat.toDigits_ne_nil]

theorem refused_iff {folder : Utf16} :
    (folder.length = 0 ∨ MAX_FOLDER_LENGTH < folder.length ∨ ¬isSafeFolderName folder = true) ↔
      ¬isSafeFolderName folder = true := by
  refine ⟨?_, fun hunsafe => Or.inr (Or.inr hunsafe)⟩
  rintro (hempty | hlong | hunsafe) hsafe
  · simp [isSafeFolderName, hempty] at hsafe
  · simp only [isSafeFolderName, Bool.and_eq_true, decide_eq_true_eq] at hsafe
    omega
  · exact hunsafe hsafe

/-- What is decoded of a reference is its folder as text, or nothing. The bound on the length
and the check of the name are those of the decoder. -/
theorem decode_encode {ref : MessageRef} (hsound : Sound ref) :
    decodeMessageRef (encodeMessageRef ref) =
      if (folderBytes ref.folder).length ≤ 300 ∧
          isSafeFolderName (encodeUtf16 (decodeUtf16 ref.folder)) then
        some { ref with folder := encodeUtf16 (decodeUtf16 ref.folder) }
      else none := by
  have hvalidity : isPart isDigit 20 ref.uidValidity = true := hsound.uidValidity
  have huid := hsound.uid
  have hread : ofDigits 10 (Nat.toDigits 10 ref.uid) = ref.uid := ofDigits_toDigits ref.uid
  have hfolder : encodeUtf16 (decodeUtf8 (Base64Url.decode
      (Base64Url.encode (folderBytes ref.folder)))) = encodeUtf16 (decodeUtf16 ref.folder) := by
    rw [Base64Url.decode_encode, folderBytes, decodeUtf8_encodeUtf8]
  have hpart := isPart_encode_iff.trans (and_iff_right (folderBytes_ne_nil hsound.folder_ne_nil))
  have hsafe : isSafeInteger ref.uid = true := by
    rw [isSafeInteger, decide_eq_true_eq]
    omega
  rw [decodeMessageRef, encodeMessageRef, decodeUtf16_encodeUtf16,
    splitOn_refText hsound.uidValidity]
  simp only [hread, hfolder, hpart, hsound.uidPart, hsafe, hvalidity]
  have huidIn : ¬(¬True ∨ ref.uid < 1 ∨ 4294967295 < ref.uid) := by
    simp only [not_true_eq_false, false_or]
    omega
  rw [if_neg huidIn]
  simp only [true_and, and_true, refused_iff]
  by_cases hshort : (folderBytes ref.folder).length ≤ 300
  · by_cases hfolderSafe : isSafeFolderName (encodeUtf16 (decodeUtf16 ref.folder)) = true
    · rw [if_pos hshort, if_neg (not_not_intro hfolderSafe), if_pos ⟨hshort, hfolderSafe⟩]
    · rw [if_pos hshort, if_pos hfolderSafe, if_neg fun h => hfolderSafe h.2]
  · rw [if_neg hshort, if_neg fun h => hshort h.1]

/-- The part of a reference that spells its folder. -/
def folderPart (id : Utf16) : List Char := ((decodeUtf16 id).splitOn '.').getD 1 []

theorem decodeMessageRef_spec {id : Utf16} {ref : MessageRef}
    (hdecode : decodeMessageRef id = some ref) :
    Sound ref ∧ ref.folder = encodeUtf16 (decodeUtf8 (Base64Url.decode (folderPart id))) := by
  rw [decodeMessageRef] at hdecode
  split at hdecode
  · rename_i version part uidValidity uidPart hsplit
    split at hdecode
    · rename_i hparts
      simp only [refused_iff] at hdecode
      split at hdecode
      · cases hdecode
      · rename_i hsafe
        split at hdecode
        · cases hdecode
        · rename_i huid
          rw [folderPart, hsplit, ← Option.some.inj hdecode]
          refine ⟨⟨not_not.mp hsafe, hparts.2.2.1, ?_⟩, rfl⟩
          dsimp only
          omega
    · cases hdecode
  · cases hdecode

/-- The folder of a decoded reference also passes the check that the mailbox's session makes of
a name before it opens the folder. -/
theorem decodeMessageRef_opens {id : Utf16} {ref : MessageRef}
    (hdecode : decodeMessageRef id = some ref) :
    Mcp.Trash.isSafeFolderName (String.ofList (decodeUtf16 ref.folder)) = true := by
  obtain ⟨hsound, hfolder⟩ := decodeMessageRef_spec hdecode
  have hwell : encodeUtf16 (decodeUtf16 ref.folder) = ref.folder := by
    rw [hfolder, decodeUtf16_encodeUtf16]
  rw [← isSafeFolderName_encodeUtf16, String.toList_ofList, hwell]
  exact hsound.folder

/-- A reference of a well-formed folder of up to 300 bytes comes back. -/
theorem decode_encode_iff {ref : MessageRef} (hsound : Sound ref) :
    decodeMessageRef (encodeMessageRef ref) = some ref ↔
      IsWellFormed ref.folder ∧ (folderBytes ref.folder).length ≤ 300 := by
  rw [decode_encode hsound]
  constructor
  · intro hback
    split at hback
    · rename_i hshort
      have hfolder := congrArg MessageRef.folder (Option.some.inj hback)
      exact ⟨hfolder, hshort.1⟩
    · cases hback
  · rintro ⟨hwell, hshort⟩
    rw [IsWellFormed] at hwell
    rw [hwell, if_pos ⟨hshort, hsound.folder⟩]

/-- References come back exactly if their folders are well-formed and of up to 300 bytes; so do
those that were decoded, whose folders are always well-formed. A reference carries its folder in
a form that grows by a third, and the whole must not be longer than 400 characters. -/
theorem messageRef_roundTrip_iff (ref : MessageRef) (id : Utf16) :
    (isSafeFolderName ref.folder = true → IsUidValidity ref.uidValidity →
      1 ≤ ref.uid → ref.uid ≤ 4294967295 →
      (decodeMessageRef (encodeMessageRef ref) = some ref ↔
        IsWellFormed ref.folder ∧ (folderBytes ref.folder).length ≤ 300)) ∧
    (decodeMessageRef id = some ref →
      (decodeMessageRef (encodeMessageRef ref) = some ref ↔
        (encodeUtf8 (decodeUtf8 (Base64Url.decode (folderPart id)))).length ≤ 300)) := by
  constructor
  · intro hfolder hvalidity hlow hhigh
    exact decode_encode_iff ⟨hfolder, hvalidity, hlow, hhigh⟩
  · intro hdecode
    obtain ⟨hsound, hfolder⟩ := decodeMessageRef_spec hdecode
    have hwell : IsWellFormed ref.folder := by
      rw [hfolder]
      exact isWellFormed_encodeUtf16 _
    rw [decode_encode_iff hsound, and_iff_right hwell, folderBytes, hfolder,
      decodeUtf16_encodeUtf16]

namespace LongFolder

/-- A hundred and one characters of three bytes each. -/
def longName : List Char := List.replicate 101 '日'

def longRef : MessageRef := ⟨encodeUtf16 longName, ['1'], 1⟩

/-- A hundred and one bytes that are no UTF-8. -/
def brokenId : Utf16 :=
  encodeUtf16 ("m1.".toList ++ Base64Url.encode (List.replicate 101 0xff) ++ ".1.1".toList)

def brokenRef : MessageRef := ⟨encodeUtf16 (List.replicate 101 replacement), ['1'], 1⟩

def inboxRef : MessageRef := ⟨encodeUtf16 "INBOX".toList, ['1'], 1⟩

/-- A message of the inbox comes back, and a reference whose folder is made of replacement
characters comes back exactly if these take at most 300 bytes. -/
theorem roundTrip_inbox :
    decodeMessageRef (encodeMessageRef inboxRef) = some inboxRef ∧
      (decodeMessageRef (encodeMessageRef brokenRef) = some brokenRef ↔
        (encodeUtf8 (decodeUtf8 (Base64Url.decode (folderPart brokenId)))).length ≤ 300) := by
  constructor
  · exact ((messageRef_roundTrip_iff inboxRef brokenId).1 (by decide) rfl (by decide)
      (by decide)).mpr (by decide)
  · exact (messageRef_roundTrip_iff brokenRef brokenId).2 (by decide +kernel)

/-- A folder that is well-formed and as long as a name may be does not come back; nor does a
reference that was decoded from malformed bytes, whose replacement characters take more room
than the bytes did. -/
theorem long_lost : ¬(∀ ref : MessageRef, isSafeFolderName ref.folder = true →
      IsUidValidity ref.uidValidity → 1 ≤ ref.uid → ref.uid ≤ 4294967295 →
      decodeMessageRef (encodeMessageRef ref) = some ref) ∧
    ¬∀ (id : Utf16) (ref : MessageRef), decodeMessageRef id = some ref →
      decodeMessageRef (encodeMessageRef ref) = some ref := by
  constructor
  · intro hclaim
    have hback := hclaim longRef (by decide) rfl (by decide) (by decide)
    have hlost : decodeMessageRef (encodeMessageRef longRef) = none := by
      decide +kernel
    rw [hlost] at hback
    cases hback
  · intro hclaim
    have hback := hclaim brokenId brokenRef (by decide +kernel)
    have hlost : decodeMessageRef (encodeMessageRef brokenRef) = none := by
      decide +kernel
    rw [hlost] at hback
    cases hback

end LongFolder

end MessageRefs

end MailPanel

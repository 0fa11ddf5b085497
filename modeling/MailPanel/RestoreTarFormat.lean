import Mathlib.Data.List.TakeWhile
import MailPanel.Utf8Text
import MailPanel.RestoreCheck

/-
Tar archives as they are written: fields of a header, records, long names, and the entries of
a volume with their data.  Names are bytes here; the guard reads them as UTF-8.
-/

namespace MailPanel

namespace RestoreTar

open ScriptText

/- Fields -/

/-- Text up to the end of the field or a NUL. -/
def HoldsText (bytes value : Bytes) : Prop :=
  0 ∉ value ∧ ∃ padding, bytes = value ++ padding ∧ (padding = [] ∨ padding.head? = some 0)

def isOctalDigit (byte : UInt8) : Bool := 0x30 ≤ byte.toNat && byte.toNat ≤ 0x37

def isDigit (byte : UInt8) : Bool := 0x30 ≤ byte.toNat && byte.toNat ≤ 0x39

/-- Octal digits between blanks. -/
def HoldsOctal (bytes : Bytes) (value : Nat) : Prop :=
  ∃ blanks digits rest, bytes = blanks ++ (digits ++ rest) ∧ (∀ byte ∈ blanks, byte = 0x20) ∧
    digits.all isOctalDigit = true ∧ (∀ byte ∈ rest, byte = 0x20 ∨ byte = 0) ∧
    value = ofDigits 8 (latin1 digits)

/-- A mark, then the number in base 256. -/
def HoldsBase256 (bytes : Bytes) (value : Nat) : Prop :=
  value < 2 ^ 53 ∧ ∃ rest, bytes = 0x80 :: rest ∧
    value = rest.foldl (fun value byte => value * 256 + byte.toNat) 0

def HoldsNumber (bytes : Bytes) (value : Nat) : Prop :=
  HoldsOctal bytes value ∨ HoldsBase256 bytes value

/-- A header of this type and size, with a correct checksum. -/
structure Header (block : Bytes) (flag : UInt8) (size : Nat) : Prop where
  length : block.length = blockSize
  checksum : HoldsOctal (field block 148 8) (unsignedSum (withoutChecksum block))
  flag : block[156]? = some flag
  size : HoldsNumber (field block 124 12) size

/-- The name that a header spells by itself: of USTAR, with a part of it split off, or of
GNU. -/
inductive SpellsName (block : Bytes) : Bytes → Prop where
  | ustar {before base : Bytes} (magic : field block 257 6 = [0x75, 0x73, 0x74, 0x61, 0x72, 0])
      (unused : field block 500 12 = List.replicate 12 0)
      (front : HoldsText (field block 345 155) before) (name : HoldsText (field block 0 100) base) :
      SpellsName block (if before = [] then base else before ++ 0x2f :: base)
  | gnu {base : Bytes} (magic : field block 257 6 = [0x75, 0x73, 0x74, 0x61, 0x72, 0x20])
      (name : HoldsText (field block 0 100) base) : SpellsName block base

/- Blocks about the next entry -/

/-- `"<len> <key>=<value>\n"`. -/
def SpellsRecord (key value bytes : Bytes) : Prop :=
  key ≠ [] ∧ 0x3d ∉ key ∧ ∃ digits : Bytes, digits ≠ [] ∧ digits.all isDigit = true ∧
    bytes = digits ++ 0x20 :: (key ++ 0x3d :: (value ++ [0x0a])) ∧
    ofDigits 10 (latin1 digits) = bytes.length

abbrev ByteRecords := List (Bytes × Bytes)

inductive SpellsRecords : ByteRecords → Bytes → Prop where
  | nil : SpellsRecords [] []
  | cons {key value bytes : Bytes} {records : ByteRecords} {rest : Bytes}
      (record : SpellsRecord key value bytes) (records' : SpellsRecords records rest) :
      SpellsRecords ((key, value) :: records) (bytes ++ rest)

inductive Announcement where
  | records (records : ByteRecords)
  | globalRecords (records : ByteRecords)
  | longName (value : Bytes)
  | longLink (value : Bytes)

def Announcement.flag : Announcement → UInt8
  | .records _ => 0x78
  | .globalRecords _ => 0x67
  | .longName _ => 0x4c
  | .longLink _ => 0x4b

def Announcement.Spelled : Announcement → Bytes → Prop
  | .records found, body => SpellsRecords found body
  | .globalRecords found, body => SpellsRecords found body
  | .longName value, body => value ≠ [] ∧ HoldsText body value
  | .longLink value, body => value ≠ [] ∧ HoldsText body value

/-- A body or data, padded to whole blocks. -/
def Padded (body bytes : Bytes) : Prop :=
  ∃ padding, bytes = body ++ padding ∧ bytes.length = roundUpToBlock body.length

/-- Announcements written one after the other, each a header of its kind, a body that spells it,
and the padding up to the end of the block. -/
inductive Announces : List Announcement → Bytes → Prop where
  | nil : Announces [] []
  | cons {announcement : Announcement} {announcements : List Announcement}
      {block body bytes rest : Bytes} (header : Header block announcement.flag body.length)
      (short : body.length ≤ maxMetaBodyBytes) (spelled : announcement.Spelled body)
      (padded : Padded body bytes) (later : Announces announcements rest) :
      Announces (announcement :: announcements) (block ++ (bytes ++ rest))

/-- What was said about the next entry. -/
structure Said where
  records : Option ByteRecords
  longName : Option Bytes
  longLink : Option Bytes

def Said.nothing : Said := ⟨none, none, none⟩

/-- Global records say nothing about the next entry. -/
def Said.hear (said : Said) : Announcement → Said
  | .records records => { said with records := some records }
  | .globalRecords _ => said
  | .longName value => { said with longName := some value }
  | .longLink value => { said with longLink := some value }

def asciiBytes (text : String) : Bytes := text.toList.map fun c => UInt8.ofNat c.toNat

/-- The last record of a key counts. -/
def Said.record (said : Said) (key : String) : Option Bytes :=
  said.records.bind fun records =>
    (records.reverse.find? fun record => record.1 = asciiBytes key).map Prod.snd

/- Entries -/

/-- The kinds of entries that an archive may hold. Each has the letter that the format gives it,
and only some of them have data. -/
inductive EntryKind where
  | file
  /-- A file in the notation of old. -/
  | oldFile
  | contiguousFile
  | hardLink
  | symlink
  | characterDevice
  | blockDevice
  | directory
  | fifo
deriving DecidableEq, Repr

def EntryKind.flag : EntryKind → UInt8
  | .file => 0x30
  | .oldFile => 0
  | .contiguousFile => 0x37
  | .hardLink => 0x31
  | .symlink => 0x32
  | .characterDevice => 0x33
  | .blockDevice => 0x34
  | .directory => 0x35
  | .fifo => 0x36

def EntryKind.hasData : EntryKind → Bool
  | .file | .oldFile | .contiguousFile => true
  | .hardLink | .symlink | .characterDevice | .blockDevice | .directory | .fifo => false

/-- An entry of an archive, apart from how it is written. Sizes are below those that a number of
the source can no longer tell apart. -/
structure ArchiveEntry where
  kind : EntryKind
  name : Bytes
  linkName : Bytes
  data : Bytes
  sized : data.length < 2 ^ 53
  empty : kind.hasData = false → data = []
  /-- In the notation of old, a slash at the end makes a directory. -/
  noSlash : kind = .oldFile → name.getLast? ≠ some 0x2f

/-- The size in decimal. -/
def SpellsSize (text : Bytes) (size : Nat) : Prop :=
  text ≠ [] ∧ text.all isDigit = true ∧ ofDigits 10 (latin1 text) = size

/-- The header of an entry, after what was said about it: a name, a link name or a size that was
announced comes from the announcement, and from the header otherwise. -/
structure HeaderOf (entry : ArchiveEntry) (said : Said) (block : Bytes) (ownSize : Nat) :
    Prop where
  header : Header block entry.kind.flag ownSize
  name : match said.longName.or (said.record "path") with
    | some name => name = entry.name
    | none => SpellsName block entry.name
  linkName : match said.longLink.or (said.record "linkpath") with
    | some linkName => linkName = entry.linkName
    | none => HoldsText (field block 157 100) entry.linkName
  size : match said.record "size" with
    | some text => SpellsSize text entry.data.length
    | none => entry.kind.hasData = true → ownSize = entry.data.length

/-- An entry of USTAR is announced by nothing, one of PAX by records, and one of GNU by long
names. -/
def EncodesEntry (entry : ArchiveEntry) (bytes : Bytes) : Prop :=
  ∃ announcements before block ownSize data, Announces announcements before ∧
    HeaderOf entry (announcements.foldl Said.hear Said.nothing) block ownSize ∧
    Padded entry.data data ∧ bytes = before ++ (block ++ data)

/-- An archive written entry by entry, closed by blocks of zeros. It is written independently of
the guard, from the format alone. -/
inductive EncodesArchive : List ArchiveEntry → Bytes → Prop where
  | closing {count : Nat} (some : 1 ≤ count) :
      EncodesArchive [] (List.replicate (blockSize * count) 0)
  | cons {entry : ArchiveEntry} {entries : List ArchiveEntry} {bytes rest : Bytes}
      (encoded : EncodesEntry entry bytes) (later : EncodesArchive entries rest) :
      EncodesArchive (entry :: entries) (bytes ++ rest)

/- Paths -/

/-- The parts of a path but for `.` and empty ones; none for an absolute path and for `..`. -/
def byteComponents (path : Bytes) : Option (List Bytes) :=
  if path.head? = some 0x2f then none
  else
    let parts := (path.splitOn 0x2f).filter fun part => part ≠ [] && part ≠ [0x2e]
    if [0x2e, 0x2e] ∈ parts then none else some parts

/-- Relative, free of `..`, and beneath the root. -/
def BeneathRoot (rootName : List Char) (path : Bytes) : Prop :=
  (byteComponents path).bind List.head? = some (encodeUtf8 rootName)

def ArchiveEntry.Placed (rootName : List Char) (entry : ArchiveEntry) : Prop :=
  BeneathRoot rootName entry.name ∧
    (entry.kind = .hardLink → BeneathRoot rootName entry.linkName)

/-- The first is a symlink, and the second lies beneath it. -/
def ArchiveEntry.Shadows (link entry : ArchiveEntry) : Prop :=
  link.kind = .symlink ∧ ∃ above parts, byteComponents link.name = some above ∧
    byteComponents entry.name = some parts ∧ above <+: parts ∧ above ≠ parts

/-- As the guard reads it. -/
def ArchiveEntry.read (entry : ArchiveEntry) : TarEntry :=
  ⟨Char.ofNat entry.kind.flag.toNat, decodeUtf8 entry.name, decodeUtf8 entry.linkName⟩

/-- What the guard takes for the first being a symlink above the second. -/
def ArchiveEntry.ReadShadows (link entry : ArchiveEntry) : Prop := link.read.Shadows entry.read

/- Reading the fields -/

section Fields

variable {block : Bytes} {offset length : Nat}

theorem readString_eq {value : Bytes} (hholds : HoldsText (field block offset length) value) :
    readString block offset length = decodeUtf8 value := by
  obtain ⟨hvalue, padding, hbytes, hpadding⟩ := hholds
  have htaken : (value ++ padding).takeWhile (· ≠ 0) = value := by
    have hall : ∀ byte ∈ value, decide (byte ≠ 0) = true := by
      intro byte hbyte
      apply decide_eq_true
      rintro rfl
      exact hvalue hbyte
    rw [List.takeWhile_append_of_pos hall]
    rcases hpadding with rfl | hhead
    · rw [List.takeWhile_nil, List.append_nil]
    · obtain ⟨rest, rfl⟩ := List.head?_eq_some_iff.mp hhead
      rw [List.takeWhile_cons, if_neg (by decide), List.append_nil]
  rw [readString, hbytes, htaken]

theorem dropWhile_blanks {blanks text : List Char} (hblanks : ∀ c ∈ blanks, isSpace c = true)
    (htext : ∀ c ∈ text, isSpace c = false) (hsome : text ≠ []) (rest : List Char) :
    (blanks ++ (text ++ rest)).dropWhile isSpace = text ++ rest := by
  rw [List.dropWhile_append_of_pos hblanks]
  cases text with
  | nil => exact absurd rfl hsome
  | cons c text =>
      rw [List.cons_append, List.dropWhile_cons, if_neg]
      rw [htext c List.mem_cons_self]
      exact Bool.false_ne_true

/-- Blanks around a text are trimmed, and a text without blanks stays whole. -/
theorem trim_blanks {blanks text rest : List Char} (hblanks : ∀ c ∈ blanks, isSpace c = true)
    (htext : ∀ c ∈ text, isSpace c = false) (hrest : ∀ c ∈ rest, isSpace c = true) :
    trim (blanks ++ (text ++ rest)) = text := by
  rw [trim]
  by_cases hnil : text = []
  · have hall : ∀ c ∈ blanks ++ ([] ++ rest), isSpace c = true := by
      intro c hc
      rcases List.mem_append.mp hc with hc | hc
      · exact hblanks c hc
      · exact hrest c hc
    rw [hnil, List.dropWhile_eq_nil_iff.mpr hall]
    rfl
  · rw [dropWhile_blanks hblanks htext hnil rest, List.reverse_append]
    have hreverse : (rest.reverse ++ (text.reverse ++ [])).dropWhile isSpace =
        text.reverse ++ [] := by
      apply dropWhile_blanks
      · exact fun c hc => hrest c (List.mem_reverse.mp hc)
      · exact fun c hc => htext c (List.mem_reverse.mp hc)
      · rwa [ne_eq, List.reverse_eq_nil_iff]
    rw [List.append_nil] at hreverse
    rw [hreverse, List.reverse_reverse]

theorem ascii_and {byte : UInt8} (hbyte : byte.toNat < 0x80) : byte &&& 0x80 = 0 := by
  have hall : ∀ n : Fin 128, UInt8.ofNat n.val &&& 0x80 = 0 := by
    decide
  have hsame : UInt8.ofNat byte.toNat = byte := UInt8.ofNat_toNat
  rw [← hsame]
  exact hall ⟨byte.toNat, hbyte⟩

theorem toNat_of_isDigit {byte : UInt8} (hdigit : isDigit byte = true) :
    0x30 ≤ byte.toNat ∧ byte.toNat ≤ 0x39 := by
  simpa [isDigit] using hdigit

theorem toNat_of_isOctalDigit {byte : UInt8} (hdigit : isOctalDigit byte = true) :
    0x30 ≤ byte.toNat ∧ byte.toNat ≤ 0x37 := by
  simpa [isOctalDigit] using hdigit

/-- The character of a digit. -/
theorem char_of_digit {byte : UInt8} {last : Nat} (hlast : last ≤ 0x39)
    (hdigit : 0x30 ≤ byte.toNat ∧ byte.toNat ≤ last) :
    ('0' ≤ Char.ofNat byte.toNat ∧ Char.ofNat byte.toNat ≤ Char.ofNat last) ∧
      isSpace (Char.ofNat byte.toNat) = false := by
  have hall : ∀ n : Fin 0x3a, 0x30 ≤ n.val → isSpace (Char.ofNat n.val) = false ∧
      '0' ≤ Char.ofNat n.val ∧ ∀ last : Fin 0x3a, n.val ≤ last.val →
        Char.ofNat n.val ≤ Char.ofNat last.val := by
    decide
  obtain ⟨hspace, hzero, hle⟩ := hall ⟨byte.toNat, by omega⟩ hdigit.1
  exact ⟨⟨hzero, hle ⟨last, by omega⟩ hdigit.2⟩, hspace⟩

theorem latin1_digits {digits : Bytes} {last : Nat} (hlast : last ≤ 0x39)
    (hdigits : ∀ byte ∈ digits, 0x30 ≤ byte.toNat ∧ byte.toNat ≤ last) :
    ∀ c ∈ latin1 digits, ('0' ≤ c ∧ c ≤ Char.ofNat last) ∧ isSpace c = false := by
  intro c hc
  obtain ⟨byte, hbyte, rfl⟩ := List.mem_map.mp hc
  exact char_of_digit hlast (hdigits byte hbyte)

/-- Octal text is read with its blanks trimmed, whether it stands at the front of its field or
at its end. -/
theorem readNumber_octal {value : Nat} (hfield : field block offset length ≠ [])
    (hholds : HoldsOctal (field block offset length) value) :
    readNumber block offset length = some value := by
  obtain ⟨blanks, digits, rest, hbytes, hblanks, hdigits, hrest, rfl⟩ := hholds
  have hoctal : ∀ byte ∈ digits, 0x30 ≤ byte.toNat ∧ byte.toNat ≤ 0x37 :=
    fun byte hbyte => toNat_of_isOctalDigit (List.all_eq_true.mp hdigits byte hbyte)
  have hlow : ∀ byte ∈ field block offset length, byte.toNat < 0x80 := by
    intro byte hbyte
    rw [hbytes] at hbyte
    rcases List.mem_append.mp hbyte with hbyte | hbyte
    · rw [hblanks byte hbyte]
      decide
    rcases List.mem_append.mp hbyte with hbyte | hbyte
    · have hdigit := hoctal byte hbyte
      omega
    · rcases hrest byte hbyte with rfl | rfl
      · decide
      · decide
  have htext : trim (readString block offset length) = latin1 digits := by
    have htaken : (field block offset length).takeWhile (· ≠ 0) =
        blanks ++ (digits ++ rest.takeWhile (· ≠ 0)) := by
      rw [hbytes, List.takeWhile_append_of_pos, List.takeWhile_append_of_pos]
      · intro byte hbyte
        have hdigit := hoctal byte hbyte
        apply decide_eq_true
        rintro rfl
        exact absurd hdigit.1 (by decide)
      · intro byte hbyte
        rw [hblanks byte hbyte]
        decide
    rw [readString, htaken, decodeUtf8_eq_latin1, latin1, List.map_append, List.map_append]
    · apply trim_blanks
      · intro c hc
        obtain ⟨byte, hbyte, rfl⟩ := List.mem_map.mp hc
        rw [hblanks byte hbyte]
        decide
      · exact fun c hc => (latin1_digits (by decide) hoctal c hc).2
      · intro c hc
        obtain ⟨byte, hbyte, rfl⟩ := List.mem_map.mp hc
        have hnonzero := List.mem_takeWhile_imp hbyte
        rcases hrest byte (List.takeWhile_subset _ hbyte) with rfl | rfl
        · decide
        · exact absurd hnonzero (by decide)
    · rw [← htaken]
      exact fun byte hbyte => hlow byte (List.takeWhile_subset _ hbyte)
  rw [readNumber]
  cases hfound : field block offset length with
  | nil => exact absurd hfound hfield
  | cons first later =>
      have hfirst : first &&& 0x80 = 0 :=
        ascii_and (hlow first (by rw [hfound]; exact List.mem_cons_self))
      simp only [hfirst, ne_eq, not_true_eq_false, ↓reduceIte, htext]
      by_cases hempty : digits = []
      · rw [hempty]
        rfl
      · have hall : (latin1 digits).all (fun c => '0' ≤ c && c ≤ '7') = true := by
          rw [List.all_eq_true]
          intro c hc
          obtain ⟨hrange, -⟩ := latin1_digits (by decide) hoctal c hc
          simpa using hrange
        have hsome : (latin1 digits).isEmpty = false := by
          simpa [latin1] using hempty
        rw [hsome, if_neg Bool.false_ne_true, if_pos hall]

theorem readNumber_base256 {value : Nat}
    (hholds : HoldsBase256 (field block offset length) value) :
    readNumber block offset length = some value := by
  obtain ⟨hvalue, rest, hbytes, rfl⟩ := hholds
  rw [readNumber, hbytes]
  have hmark : (0x80 : UInt8) &&& 0x80 ≠ 0 ∧ ¬ ((0x80 : UInt8) &&& 0x40 ≠ 0) ∧
      ((0x80 : UInt8) &&& 0x3f).toNat = 0 := by
    decide
  simp only [hmark, isSafeInteger, hvalue, decide_true, ↓reduceIte]
  rfl

theorem readNumber_eq {value : Nat} (hfield : field block offset length ≠ [])
    (hholds : HoldsNumber (field block offset length) value) :
    readNumber block offset length = some value := by
  rcases hholds with hoctal | hbase
  · exact readNumber_octal hfield hoctal
  · exact readNumber_base256 hbase

end Fields

/- Headers -/

section Headers

variable {block : Bytes} {flag : UInt8} {size : Nat}

theorem field_ne_nil {offset length : Nat} (hblock : block.length = blockSize)
    (hoffset : offset < blockSize) (hlength : 0 < length) : field block offset length ≠ [] := by
  rw [field, ne_eq, ← List.length_eq_zero_iff, List.length_take, List.length_drop]
  omega

/-- What the guard sees of a header before its name. -/
theorem Header.seen (hheader : Header block flag size) :
    checksumMatches block = true ∧ readNumber block 124 12 = some size ∧
      typeOf block = Char.ofNat flag.toNat ∧ ¬ block.all (· = 0) = true := by
  have hchecksum : checksumMatches block = true := by
    have hread := readNumber_octal
      (field_ne_nil hheader.length (by decide) (by decide)) hheader.checksum
    rw [checksumMatches, hread]
    simp
  refine ⟨hchecksum, ?_, ?_, ?_⟩
  · exact readNumber_eq (field_ne_nil hheader.length (by decide) (by decide)) hheader.size
  · rw [typeOf, hheader.flag]
  · intro hzero
    have hblock : block = List.replicate blockSize 0 := by
      rw [List.eq_replicate_iff]
      exact ⟨hheader.length, by simpa using hzero⟩
    rw [hblock] at hchecksum
    exact absurd hchecksum (by decide +kernel)

theorem decodeUtf8_nil_iff {bytes : Bytes} : decodeUtf8 bytes = [] ↔ bytes = [] := by
  constructor
  · intro hnil
    by_contra hne
    exact decodeUtf8_ne_nil hne hnil
  · rintro rfl
    rfl

theorem headerName_eq {name : Bytes} (hname : SpellsName block name) :
    headerName block = decodeUtf8 name := by
  cases hname with
  | ustar hmagic hunused hfront hbase =>
      rename_i before base
      have hstar : field block 508 4 = List.replicate 4 0 := by
        have hinner : field (field block 500 12) 8 4 = field block 508 4 := by
          rw [field, field, field, List.drop_take, List.take_take, List.drop_drop]
          rfl
        rw [← hinner, hunused]
        rfl
      have hmagic' : ¬ latin1 (field block 257 6) ≠ ['u', 's', 't', 'a', 'r', '\x00'] := by
        rw [hmagic]
        decide
      have hstar' : ¬ latin1 (field block 508 4) = ['t', 'a', 'r', '\x00'] := by
        rw [hstar]
        decide
      rw [headerName, if_neg hmagic', readString_eq hbase]
      dsimp only
      rw [decide_eq_false hstar', if_neg Bool.false_ne_true, readString_eq hfront]
      by_cases hempty : before = []
      · rw [if_pos hempty, hempty]
        rfl
      · rw [if_neg hempty, if_neg]
        · have hslash : (0x2f : UInt8).toNat < 0x80 := by decide
          exact (decodeUtf8_ascii before base hslash).symm
        · simpa using decodeUtf8_ne_nil hempty
  | gnu hmagic hbase =>
      have hmagic' : latin1 (field block 257 6) ≠ ['u', 's', 't', 'a', 'r', '\x00'] := by
        rw [hmagic]
        decide
      rw [headerName, if_pos hmagic', readString_eq hbase]

end Headers

end RestoreTar

end MailPanel

import MailPanel.RestoreTarFormat

/-
The guard against archives as they are written: a well-formed archive of the volume reads to
its end, entry by entry, and streams through the guard untouched, unless two names that
differ only in bytes that are no UTF-8 are taken for one.
-/

namespace MailPanel

namespace RestoreTar

open ScriptText

/- Records -/

section Records

/-- A byte below the digits, such as a blank, does not occur among digits. -/
theorem notMem_digits {digits : Bytes} (hdigits : digits.all isDigit = true) {byte : UInt8}
    (hbyte : byte.toNat < 0x30) : byte ∉ digits := by
  intro hmem
  have hdigit := toNat_of_isDigit (List.all_eq_true.mp hdigits byte hmem)
  omega

/-- Text in front of a byte is what is taken up to it, which is how the records of a body are
cut. -/
theorem takeWhile_until {α : Type} [DecidableEq α] {front : List α} {stop : α} (later : List α)
    (hfront : stop ∉ front) : (front ++ stop :: later).takeWhile (· ≠ stop) = front := by
  have hall : ∀ item ∈ front, decide (item ≠ stop) = true := by
    intro item hitem
    apply decide_eq_true
    rintro rfl
    exact hfront hitem
  rw [List.takeWhile_append_of_pos hall, List.takeWhile_cons, if_neg (by simp), List.append_nil]

theorem ofDigits_digits {digits : Bytes} (hdigits : digits.all isDigit = true) :
    (latin1 digits).all (fun c => '0' ≤ c && c ≤ '9') = true := by
  rw [List.all_eq_true]
  intro c hc
  have hall : ∀ byte ∈ digits, 0x30 ≤ byte.toNat ∧ byte.toNat ≤ 0x39 :=
    fun byte hbyte => toNat_of_isDigit (List.all_eq_true.mp hdigits byte hbyte)
  obtain ⟨hrange, -⟩ := latin1_digits (Nat.le_refl 0x39) hall c hc
  simpa using hrange

/-- A record as the guard keeps it. -/
def decodeRecord (record : Bytes × Bytes) : List Char × List Char :=
  (decodeUtf8 record.1, decodeUtf8 record.2)

/-- A record that is spelled as the format says is read as its key and its value, and the rest
is left. -/
theorem parsePaxRecord_eq {key value bytes : Bytes} (hrecord : SpellsRecord key value bytes)
    (rest : Bytes) :
    parsePaxRecord (bytes ++ rest) = some (decodeRecord (key, value), rest) := by
  obtain ⟨hkey, hequals, digits, hsome, hdigits, hbytes, hlength⟩ := hrecord
  have hspace : (0x20 : UInt8) ∉ digits := notMem_digits hdigits (by decide)
  have hequalsByte : (0x3d : UInt8).toNat < 0x80 := by decide
  have hbody : bytes ++ rest =
      digits ++ 0x20 :: (key ++ 0x3d :: (value ++ [0x0a]) ++ rest) := by
    rw [hbytes]
    simp
  have htaken : (bytes ++ rest).takeWhile (· ≠ 0x20) = digits := by
    rw [hbody]
    exact takeWhile_until _ hspace
  have hmem : ¬ (0x20 : UInt8) ∉ bytes ++ rest := by
    rw [hbody]
    simp
  have htext : (latin1 digits).length = digits.length := List.length_map _
  have hsize : bytes.length = digits.length + 1 + (key.length + 1 + value.length + 1) := by
    rw [hbytes]
    simp
    omega
  have hempty : ((latin1 digits).isEmpty ||
      !(latin1 digits).all fun c => '0' ≤ c && c ≤ '9') = false := by
    have hnonempty : (latin1 digits).isEmpty = false := by
      simpa [latin1] using hsome
    rw [hnonempty, ofDigits_digits hdigits]
    rfl
  have hfront : digits ++ 0x20 :: (key ++ 0x3d :: value) ++ [0x0a] = bytes := by
    rw [hbytes]
    simp
  have hfrontLength : (digits ++ 0x20 :: (key ++ 0x3d :: value)).length = bytes.length - 1 := by
    have hlong := congrArg List.length hfront
    rw [List.length_append, List.length_singleton] at hlong
    omega
  have hbreak : (bytes ++ rest)[bytes.length - 1]? = some 0x0a := by
    rw [List.getElem?_append_left (by omega), ← hfrontLength, ← hfront]
    simp
  have hinside : ((bytes ++ rest).take (bytes.length - 1)).drop (digits.length + 1) =
      key ++ 0x3d :: value := by
    rw [List.take_append_of_le_length (by omega), ← hfrontLength, ← hfront, List.take_left]
    simp
  have hlengths : (ofDigits 10 (latin1 digits) ≤ (latin1 digits).length + 1 ||
      (bytes ++ rest).length < ofDigits 10 (latin1 digits) ||
      (bytes ++ rest)[ofDigits 10 (latin1 digits) - 1]? ≠ some 0x0a) = false := by
    rw [hlength, hbreak, htext, List.length_append]
    simp
    omega
  have hdecoded : decodeUtf8 (key ++ 0x3d :: value) = decodeUtf8 key ++ '=' :: decodeUtf8 value :=
    decodeUtf8_ascii key value hequalsByte
  have hplain : '=' ∉ decodeUtf8 key := by
    intro hmem
    obtain ⟨byte, hbyte, heq⟩ := mem_of_mem_decodeUtf8 hmem (by decide)
    have hsame : byte = 0x3d := UInt8.toNat_inj.mp heq
    exact hequals (hsame ▸ hbyte)
  have hkeyTaken : (decodeUtf8 key ++ '=' :: decodeUtf8 value).takeWhile (· ≠ '=') =
      decodeUtf8 key := takeWhile_until _ hplain
  have hkeySome : (decodeUtf8 key).isEmpty = false := by
    simpa using decodeUtf8_ne_nil hkey
  rw [parsePaxRecord]
  dsimp only
  rw [htaken, if_neg hmem, hempty, if_neg Bool.false_ne_true, hlengths,
    if_neg Bool.false_ne_true, hlength, htext, hinside, hdecoded, hkeyTaken, hkeySome]
  simp [decodeRecord]

/-- Record after record, with as many turns as the body has bytes. Each record takes more than
one of them, so the turns are enough. -/
theorem parsePaxFrom_eq {records : ByteRecords} {body : Bytes}
    (hrecords : SpellsRecords records body) {turns : Nat} (hturns : body.length ≤ turns) :
    parsePaxFrom turns body = some (records.map decodeRecord) := by
  induction hrecords generalizing turns with
  | nil =>
      cases turns with
      | zero => rfl
      | succ turns => rfl
  | cons hrecord hlater ih =>
      rename_i key value bytes records rest
      have hpos : 0 < bytes.length := by
        obtain ⟨-, -, digits, hsome, -, rfl, -⟩ := hrecord
        rw [List.length_append]
        have := List.length_pos_iff.mpr hsome
        omega
      rw [List.length_append] at hturns
      cases turns with
      | zero => omega
      | succ turns =>
          have hne : bytes ++ rest ≠ [] := by
            intro hnil
            rw [(List.append_eq_nil_iff.mp hnil).1] at hpos
            exact absurd hpos (Nat.lt_irrefl 0)
          rw [parsePaxFrom]
          · rw [parsePaxRecord_eq hrecord rest]
            dsimp only
            rw [ih (by omega)]
            rfl
          · exact hne

/-- A body that spells records is read as these records. -/
theorem parsePaxRecords_eq {records : ByteRecords} {body : Bytes}
    (hrecords : SpellsRecords records body) :
    parsePaxRecords body = some (records.map decodeRecord) :=
  parsePaxFrom_eq hrecords (Nat.le_refl _)

end Records

/- Blocks about the next entry -/

section Announced

/-- What the guard has heard. -/
def Said.preamble (said : Said) : Preamble :=
  ⟨said.records.map fun records => records.map decodeRecord, said.longName.map decodeUtf8,
    said.longLink.map decodeUtf8⟩

/-- The text of a field is what stands before its first NUL. -/
theorem takeWhile_holdsText {bytes value : Bytes} (hholds : HoldsText bytes value) :
    bytes.takeWhile (· ≠ 0) = value := by
  obtain ⟨hvalue, padding, rfl, hpadding⟩ := hholds
  rcases hpadding with rfl | hhead
  · have hall : ∀ byte ∈ value, decide (byte ≠ 0) = true := by
      intro byte hbyte
      apply decide_eq_true
      rintro rfl
      exact hvalue hbyte
    rw [List.takeWhile_append_of_pos hall, List.takeWhile_nil, List.append_nil]
  · obtain ⟨rest, rfl⟩ := List.head?_eq_some_iff.mp hhead
    exact takeWhile_until rest hvalue

theorem Announcement.flag_mem (announcement : Announcement) :
    Char.ofNat announcement.flag.toNat ∈ metaTypes := by
  have hflags : ∀ flag ∈ ([0x78, 0x67, 0x4c, 0x4b] : Bytes),
      Char.ofNat flag.toNat ∈ metaTypes :=
    List.all_iff_forall_prop.mp (by decide)
  apply hflags
  cases announcement with
  | _ => simp [Announcement.flag]

/-- The guard makes of an extended header what the format says that it announces. -/
theorem readMetaHeader_eq {announcement : Announcement} {body : Bytes}
    (hspelled : announcement.Spelled body) (said : Said) :
    readMetaHeader said.preamble (Char.ofNat announcement.flag.toNat) body =
      some (said.hear announcement).preamble := by
  cases announcement with
  | records found =>
      have hparse := parsePaxRecords_eq hspelled
      have hflag : Char.ofNat (Announcement.records found).flag.toNat = 'x' := rfl
      rw [readMetaHeader, hflag, if_neg (by decide), hparse]
      rfl
  | globalRecords found =>
      have hparse := parsePaxRecords_eq hspelled
      have hflag : Char.ofNat (Announcement.globalRecords found).flag.toNat = 'g' := rfl
      rw [readMetaHeader, hflag, if_neg (by decide), hparse]
      rfl
  | longName value =>
      have hsome : (decodeUtf8 value).isEmpty = false := by
        simpa using decodeUtf8_ne_nil hspelled.1
      have hflag : Char.ofNat (Announcement.longName value).flag.toNat = 'L' := rfl
      rw [readMetaHeader, hflag, if_pos (by decide), takeWhile_holdsText hspelled.2]
      dsimp only
      rw [hsome, if_neg Bool.false_ne_true, if_pos (by decide)]
      rfl
  | longLink value =>
      have hsome : (decodeUtf8 value).isEmpty = false := by
        simpa using decodeUtf8_ne_nil hspelled.1
      have hflag : Char.ofNat (Announcement.longLink value).flag.toNat = 'K' := rfl
      rw [readMetaHeader, hflag, if_pos (by decide), takeWhile_holdsText hspelled.2]
      dsimp only
      rw [hsome, if_neg Bool.false_ne_true, if_neg (by decide)]
      rfl

/-- The first block of a tar can be split off, whatever follows it. -/
theorem first_block {block : Bytes} (hblock : block.length = blockSize) (rest : Bytes) :
    ¬ (block ++ rest).isEmpty = true ∧ ¬ (block ++ rest).length < blockSize ∧
      (block ++ rest).take blockSize = block ∧ (block ++ rest).drop blockSize = rest := by
  have hpos := blockSize_pos
  refine ⟨?_, ?_, ?_, ?_⟩
  · intro hempty
    rw [List.isEmpty_iff] at hempty
    rw [(List.append_eq_nil_iff.mp hempty).1] at hblock
    exact absurd hblock (by decide)
  · rw [List.length_append]
    omega
  · rw [← hblock, List.take_left]
  · rw [← hblock, List.drop_left]

theorem readEntries_announcement {announcement : Announcement} {block body bytes : Bytes}
    (hheader : Header block announcement.flag body.length)
    (hshort : body.length ≤ maxMetaBodyBytes) (hspelled : announcement.Spelled body)
    (hpadded : Padded body bytes) (said : Said) (dangling : Bool) (rest : Bytes) :
    readEntries said.preamble dangling (block ++ (bytes ++ rest)) =
      readEntries (said.hear announcement).preamble true rest := by
  obtain ⟨padding, hbytes, hlength⟩ := hpadded
  obtain ⟨hempty, hlong, htake, hdrop⟩ := first_block hheader.length (bytes ++ rest)
  obtain ⟨hchecksum, hsize, htype, hzero⟩ := hheader.seen
  have hmeta : Char.ofNat announcement.flag.toNat ∈ metaTypes := announcement.flag_mem
  have hbody : (bytes ++ rest).take body.length = body := by
    rw [hbytes, List.append_assoc, List.take_left]
  have hfits : ¬ (maxMetaBodyBytes < body.length ∨
      (block ++ (bytes ++ rest)).length < blockSize + roundUpToBlock body.length) := by
    rw [List.length_append, List.length_append, hheader.length, hlength]
    omega
  have hafter : (block ++ (bytes ++ rest)).drop (blockSize + roundUpToBlock body.length) =
      rest := by
    rw [← List.drop_drop, hdrop, ← hlength, List.drop_left]
  rw [readEntries, if_neg hempty, dif_neg hlong]
  dsimp only
  rw [htake, if_neg hzero, hchecksum, if_neg (by decide), hsize]
  dsimp only
  rw [htype, if_pos hmeta, if_neg hfits, hdrop, hbody, readMetaHeader_eq hspelled said]
  dsimp only
  rw [hafter]

/-- All that is said about an entry is heard, in any number of headers before it. -/
theorem readEntries_announced {announcements : List Announcement} {before : Bytes}
    (hannounced : Announces announcements before) (said : Said) (dangling : Bool)
    (rest : Bytes) :
    readEntries said.preamble dangling (before ++ rest) =
      readEntries (announcements.foldl Said.hear said).preamble
        (dangling || !announcements.isEmpty) rest := by
  induction hannounced generalizing said dangling with
  | nil =>
      rw [List.nil_append, List.isEmpty_nil, Bool.not_true, Bool.or_false]
      rfl
  | cons hheader hshort hspelled hpadded hlater ih =>
      rename_i announcement announcements block body bytes later
      rw [List.append_assoc, List.append_assoc,
        readEntries_announcement hheader hshort hspelled hpadded said dangling (later ++ rest),
        ih, List.foldl_cons, Bool.true_or, List.isEmpty_cons, Bool.not_false, Bool.or_true]

end Announced

/- Entries -/

section Entries

theorem record_eq (said : Said) {key : String} (hkey : latin1 (asciiBytes key) = key.toList)
    (hascii : ∀ byte ∈ asciiBytes key, byte.toNat < 0x80) :
    (said.preamble.paxRecords.bind fun records => records.get key) =
      (said.record key).map decodeUtf8 := by
  have hlookup : ∀ records : ByteRecords,
      ((records.map decodeRecord).find? fun record => record.1 = key.toList).map Prod.snd =
        ((records.find? fun record => record.1 = asciiBytes key).map Prod.snd).map decodeUtf8 := by
    intro records
    induction records with
    | nil => rfl
    | cons record records ih =>
        have hsame : (decodeRecord record).1 = key.toList ↔ record.1 = asciiBytes key := by
          rw [← hkey]
          exact decodeUtf8_eq_iff hascii
        rw [List.map_cons, List.find?_cons, List.find?_cons]
        by_cases heq : record.1 = asciiBytes key
        · rw [decide_eq_true heq, decide_eq_true (hsame.mpr heq)]
          rfl
        · rw [decide_eq_false heq, decide_eq_false (fun h => heq (hsame.mp h))]
          exact ih
  rw [Said.preamble, Said.record]
  cases said.records with
  | none => rfl
  | some records =>
      simp only [Option.map_some, Option.bind_some, Records.get]
      rw [← List.map_reverse]
      exact hlookup records.reverse

/-- The name that the guard takes from the records is the last one announced. -/
theorem path_record (said : Said) :
    (said.preamble.paxRecords.bind fun records => records.get "path") =
      (said.record "path").map decodeUtf8 :=
  record_eq said (by decide) (List.all_iff_forall_prop.mp (by decide))

/-- The link that the guard takes from the records is the last one announced. -/
theorem linkpath_record (said : Said) :
    (said.preamble.paxRecords.bind fun records => records.get "linkpath") =
      (said.record "linkpath").map decodeUtf8 :=
  record_eq said (by decide) (List.all_iff_forall_prop.mp (by decide))

/-- The size that the guard takes from the records is the last one announced. -/
theorem size_record (said : Said) :
    (said.preamble.paxRecords.bind fun records => records.get "size") =
      (said.record "size").map decodeUtf8 :=
  record_eq said (by decide) (List.all_iff_forall_prop.mp (by decide))

variable {entry : ArchiveEntry} {said : Said} {block : Bytes} {ownSize : Nat}

/-- Between a long name, a record and the header's own field the guard chooses as the format
does. -/
theorem HeaderOf.name_eq (hheader : HeaderOf entry said block ownSize) :
    ((said.preamble.gnuLongName.or ((said.record "path").map decodeUtf8)).getD
      (headerName block)) = decodeUtf8 entry.name := by
  have hname := hheader.name
  have hor : said.preamble.gnuLongName.or ((said.record "path").map decodeUtf8) =
      (said.longName.or (said.record "path")).map decodeUtf8 := by
    rw [Said.preamble, Option.map_or]
  rw [hor]
  cases hsaid : said.longName.or (said.record "path") with
  | some name =>
      rw [hsaid] at hname
      rw [hname]
      rfl
  | none =>
      rw [hsaid] at hname
      exact headerName_eq hname

/-- The same choice for the target of a link. -/
theorem HeaderOf.linkName_eq (hheader : HeaderOf entry said block ownSize) :
    ((said.preamble.gnuLongLink.or ((said.record "linkpath").map decodeUtf8)).getD
      (readString block 157 100)) = decodeUtf8 entry.linkName := by
  have hname := hheader.linkName
  have hor : said.preamble.gnuLongLink.or ((said.record "linkpath").map decodeUtf8) =
      (said.longLink.or (said.record "linkpath")).map decodeUtf8 := by
    rw [Said.preamble, Option.map_or]
  rw [hor]
  cases hsaid : said.longLink.or (said.record "linkpath") with
  | some name =>
      rw [hsaid] at hname
      rw [hname]
      rfl
  | none =>
      rw [hsaid] at hname
      exact readString_eq hname

/-- The type is the one of the header, since a directory in the old notation is still a file to
the guard. -/
theorem ArchiveEntry.type_eq (entry : ArchiveEntry) :
    (if Char.ofNat entry.kind.flag.toNat = '\x00' ∧
        (decodeUtf8 entry.name).getLast? = some '/' then '5'
      else Char.ofNat entry.kind.flag.toNat) = Char.ofNat entry.kind.flag.toNat := by
  rw [if_neg]
  rintro ⟨hflag, hlast⟩
  have hkind : entry.kind = .oldFile := by
    cases hkind : entry.kind with
    | oldFile => rfl
    | _ =>
        rw [hkind] at hflag
        exact absurd hflag (by decide)
  obtain ⟨byte, hbyte, heq⟩ := decodeFrom_getLast validBegun_none hlast (by decide)
  have hslash : byte = 0x2f := UInt8.toNat_inj.mp heq
  exact entry.noSlash hkind (hslash ▸ hbyte)

/-- The types whose size counts for nothing are those of entries without data. -/
theorem headerOnly_iff (kind : EntryKind) :
    Char.ofNat kind.flag.toNat ∈ headerOnlyTypes ↔ kind.hasData = false := by
  cases kind with
  | _ => decide

/-- From the header of an entry, with what was announced, the guard reads that entry and the
length of its data. -/
theorem HeaderOf.entryOf_eq (hheader : HeaderOf entry said block ownSize) :
    entryOf said.preamble block (Char.ofNat entry.kind.flag.toNat) ownSize =
      some (entry.read, roundUpToBlock entry.data.length) := by
  have hlength : ∀ size, (entry.kind.hasData = true → size = entry.data.length) →
      (if Char.ofNat entry.kind.flag.toNat ∈ headerOnlyTypes then 0 else roundUpToBlock size) =
        roundUpToBlock entry.data.length := by
    intro size hsize
    cases hdata : entry.kind.hasData with
    | false =>
        rw [if_pos ((headerOnly_iff entry.kind).mpr hdata), entry.empty hdata]
        rfl
    | true =>
        rw [if_neg, hsize hdata]
        rw [headerOnly_iff, hdata]
        exact (Bool.false_ne_true ·.symm)
  simp only [entryOf, path_record, linkpath_record, size_record, hheader.name_eq,
    hheader.linkName_eq, entry.type_eq]
  have hsize := hheader.size
  cases hsaid : said.record "size" with
  | none =>
      rw [hsaid] at hsize
      simp only [Option.map_none, Option.map_some, hlength ownSize hsize]
      rfl
  | some text =>
      rw [hsaid] at hsize
      obtain ⟨hsome, hdigits, hvalue⟩ := hsize
      have hascii : ∀ byte ∈ text, byte.toNat < 0x80 := by
        intro byte hbyte
        have hdigit := toNat_of_isDigit (List.all_eq_true.mp hdigits byte hbyte)
        omega
      have hempty : (latin1 text).isEmpty = false := by
        simpa [latin1] using hsome
      have hsafe : isSafeInteger entry.data.length = true := decide_eq_true entry.sized
      simp only [Option.map_some, decodeUtf8_eq_latin1 hascii, hempty, ofDigits_digits hdigits,
        hvalue, hsafe, Bool.not_true, Bool.or_self, Bool.false_eq_true, ↓reduceIte,
        hlength _ fun _ => rfl]
      rfl

/-- An entry with its data is read as itself, and the reading goes on behind it with nothing
announced. -/
theorem readEntries_header (hheader : HeaderOf entry said block ownSize) {data : Bytes}
    (hpadded : Padded entry.data data) (dangling : Bool) (rest : Bytes) :
    readEntries said.preamble dangling (block ++ (data ++ rest)) =
      (readEntries Preamble.none false rest).map fun entries => entry.read :: entries := by
  obtain ⟨padding, -, hlength⟩ := hpadded
  obtain ⟨hempty, hlong, htake, hdrop⟩ := first_block hheader.header.length (data ++ rest)
  obtain ⟨hchecksum, hsize, htype, hzero⟩ := hheader.header.seen
  have hflags : Char.ofNat entry.kind.flag.toNat ∉ metaTypes ∧
      ¬ Char.ofNat entry.kind.flag.toNat ∉ acceptedEntryTypes := by
    cases entry.kind with
    | _ => decide
  have hfits : ¬ (block ++ (data ++ rest)).length <
      blockSize + roundUpToBlock entry.data.length := by
    rw [List.length_append, List.length_append, hheader.header.length, hlength]
    omega
  have hafter : (block ++ (data ++ rest)).drop (blockSize + roundUpToBlock entry.data.length) =
      rest := by
    rw [← List.drop_drop, hdrop, ← hlength, List.drop_left]
  rw [readEntries, if_neg hempty, dif_neg hlong]
  dsimp only
  rw [htake, if_neg hzero, hchecksum, if_neg (by decide), hsize]
  dsimp only
  rw [htype, if_neg hflags.1, if_neg hflags.2, hheader.entryOf_eq]
  dsimp only
  rw [if_neg hfits, hafter]

/-- An archive reads as its entries, which is completeness of the guard's reading. -/
theorem readEntries_encoded {entries : List ArchiveEntry} {bytes : Bytes}
    (hencoded : EncodesArchive entries bytes) :
    readEntries Preamble.none false bytes = some (entries.map ArchiveEntry.read) := by
  induction hencoded with
  | closing hcount =>
      rename_i count
      have hblocks : List.replicate (blockSize * count) (0 : UInt8) =
          List.replicate blockSize 0 ++ List.replicate (blockSize * (count - 1)) 0 := by
        rw [← List.replicate_add]
        congr 1
        obtain ⟨more, rfl⟩ := Nat.exists_eq_add_of_le hcount
        rw [Nat.add_sub_cancel_left, Nat.mul_add, Nat.mul_one]
      obtain ⟨hempty, hlong, htake, -⟩ := first_block
        (List.length_replicate : (List.replicate blockSize (0 : UInt8)).length = blockSize)
        (List.replicate (blockSize * (count - 1)) 0)
      have hzero : (List.replicate blockSize (0 : UInt8)).all (· = 0) = true := by
        rw [List.all_eq_true]
        intro byte hbyte
        exact decide_eq_true (List.eq_of_mem_replicate hbyte)
      rw [hblocks, readEntries, if_neg hempty, dif_neg hlong]
      dsimp only
      rw [htake, if_pos hzero, if_neg Bool.false_ne_true]
      rfl
  | cons hentry hlater ih =>
      rename_i entry entries bytes rest
      obtain ⟨announcements, before, block, ownSize, data, hannounced, hheader, hpadded, rfl⟩ :=
        hentry
      have hread := readEntries_announced hannounced Said.nothing false (block ++ (data ++ rest))
      have hnothing : Said.nothing.preamble = Preamble.none := rfl
      rw [List.append_assoc, List.append_assoc, ← hnothing, hread,
        readEntries_header hheader hpadded, ih]
      rfl

end Entries

/- Names -/

section Names

/-- A list begins with a separator when its first part is empty. -/
theorem head_splitOn {α : Type} [DecidableEq α] {sep : α} {items : List α} (hne : items ≠ []) :
    items.head? = some sep ↔ (items.splitOn sep).head? = some [] := by
  cases items with
  | nil => exact absurd rfl hne
  | cons item items =>
      rw [List.splitOn_cons_eq_if_modifyHead, List.head?_cons, Option.some.injEq]
      by_cases heq : item = sep
      · simp [heq]
      · obtain ⟨part, parts, hparts⟩ := List.exists_cons_of_ne_nil (List.splitOn_ne_nil sep items)
        simp [heq, hparts]

/-- Splitting at slashes and decoding may change places. -/
theorem splitOn_slash (path : Bytes) :
    (decodeUtf8 path).splitOn '/' = (path.splitOn 0x2f).map decodeUtf8 := by
  have hslash : (0x2f : UInt8).toNat < 0x80 := by decide
  exact decodeUtf8_splitOn hslash path

theorem decodeUtf8_head_slash (path : Bytes) :
    (decodeUtf8 path).head? = some '/' ↔ path.head? = some 0x2f := by
  by_cases hnil : path = []
  · rw [hnil]
    decide
  rw [head_splitOn (decodeUtf8_ne_nil hnil), head_splitOn hnil, splitOn_slash, List.head?_map,
    Option.map_eq_some_iff]
  simp only [decodeUtf8_nil_iff, exists_eq_right]

/-- The parts of a path are read on their own, so that malformed bytes in one do not reach
another. -/
theorem components_decodeUtf8 (path : Bytes) :
    components (decodeUtf8 path) = (byteComponents path).map fun parts => parts.map decodeUtf8 := by
  have hascii : ∀ byte ∈ ([0x2e, 0x2e] : Bytes), byte.toNat < 0x80 :=
    List.all_iff_forall_prop.mp (by decide)
  have hdot : ∀ part : Bytes, decodeUtf8 part = ['.'] ↔ part = [0x2e] :=
    fun _ => decodeUtf8_eq_iff fun byte hbyte => hascii byte (List.mem_cons_of_mem _ hbyte)
  have hdots : ∀ part : Bytes, decodeUtf8 part = ['.', '.'] ↔ part = [0x2e, 0x2e] :=
    fun _ => decodeUtf8_eq_iff hascii
  have hparts : ((decodeUtf8 path).splitOn '/').filter (fun part => part ≠ [] && part ≠ ['.']) =
      ((path.splitOn 0x2f).filter fun part => part ≠ [] && part ≠ [0x2e]).map decodeUtf8 := by
    rw [splitOn_slash, List.filter_map]
    congr 1
    apply List.filter_congr
    intro part _
    simp only [Function.comp_apply, ne_eq, decodeUtf8_nil_iff, hdot]
  rw [components, byteComponents]
  by_cases habsolute : path.head? = some 0x2f
  · rw [if_pos habsolute, if_pos ((decodeUtf8_head_slash path).mpr habsolute)]
    rfl
  rw [if_neg habsolute, if_neg ((decodeUtf8_head_slash path).not.mpr habsolute)]
  dsimp only
  rw [hparts]
  have hmem : ∀ parts : List Bytes, ['.', '.'] ∈ parts.map decodeUtf8 ↔ [0x2e, 0x2e] ∈ parts := by
    intro parts
    simp only [List.mem_map, hdots, exists_eq_right]
  simp only [hmem]
  split
  · rfl
  · rfl

variable {rootName : List Char}

theorem EntryKind.flag_inj {kind other : EntryKind}
    (hflag : Char.ofNat kind.flag.toNat = Char.ofNat other.flag.toNat) : kind = other := by
  cases kind with
  | _ =>
      revert hflag
      cases other with
      | _ => decide

/-- A path beneath the root is still beneath it as the guard reads it. -/
theorem BeneathRoot.read {path : Bytes} (hbeneath : BeneathRoot rootName path) :
    (components (decodeUtf8 path)).bind List.head? = some rootName := by
  obtain ⟨parts, hparts, hhead⟩ := Option.bind_eq_some_iff.mp hbeneath
  rw [components_decodeUtf8, hparts, Option.map_some, Option.bind_some, List.head?_map, hhead,
    Option.map_some, decodeUtf8_encodeUtf8]

/-- An entry in its place is judged to be in its place. -/
theorem ArchiveEntry.Placed.read {entry : ArchiveEntry} (hplaced : entry.Placed rootName) :
    entry.read.Placed rootName := by
  refine ⟨hplaced.1.read, ?_⟩
  intro htype
  have hkind : entry.kind = .hardLink := EntryKind.flag_inj htype
  exact (hplaced.2 hkind).read

/-- The parts of a path in UTF-8 can be told from their decodings. -/
theorem byteComponents_isUtf8 {path : Bytes} (hpath : IsUtf8 path) {parts : List Bytes}
    (hparts : byteComponents path = some parts) :
    (parts.map decodeUtf8).map encodeUtf8 = parts := by
  have hall : ∀ part ∈ parts, encodeUtf8 (decodeUtf8 part) = part := by
    intro part hpart
    rw [byteComponents] at hparts
    split at hparts
    · cases hparts
    dsimp only at hparts
    split at hparts
    · cases hparts
    · rw [← Option.some.inj hparts] at hpart
      exact hpath.of_mem_splitOn (by decide) (by decide) (List.mem_filter.mp hpart).1
  rw [List.map_map]
  exact (List.map_congr_left hall).trans (List.map_id parts)

/-- Names in UTF-8 lie beneath each other as they are read, and in no other case. -/
theorem ArchiveEntry.ReadShadows.shadows {link entry : ArchiveEntry}
    (hlink : IsUtf8 link.name) (hentry : IsUtf8 entry.name) (hshadows : link.ReadShadows entry) :
    link.Shadows entry := by
  obtain ⟨htype, readAbove, readParts, habove, hparts, hfront, hne⟩ := hshadows
  have hkind : link.kind = .symlink := EntryKind.flag_inj htype
  rw [ArchiveEntry.read, components_decodeUtf8] at habove hparts
  obtain ⟨above, hlinkParts, rfl⟩ := Option.map_eq_some_iff.mp habove
  obtain ⟨parts, hentryParts, rfl⟩ := Option.map_eq_some_iff.mp hparts
  have hwritten := hfront.map encodeUtf8
  rw [byteComponents_isUtf8 hlink hlinkParts, byteComponents_isUtf8 hentry hentryParts]
    at hwritten
  exact ⟨hkind, above, parts, hlinkParts, hentryParts, hwritten,
    fun heq => hne (congrArg _ heq)⟩

/-- The stream passes byte for byte, and nothing is rejected. -/
def Forwarded (rootName : List Char) (chunks : List Bytes) : Prop :=
  (RestoreTarGuard.fed rootName chunks).output = chunks.flatten ∧
    (RestoreTarGuard.fed rootName chunks).rejection = none

/-- A stream is let through exactly when its bytes are restorable, wherever it is cut. -/
theorem forwarded_iff (chunks : List Bytes) :
    Forwarded rootName chunks ↔ Restorable rootName chunks.flatten := by
  rw [Forwarded, ← fed_accepts_iff]
  refine and_iff_right_of_imp ?_
  intro hnone
  have houtcome := RestoreTarGuard.fed_outcome rootName chunks
  have hrejection : (RestoreTarGuard.fed rootName chunks).rejection =
      (readAll rootName Preamble.none [] [] chunks.flatten).2 := congrArg Prod.snd houtcome
  have hwhole : (readAll rootName Preamble.none [] [] chunks.flatten).1 =
      ([] : List Bytes).flatten ++ chunks.flatten :=
    readAll_begins.2 (hrejection.symm.trans hnone)
  exact (congrArg Prod.fst houtcome).trans hwhole

/-- The guard forwards a well-formed archive, of entries in place and none beneath a symlink,
unless two names are the same once what is no UTF-8 in them is replaced. The archive is any
sequence of bytes that the rules of the format admit, with extended headers of both kinds, and
cut into chunks in any way. -/
theorem wellFormed_forwarded_iff {entries : List ArchiveEntry} {chunks : List Bytes}
    (hencoded : EncodesArchive entries chunks.flatten)
    (hplaced : ∀ entry ∈ entries, entry.Placed rootName)
    (hclear : entries.Pairwise fun link entry => ¬ link.Shadows entry) :
    (Forwarded rootName chunks ↔ entries.Pairwise fun link entry => ¬ link.ReadShadows entry) ∧
      ((∀ entry ∈ entries, IsUtf8 entry.name) → Forwarded rootName chunks) := by
  have hread := readEntries_encoded hencoded
  have hiff : Forwarded rootName chunks ↔
      entries.Pairwise fun link entry => ¬ link.ReadShadows entry := by
    rw [forwarded_iff, Restorable, hread]
    constructor
    · rintro ⟨found, hfound, -, hpairwise⟩
      rw [← Option.some.inj hfound] at hpairwise
      exact List.pairwise_map.mp hpairwise
    · intro hpairwise
      refine ⟨_, rfl, ?_, List.pairwise_map.mpr hpairwise⟩
      intro found hfound
      obtain ⟨entry, hentry, rfl⟩ := List.mem_map.mp hfound
      exact (hplaced entry hentry).read
  refine ⟨hiff, ?_⟩
  intro hutf8
  apply hiff.mpr
  apply List.Pairwise.imp_of_mem _ hclear
  intro link entry hlink hentry hshadows hread
  exact hshadows (hread.shadows (hutf8 link hlink) (hutf8 entry hentry))

end Names

namespace OtherBytes

open Written

/-- Octal digits to a count, then blanks. -/
def OctalTo (count : Nat) (bytes : Bytes) (value : Nat) : Prop :=
  (bytes.take count).all isOctalDigit = true ∧
    (∀ byte ∈ bytes.drop count, byte = 0x20 ∨ byte = 0) ∧
    value = ofDigits 8 (latin1 (bytes.take count))

def PaddedTo (length : Nat) (bytes value : Bytes) : Prop :=
  bytes = value ++ List.replicate (length - value.length) 0 ∧ 0 ∉ value

/-- A header with these figures, in octal digits up to the end of their fields. -/
def Sized (flag : UInt8) (size : Nat) (block : Bytes) : Prop :=
  block.length = blockSize ∧ block[156]? = some flag ∧
    OctalTo 6 (field block 148 8) (unsignedSum (withoutChecksum block)) ∧
    OctalTo 11 (field block 124 12) size

/-- A USTAR header that spells the names of an entry, with every field of it filled up with
zeros and nothing said elsewhere. -/
def Bare (entry : ArchiveEntry) (block : Bytes) : Prop :=
  (Sized entry.kind.flag 0 block ∧ entry.data = []) ∧
    (field block 257 6 = [0x75, 0x73, 0x74, 0x61, 0x72, 0] ∧
      field block 500 12 = List.replicate 12 0) ∧
    PaddedTo 155 (field block 345 155) [] ∧ PaddedTo 100 (field block 0 100) entry.name ∧
    PaddedTo 100 (field block 157 100) entry.linkName

instance (count : Nat) (bytes : Bytes) (value : Nat) : Decidable (OctalTo count bytes value) :=
  inferInstanceAs (Decidable (_ ∧ _))

instance (length : Nat) (bytes value : Bytes) : Decidable (PaddedTo length bytes value) :=
  inferInstanceAs (Decidable (_ ∧ _))

instance (flag : UInt8) (size : Nat) (block : Bytes) : Decidable (Sized flag size block) :=
  inferInstanceAs (Decidable (_ ∧ _))

instance (entry : ArchiveEntry) (block : Bytes) : Decidable (Bare entry block) :=
  inferInstanceAs (Decidable (_ ∧ _))

/-- Digits filled up to the width of a field are a number of the format. -/
theorem OctalTo.holds {count value : Nat} {bytes : Bytes} (hoctal : OctalTo count bytes value) :
    HoldsOctal bytes value := by
  obtain ⟨hdigits, hrest, hvalue⟩ := hoctal
  exact ⟨[], bytes.take count, bytes.drop count, (List.take_append_drop count bytes).symm,
    nofun, hdigits, hrest, hvalue⟩

/-- A text filled up with NULs is a text of the format. -/
theorem PaddedTo.holds {length : Nat} {bytes value : Bytes}
    (hpadded : PaddedTo length bytes value) : HoldsText bytes value := by
  obtain ⟨rfl, hvalue⟩ := hpadded
  refine ⟨hvalue, _, rfl, ?_⟩
  cases length - value.length with
  | zero => exact Or.inl rfl
  | succ more => exact Or.inr rfl

theorem Sized.header {flag : UInt8} {size : Nat} {block : Bytes}
    (hsized : Sized flag size block) : Header block flag size := by
  obtain ⟨hlength, hflag, hchecksum, hsize⟩ := hsized
  exact ⟨hlength, hchecksum.holds, hflag, Or.inl hsize.holds⟩

theorem Bare.encodes {entry : ArchiveEntry} {block : Bytes} (hbare : Bare entry block) :
    EncodesEntry entry block := by
  obtain ⟨⟨hsized, hdata⟩, ⟨hmagic, hunused⟩, hfront, hname, hlink⟩ := hbare
  have hspelled : SpellsName block (if ([] : Bytes) = [] then entry.name
      else [] ++ 0x2f :: entry.name) :=
    .ustar hmagic hunused hfront.holds hname.holds
  have hheader : HeaderOf entry Said.nothing block 0 := by
    refine ⟨hsized.header, hspelled, hlink.holds, ?_⟩
    intro _
    rw [hdata]
    rfl
  have hpadded : Padded entry.data [] := ⟨[], by rw [hdata]; rfl, by rw [hdata]; rfl⟩
  have hbytes : block = [] ++ (block ++ []) := by
    rw [List.nil_append, List.append_nil]
  exact ⟨[], [], block, 0, [], .nil, hheader, hpadded, hbytes⟩

theorem closing_encoded : EncodesArchive [] closing := @EncodesArchive.closing 2 (by decide)

def folder : ArchiveEntry where
  kind := .directory
  name := asciiBytes "mail/"
  linkName := []
  data := []
  sized := by decide
  empty := fun _ => rfl
  noSlash := nofun

/-- A message whose name is announced, so that its own header can cut it short. -/
def announced : ArchiveEntry where
  kind := .file
  name := asciiBytes "mail/message"
  linkName := []
  data := asciiBytes "hello"
  sized := by decide
  empty := nofun
  noSlash := nofun

def shortcut : ArchiveEntry where
  kind := .symlink
  name := asciiBytes "mail/shortcut"
  linkName := asciiBytes "/srv"
  data := []
  sized := by decide
  empty := fun _ => rfl
  noSlash := nofun

/-- The root of a volume, a message with the long name before it, and a symlink. -/
def written : Bytes :=
  headerOf "mail/" '5' "" ++
    ((sizedHeader "././@LongLink" 'L' "" 13 ++ (text "mail/message" 512 ++ []) ++
      (sizedHeader "mail/mess" '0' "" 5 ++ text "hello" 512)) ++
        (headerOf "mail/shortcut" '2' "/srv" ++ closing))

theorem announced_encoded : EncodesEntry announced
    (sizedHeader "././@LongLink" 'L' "" 13 ++ (text "mail/message" 512 ++ []) ++
      (sizedHeader "mail/mess" '0' "" 5 ++ text "hello" 512)) := by
  have hbody : HoldsText (asciiBytes "mail/message" ++ [0]) (asciiBytes "mail/message") :=
    ⟨by decide, [0], rfl, Or.inr rfl⟩
  have hlong : Sized 0x4c (asciiBytes "mail/message" ++ [0]).length
      (sizedHeader "././@LongLink" 'L' "" 13) := by
    decide +kernel
  have hbefore : Announces [.longName (asciiBytes "mail/message")]
      (sizedHeader "././@LongLink" 'L' "" 13 ++ (text "mail/message" 512 ++ [])) :=
    @Announces.cons (.longName (asciiBytes "mail/message")) [] _ (asciiBytes "mail/message" ++ [0])
      _ _ hlong.header (by decide) ⟨by decide, hbody⟩
      ⟨List.replicate 499 0, by decide +kernel, by decide +kernel⟩ .nil
  have hsized : Sized 0x30 5 (sizedHeader "mail/mess" '0' "" 5) := by
    decide +kernel
  have hlink : PaddedTo 100 (field (sizedHeader "mail/mess" '0' "" 5) 157 100) [] := by
    decide +kernel
  exact ⟨_, _, _, 5, _, hbefore, ⟨hsized.header, rfl, hlink.holds, fun _ => rfl⟩,
    ⟨List.replicate 507 0, by decide +kernel, by decide +kernel⟩, rfl⟩

/-- The bytes of the example are an archive of these entries, by the rules of the format. -/
theorem written_encoded : EncodesArchive [folder, announced, shortcut] written := by
  have hfolder : Bare folder (headerOf "mail/" '5' "") := by
    decide +kernel
  have hshortcut : Bare shortcut (headerOf "mail/shortcut" '2' "/srv") := by
    decide +kernel
  exact .cons hfolder.encodes (.cons announced_encoded (.cons hshortcut.encodes closing_encoded))

/-- Every entry is let through, wherever the stream is cut: a directory, a file with a long name
and a symlink. -/
theorem written_forwarded :
    Forwarded "mail".toList [written.take 600, (written.drop 600).take 1000, written.drop 1600] := by
  have hflatten :
      [written.take 600, (written.drop 600).take 1000, written.drop 1600].flatten = written := by
    have hdrop : written.drop 1600 = (written.drop 600).drop 1000 := by
      rw [List.drop_drop]
    rw [List.flatten_cons, List.flatten_cons, List.flatten_singleton, hdrop,
      List.take_append_drop, List.take_append_drop]
  have hencoded : EncodesArchive [folder, announced, shortcut]
      [written.take 600, (written.drop 600).take 1000, written.drop 1600].flatten := by
    rw [hflatten]
    exact written_encoded
  have hbeneath : ∀ entry ∈ [folder, announced, shortcut],
      BeneathRoot "mail".toList entry.name := by
    unfold BeneathRoot
    decide
  have hhard : ∀ entry ∈ [folder, announced, shortcut], entry.kind ≠ .hardLink := by
    decide
  have hplaced : ∀ entry ∈ [folder, announced, shortcut], entry.Placed "mail".toList :=
    fun entry hentry => ⟨hbeneath entry hentry, fun hlink => absurd hlink (hhard entry hentry)⟩
  have hkinds : folder.kind ≠ .symlink ∧ announced.kind ≠ .symlink := by
    decide
  have hapart : [folder, announced, shortcut].Pairwise fun link entry => ¬ link.Shadows entry := by
    refine .cons (fun _ _ hshadows => hkinds.1 hshadows.1) ?_
    refine .cons (fun _ _ hshadows => hkinds.2 hshadows.1) ?_
    exact List.pairwise_singleton _ _
  have hutf8 : ∀ entry ∈ [folder, announced, shortcut], IsUtf8 entry.name := by
    decide
  exact (wellFormed_forwarded_iff hencoded hplaced hapart).2 hutf8

/-- A folder of the mail volume that is a symlink, by a name of one byte. -/
def link : ArchiveEntry where
  kind := .symlink
  name := asciiBytes "mail/" ++ [0xff]
  linkName := asciiBytes "/srv"
  data := []
  sized := by decide
  empty := fun _ => rfl
  noSlash := nofun

/-- A message in a folder whose name is another byte, which is no UTF-8 and is read as a
replacement character. -/
def message : ArchiveEntry where
  kind := .file
  name := asciiBytes "mail/" ++ 0xfe :: asciiBytes "/message"
  linkName := []
  data := []
  sized := by decide
  empty := nofun
  noSlash := nofun

def stream : List Bytes :=
  [headerOf "mail/ÿ" '2' "/srv", headerOf "mail/þ/message" '0' "", closing]

theorem stream_encoded : EncodesArchive [link, message] stream.flatten := by
  have hlink : Bare link (headerOf "mail/ÿ" '2' "/srv") := by
    decide +kernel
  have hmessage : Bare message (headerOf "mail/þ/message" '0' "") := by
    decide +kernel
  have hencoded := EncodesArchive.cons hlink.encodes (.cons hmessage.encodes closing_encoded)
  have hflatten : stream.flatten = headerOf "mail/ÿ" '2' "/srv" ++
      (headerOf "mail/þ/message" '0' "" ++ closing) := by
    simp only [stream, List.flatten_cons, List.flatten_nil, List.append_nil]
  rw [hflatten]
  exact hencoded

theorem all_placed : ∀ entry ∈ [link, message], entry.Placed "mail".toList := by
  have hlink : BeneathRoot "mail".toList link.name := by
    unfold BeneathRoot
    decide
  have hmessage : BeneathRoot "mail".toList message.name := by
    unfold BeneathRoot
    decide
  intro entry hentry
  rcases List.mem_cons.mp hentry with rfl | hentry
  · exact ⟨hlink, nofun⟩
  · rw [List.mem_singleton.mp hentry]
    exact ⟨hmessage, nofun⟩

theorem none_beneath : [link, message].Pairwise fun link entry => ¬ link.Shadows entry := by
  have hlink : byteComponents link.name = some [asciiBytes "mail", [0xff]] := by
    decide
  have hmessage : byteComponents message.name =
      some [asciiBytes "mail", [0xfe], asciiBytes "message"] := by
    decide
  rw [List.pairwise_pair]
  rintro ⟨-, above, parts, habove, hparts, hfront, -⟩
  rw [hlink] at habove
  rw [hmessage] at hparts
  rw [← Option.some.inj habove, ← Option.some.inj hparts] at hfront
  exact absurd hfront (by decide)

/-- The guard takes the message to lie beneath the symlink, since two different malformed names
decode to one. -/
theorem other_refused : EncodesArchive [link, message] stream.flatten ∧
    (∀ entry ∈ [link, message], entry.Placed "mail".toList) ∧
    ([link, message].Pairwise fun link entry => ¬ link.Shadows entry) ∧
    (RestoreTarGuard.fed "mail".toList stream).rejection =
      some (.beneathSymlink "mail/�/message".toList) ∧ ¬ Forwarded "mail".toList stream := by
  have hrefused : (RestoreTarGuard.fed "mail".toList stream).rejection =
      some (.beneathSymlink "mail/�/message".toList) := by
    decide +kernel
  refine ⟨stream_encoded, all_placed, none_beneath, hrefused, ?_⟩
  rintro ⟨-, hnone⟩
  rw [hrefused] at hnone
  cases hnone

end OtherBytes

end RestoreTar

end MailPanel

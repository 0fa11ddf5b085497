import MailPanel.ScriptText

/-
The guard that every restored volume streams through.  It walks the headers of the tar and
cuts the stream short at the first entry outside the volume's own root; the bytes come in
chunks of any size.
-/

namespace MailPanel

namespace RestoreTar

open ScriptText

/-- An archive is read in blocks of this size. -/
def blockSize : Nat := 512

/-- What an extended header may hold at most; it is kept in memory until its entry comes. -/
def maxMetaBodyBytes : Nat := 1024 * 1024

/-- Entry types whose size counts for nothing: no data follows their header. -/
def headerOnlyTypes : List Char := ['1', '2', '3', '4', '5', '6']

/-- Files, in their three spellings, and the types without data. Any other type is refused. -/
def acceptedEntryTypes : List Char := ['0', '\x00', '7'] ++ headerOnlyTypes

/-- Types of blocks that say something about the next entry. -/
def metaTypes : List Char := ['x', 'g', 'L', 'K']

/- Fields -/

/-- Parts of an archive as the sequence of their bytes. -/
abbrev Bytes := List UInt8

/-- A field of a header, by its place. -/
def field (block : Bytes) (offset length : Nat) : Bytes := (block.drop offset).take length

/-- The text of a field, up to its first NUL or its end, one character for each byte. -/
def readString (block : Bytes) (offset length : Nat) : List Char :=
  decodeUtf8 ((field block offset length).takeWhile (· ≠ 0))

/-- Octal text, or base 256 when the high bit is set. Texts that are neither are no number. -/
def readNumber (block : Bytes) (offset length : Nat) : Option Nat :=
  match field block offset length with
  | first :: rest =>
      if first &&& 0x80 ≠ 0 then
        if first &&& 0x40 ≠ 0 then none
        else
          let value := rest.foldl (fun value byte => value * 256 + byte.toNat)
            (first &&& 0x3f).toNat
          if isSafeInteger value then some value else none
      else
        let text := trim (readString block offset length)
        if text.isEmpty then some 0
        else if text.all fun c => '0' ≤ c && c ≤ '7' then some (ofDigits 8 text)
        else none
  | [] => none

/-- The header with blanks for its checksum, as the sum is taken over it. -/
def withoutChecksum (block : Bytes) : Bytes :=
  block.take 148 ++ List.replicate 8 0x20 ++ block.drop 156

/-- The sum of the bytes, as most writers form it. -/
def unsignedSum (bytes : Bytes) : Nat := (bytes.map UInt8.toNat).sum

/-- The sum of the bytes as signed numbers, as a few old writers formed it. -/
def signedSum (bytes : Bytes) : Int :=
  (bytes.map fun byte => if 127 < byte.toNat then (byte.toNat : Int) - 256 else byte.toNat).sum

/-- A header is genuine when either sum is the recorded one. Old programs summed signed bytes,
and the source takes both. -/
def checksumMatches (block : Bytes) : Bool :=
  match readNumber block 148 8 with
  | none => false
  | some recorded =>
      recorded = unsignedSum (withoutChecksum block) ||
        (recorded : Int) = signedSum (withoutChecksum block)

/-- The name of the header alone, with the prefix of USTAR and STAR. A header with neither magic
has no prefix. -/
def headerName (block : Bytes) : List Char :=
  let name := readString block 0 100
  if latin1 (field block 257 6) ≠ ['u', 's', 't', 'a', 'r', '\x00'] then name
  else
    let isStar : Bool := latin1 (field block 508 4) = ['t', 'a', 'r', '\x00']
    let before := readString block 345 (if isStar then 131 else 155)
    if before.isEmpty then name else before ++ '/' :: name

/-- The records of an extended header in their order. -/
abbrev Records := List (List Char × List Char)

/-- The last record of a key counts, as it does for the reader of the archive. -/
def Records.get (records : Records) (key : String) : Option (List Char) :=
  (records.reverse.find? fun record => record.1 = key.toList).map Prod.snd

/-- `"<len> <key>=<value>\n"`, and what follows it. The length counts the whole record, its own
digits included. -/
def parsePaxRecord (body : Bytes) : Option ((List Char × List Char) × Bytes) :=
  let lengthText := latin1 (body.takeWhile (· ≠ 0x20))
  let length := ofDigits 10 lengthText
  if 0x20 ∉ body then none
  else if lengthText.isEmpty || !lengthText.all fun c => '0' ≤ c && c ≤ '9' then none
  else if length ≤ lengthText.length + 1 || body.length < length ||
      body[length - 1]? ≠ some 0x0a then none
  else
    let record := decodeUtf8 ((body.take (length - 1)).drop (lengthText.length + 1))
    let key := record.takeWhile (· ≠ '=')
    if '=' ∉ record || key.isEmpty then none
    else some ((key, record.drop (key.length + 1)), body.drop length)

/-- The turns that the loop takes at most are the bytes of the body, since every record has at
least one. -/
def parsePaxFrom : Nat → Bytes → Option Records
  | _, [] => some []
  | 0, _ => none
  | turns + 1, body =>
      match parsePaxRecord body with
      | none => none
      | some (record, rest) => (parsePaxFrom turns rest).map fun records => record :: records

/-- All records of a body, or none at all if one of them is malformed. -/
def parsePaxRecords (body : Bytes) : Option Records := parsePaxFrom body.length body

/-- The data of an entry is filled up to whole blocks. -/
def roundUpToBlock (size : Nat) : Nat := (size + (blockSize - 1)) / blockSize * blockSize

/-- The parts of a path but for `.` and empty ones; none for an absolute path and for `..`. -/
def components (path : List Char) : Option (List (List Char)) :=
  if path.head? = some '/' then none
  else
    let parts := (path.splitOn '/').filter fun part => part ≠ [] && part ≠ ['.']
    if ['.', '.'] ∈ parts then none else some parts

/- Entries -/

/-- What the blocks before an entry say about it: a long name, a long link, and extended
headers. -/
structure Preamble where
  paxRecords : Option Records
  gnuLongName : Option (List Char)
  gnuLongLink : Option (List Char)
deriving DecidableEq, Repr

/-- Nothing has been said about the next entry. -/
def Preamble.none : Preamble := ⟨Option.none, Option.none, Option.none⟩

/-- An entry as it is judged, its name and link taken from the preamble where that has them. -/
structure TarEntry where
  type : Char
  name : List Char
  linkName : List Char
deriving DecidableEq, Repr

/-- The type of a header. A missing byte reads as the old type for files. -/
def typeOf (header : Bytes) : Char :=
  match header[156]? with
  | some byte => Char.ofNat byte.toNat
  | none => '\x00'

/-- What a block of a meta type adds; none when its records are malformed. -/
def readMetaHeader (preamble : Preamble) (type : Char) (body : Bytes) : Option Preamble :=
  if type = 'L' ∨ type = 'K' then
    let value := decodeUtf8 (body.takeWhile (· ≠ 0))
    let long := if value.isEmpty then Option.none else some value
    if type = 'L' then some { preamble with gnuLongName := long }
    else some { preamble with gnuLongLink := long }
  else
    match parsePaxRecords body with
    | Option.none => Option.none
    | some records =>
        if type = 'x' then some { preamble with paxRecords := some records } else some preamble

/-- An entry, and the bytes of data after its header; none when the size of a record is
invalid. -/
def entryOf (preamble : Preamble) (header : Bytes) (rawType : Char) (ownSize : Nat) :
    Option (TarEntry × Nat) :=
  let record := fun key => preamble.paxRecords.bind fun records => records.get key
  let name := (preamble.gnuLongName.or (record "path")).getD (headerName header)
  let linkName := (preamble.gnuLongLink.or (record "linkpath")).getD (readString header 157 100)
  let type := if rawType = '\x00' ∧ name.getLast? = some '/' then '5' else rawType
  let size := match record "size" with
    | Option.none => some ownSize
    | some text =>
        if text.isEmpty || !text.all (fun c => '0' ≤ c && c ≤ '9') ||
            !isSafeInteger (ofDigits 10 text) then Option.none
        else some (ofDigits 10 text)
  size.map fun size =>
    (⟨type, name, linkName⟩, if type ∈ headerOnlyTypes then 0 else roundUpToBlock size)

/-- Why a stream is refused. Each has a message of its own in the source, and those that are
about an entry carry what the message names. -/
inductive Rejection where
  | endsPartway
  | danglingHeader
  | checksum
  | size
  | oversizedHeader
  | malformedPax
  | unsupportedType (type : Char)
  | paxSize
  | outside (name : List Char)
  | beneathSymlink (name : List Char)
  | hardLinkOutside (name : List Char)
deriving DecidableEq, Repr

/-- A path from its parts. -/
def joined (parts : List (List Char)) : List Char := ['/'].intercalate parts

/-- Whether some directory above the entry is a symlink of the stream. -/
def beneath (symlinks : List (List Char)) (parts : List (List Char)) : Bool :=
  (List.range parts.length).any fun depth =>
    1 ≤ depth && joined (parts.take depth) ∈ symlinks

/-- What is wrong with an entry: it lies outside the root or beneath a symlink, or it is a hard
link to something outside the root. -/
def problemWith (rootName : List Char) (symlinks : List (List Char)) (entry : TarEntry) :
    Option Rejection :=
  match components entry.name with
  | none => some (.outside entry.name)
  | some parts =>
      if parts.head? ≠ some rootName then some (.outside entry.name)
      else if beneath symlinks parts then some (.beneathSymlink entry.name)
      else if entry.type = '1' ∧
          (components entry.linkName).bind List.head? ≠ some rootName then
        some (.hardLinkOutside entry.name)
      else none

/-- The symlinks of the stream once an entry was let through. -/
def withSymlink (symlinks : List (List Char)) (entry : TarEntry) : List (List Char) :=
  if entry.type = '2' then joined ((components entry.name).getD []) :: symlinks else symlinks

/- The guard -/

/-- The guard between two chunks, with the bytes that it has forwarded so far. Nothing but this
state is kept, however the stream is cut. -/
structure RestoreTarGuard where
  rejection : Option Rejection
  buffered : Bytes
  /-- Data bytes still to pass before the next header. -/
  dataRemaining : Nat
  /-- Blocks read but not yet forwarded. -/
  held : List Bytes
  preamble : Preamble
  symlinks : List (List Char)
  ended : Bool
  /-- What was pushed. -/
  output : Bytes
deriving DecidableEq, Repr

namespace RestoreTarGuard

/-- The guard at the beginning of a stream. -/
def new : RestoreTarGuard := ⟨none, [], 0, [], Preamble.none, [], false, []⟩

/-- The stream is refused. What was buffered or held is never forwarded. -/
def reject (g : RestoreTarGuard) (reason : Rejection) : RestoreTarGuard :=
  { g with rejection := some reason, buffered := [], held := [] }

/-- The first bytes of the buffer pass through to the output. -/
def pass (g : RestoreTarGuard) (length : Nat) : RestoreTarGuard :=
  { g with
    output := g.output ++ g.buffered.take length
    buffered := g.buffered.drop length }

variable (rootName : List Char)

/-- One real entry, with what was held for it: judged first, and only then forwarded together. -/
def admitEntry (g : RestoreTarGuard) (header : Bytes) (rawType : Char) (ownSize : Nat) :
    RestoreTarGuard :=
  match entryOf g.preamble header rawType ownSize with
  | none => g.reject .paxSize
  | some (entry, dataLength) =>
      match problemWith rootName g.symlinks entry with
      | some problem => ({ g with preamble := Preamble.none } : RestoreTarGuard).reject problem
      | none =>
          ({ g with
            preamble := Preamble.none
            symlinks := withSymlink g.symlinks entry
            output := g.output ++ g.held.flatten
            held := []
            dataRemaining := dataLength } : RestoreTarGuard).pass blockSize

/-- One turn of the loop, for one header or a piece of data; none when it returns for want of
bytes. -/
def turn (g : RestoreTarGuard) : Option RestoreTarGuard :=
  if g.rejection.isSome then none
  else if g.ended then
    if g.buffered.isEmpty then none else some (g.pass g.buffered.length)
  else if 0 < g.dataRemaining then
    if g.buffered.isEmpty then none
    else
      let length := min g.dataRemaining g.buffered.length
      some { g.pass length with dataRemaining := g.dataRemaining - length }
  else if g.buffered.length < blockSize then none
  else
    let header := g.buffered.take blockSize
    if header.all (· = 0) then
      if !g.held.isEmpty then some (g.reject .danglingHeader) else some { g with ended := true }
    else if !checksumMatches header then some (g.reject .checksum)
    else
      match readNumber header 124 12 with
      | none => some (g.reject .size)
      | some ownSize =>
          let type := typeOf header
          if type ∈ metaTypes then
            if maxMetaBodyBytes < ownSize then some (g.reject .oversizedHeader)
            else
              let total := blockSize + roundUpToBlock ownSize
              if g.buffered.length < total then none
              else
                match readMetaHeader g.preamble type
                    ((g.buffered.drop blockSize).take ownSize) with
                | none => some (g.reject .malformedPax)
                | some preamble => some { g with
                    preamble := preamble
                    held := g.held ++ [g.buffered.take total]
                    buffered := g.buffered.drop total }
          else if type ∉ acceptedEntryTypes then some (g.reject (.unsupportedType type))
          else some (g.admitEntry rootName header type ownSize)

/-- The loop, for so many turns. It ends early when a turn has nothing to do. -/
def walk : Nat → RestoreTarGuard → RestoreTarGuard
  | 0, g => g
  | turns + 1, g =>
      match g.turn rootName with
      | none => g
      | some next => walk turns next

/-- The turns that the loop takes at most, since every turn takes something off the buffer. -/
def turns (g : RestoreTarGuard) : Nat := g.buffered.length + 3

/-- One chunk of the stream. After the end of the archive everything passes unread, and after a
refusal nothing does. -/
def transform (g : RestoreTarGuard) (chunk : Bytes) : RestoreTarGuard :=
  if g.rejection.isSome then g
  else if g.ended then { g with output := g.output ++ chunk }
  else
    let filled := { g with buffered := g.buffered ++ chunk }
    walk rootName filled.turns filled

/-- The end of the input: a stream that ends inside an entry, or in the middle of a preamble, is
refused. -/
def flush (g : RestoreTarGuard) : RestoreTarGuard :=
  if g.rejection.isNone && !g.ended &&
      (!g.buffered.isEmpty || !g.held.isEmpty || 0 < g.dataRemaining) then
    { g with rejection := some .endsPartway }
  else g

/-- The guard once its input is over, for the chunks that the input came in. -/
def fed (chunks : List Bytes) : RestoreTarGuard :=
  (chunks.foldl (transform rootName) new).flush

end RestoreTarGuard

end RestoreTar

end MailPanel

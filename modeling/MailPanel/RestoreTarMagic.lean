import MailPanel.RestoreCheck

/-
The daemon unpacks a stream that begins like a compressed file before it reads the tar in it.
When the guard forwards such a stream, it has walked other bytes than the daemon reads.
-/

namespace MailPanel

namespace RestoreTar

open ScriptText

/-- What gzip, bzip2, xz and zstd begin with. -/
def magics : List Bytes :=
  [[0x1f, 0x8b, 0x08], [0x42, 0x5a, 0x68], [0xfd, 0x37, 0x7a, 0x58, 0x5a, 0x00],
    [0x28, 0xb5, 0x2f, 0xfd]]

def LooksCompressed (bytes : Bytes) : Prop := ∃ magic ∈ magics, magic <+: bytes

instance (bytes : Bytes) : Decidable (LooksCompressed bytes) :=
  inferInstanceAs (Decidable (∃ magic ∈ magics, magic <+: bytes))

/-- The daemon parses the very bytes that the guard walked. -/
def ReadAsWalked (rootName : List Char) (chunks : List Bytes) : Prop :=
  (RestoreTarGuard.fed rootName chunks).output ≠ [] →
    ¬ LooksCompressed (RestoreTarGuard.fed rootName chunks).output

/-- The stream looks compressed, and its first entry is let through. -/
def Disguised (rootName : List Char) (bytes : Bytes) : Prop :=
  LooksCompressed bytes ∧ (entryHead rootName [] Preamble.none false bytes).isSome = true

section Front

variable {front bytes : Bytes}

theorem LooksCompressed.mono (hlooks : LooksCompressed front) (hfront : front <+: bytes) :
    LooksCompressed bytes := by
  obtain ⟨magic, hmagic, hbegins⟩ := hlooks
  exact ⟨magic, hmagic, hbegins.trans hfront⟩

/-- The first block tells. -/
theorem LooksCompressed.take (hlooks : LooksCompressed bytes) {length : Nat}
    (hlength : blockSize ≤ length) : LooksCompressed (bytes.take length) := by
  have hshort : ∀ magic ∈ magics, magic.length ≤ blockSize := by
    decide
  obtain ⟨magic, hmagic, hbegins⟩ := hlooks
  refine ⟨magic, hmagic, List.prefix_take_iff.mpr ⟨hbegins, ?_⟩⟩
  exact Nat.le_trans (hshort magic hmagic) hlength

theorem LooksCompressed.ne_nil (hlooks : LooksCompressed bytes) : bytes ≠ [] := by
  rintro rfl
  revert hlooks
  decide

/-- The first character of a text that begins with a magic, and its first byte. -/
def magicChars : List Char := ['\x1f', 'B', replacement, '(']

theorem LooksCompressed.head (hlooks : LooksCompressed bytes) :
    ∃ byte rest, bytes = byte :: rest ∧ byte ∈ ([0x1f, 0x42, 0xfd, 0x28] : Bytes) := by
  have hheads : ∀ magic ∈ magics, ∃ byte ∈ ([0x1f, 0x42, 0xfd, 0x28] : Bytes),
      magic.head? = some byte := by
    decide
  obtain ⟨magic, hmagic, later, rfl⟩ := hlooks
  obtain ⟨byte, hbyte, hhead⟩ := hheads magic hmagic
  obtain ⟨rest, rfl⟩ := List.head?_eq_some_iff.mp hhead
  exact ⟨byte, rest ++ later, rfl, hbyte⟩

theorem decodeUtf8_head {byte : UInt8} (hbyte : byte ∈ ([0x1f, 0x42, 0xfd, 0x28] : Bytes))
    (rest : Bytes) : ∃ c ∈ magicChars, ∃ text, decodeUtf8 (byte :: rest) = c :: text := by
  have hlead : ∀ byte ∈ ([0x1f, 0x42, 0xfd, 0x28] : Bytes),
      ∃ c ∈ magicChars, leadByte byte.toNat = ([c], none) := by
    simp only [← List.any_iff_exists_prop, ← List.all_iff_forall_prop]
    decide
  obtain ⟨c, hc, hleads⟩ := hlead byte hbyte
  refine ⟨c, hc, decodeFrom none rest, ?_⟩
  rw [decodeUtf8, decodeFrom, hleads]
  rfl

/-- The first part of a relative path begins as the path does, unless the path begins with a
slash or a dot. -/
theorem components_head {c : Char} {text rootName : List Char} (hslash : c ≠ '/')
    (hdot : c ≠ '.') (hroot : (components (c :: text)).bind List.head? = some rootName) :
    rootName.head? = some c := by
  obtain ⟨parts, hparts, hhead⟩ := Option.bind_eq_some_iff.mp hroot
  rw [components, if_neg (by simpa using hslash)] at hparts
  have hsplit : ∃ part parts, (c :: text).splitOn '/' = (c :: part) :: parts := by
    rw [List.splitOn_cons_eq_if_modifyHead, if_neg (by simpa using hslash)]
    cases hlater : text.splitOn '/' with
    | nil => exact absurd hlater (List.splitOn_ne_nil '/' text)
    | cons part parts => exact ⟨part, parts, rfl⟩
  obtain ⟨part, later, hsplit⟩ := hsplit
  have hkept : (c :: part ≠ [] && c :: part ≠ ['.']) = true := by
    simp [hdot]
  rw [hsplit] at hparts
  simp only [List.filter_cons, hkept, ↓reduceIte] at hparts
  split at hparts
  · cases hparts
  · cases hparts
    cases hhead
    rfl

end Front

section Output

variable {rootName : List Char} {preamble : Preamble} {held : List Bytes}
  {symlinks : List (List Char)} {bytes : Bytes}

/-- Blocks about an entry are not let through without it: a stream that ends with them is
refused. -/
theorem readAll_dangling (hheld : held.isEmpty = false)
    (hhead : entryHead rootName symlinks preamble true bytes = none) :
    (readAll rootName preamble held symlinks bytes).2 ≠ none := by
  induction hlength : bytes.length using Nat.strongRecOn generalizing preamble held bytes with
  | ind length ih =>
      have hpos := blockSize_pos
      have hdangling : (!held.isEmpty) = true := by rw [hheld]; rfl
      cases hread : readBlock rootName preamble (!held.isEmpty) symlinks bytes with
      | waits =>
          rw [readAll_waits hread, hheld]
          simp
      | closing =>
          have hspec := readBlock_spec rootName preamble (!held.isEmpty) symlinks bytes
          rw [hread, hdangling] at hspec
          cases hspec.1
      | refused reason =>
          rw [readAll_refused hread]
          nofun
      | metaHeader next total =>
          obtain ⟨htotal, hle⟩ := readBlock_metaHeader hread
          rw [readAll_metaHeader hread]
          rw [hdangling] at hread
          rw [entryHead_metaHeader hread, Option.map_eq_none_iff] at hhead
          have hrest : (bytes.drop total).length < length := by
            rw [List.length_drop]
            omega
          exact ih _ hrest (by simp) hhead rfl
      | entry entry dataLength =>
          rw [hdangling] at hread
          rw [entryHead_entry hread] at hhead
          cases hhead

/-- Without a first entry, no more passes than nothing or an empty archive. -/
theorem readAll_empty (hhead : entryHead rootName [] Preamble.none false bytes = none) :
    (readAll rootName Preamble.none [] [] bytes).1 = [] ∨
      ∀ byte ∈ bytes.take blockSize, byte = 0 := by
  have hnone : entryHead rootName [] Preamble.none (!([] : List Bytes).isEmpty) bytes = none :=
    hhead
  cases hrejection : (readAll rootName Preamble.none [] [] bytes).2 with
  | some reason => exact Or.inl (readAll_headless hhead hrejection)
  | none =>
      cases hread : readBlock rootName Preamble.none (!([] : List Bytes).isEmpty) [] bytes with
      | waits => exact Or.inl (congrArg Prod.fst (readAll_waits hread))
      | closing =>
          have hspec := readBlock_spec rootName Preamble.none false [] bytes
          rw [show readBlock rootName Preamble.none false [] bytes = .closing from hread] at hspec
          exact Or.inr hspec.2
      | refused reason => exact Or.inl (congrArg Prod.fst (readAll_refused hread))
      | metaHeader next total =>
          rw [readAll_metaHeader hread] at hrejection
          rw [entryHead_metaHeader hread, Option.map_eq_none_iff] at hnone
          exact absurd hrejection (readAll_dangling rfl hnone)
      | entry entry dataLength =>
          rw [entryHead_entry hread] at hnone
          cases hnone

/-- With a first entry, the first block passes. -/
theorem readAll_front {head : EntryHead}
    (hhead : entryHead rootName [] Preamble.none false bytes = some head) :
    bytes.take head.headLength <+: (readAll rootName Preamble.none [] [] bytes).1 ∧
      blockSize ≤ head.headLength := by
  have hfirst : entryHead rootName [] Preamble.none (!([] : List Bytes).isEmpty) bytes =
      some head := hhead
  obtain ⟨hlong, hread⟩ := readAll_head hfirst
  refine ⟨?_, hlong⟩
  rw [hread, List.flatten_nil, List.nil_append]
  split
  · exact List.take_prefix _ _
  · dsimp only
    rw [List.nil_append]
    refine List.IsPrefix.trans ?_ (List.prefix_append _ _)
    exact List.take_prefix_take_left (Nat.le_add_right _ _)

/-- How a stream with such a beginning can have a first entry that is let through: the name
field of its first block is not what the guard looks at, or the root has such a name. -/
theorem Disguised.kinds (hdisguised : Disguised rootName bytes) :
    typeOf (bytes.take blockSize) ∈ metaTypes ∨
      headerName (bytes.take blockSize) ≠ readString (bytes.take blockSize) 0 100 ∨
      ∃ c ∈ magicChars, rootName.head? = some c := by
  obtain ⟨hlooks, hsome⟩ := hdisguised
  obtain ⟨head, hhead⟩ := Option.isSome_iff_exists.mp hsome
  have hspec := readBlock_spec rootName Preamble.none false [] bytes
  cases hread : readBlock rootName Preamble.none false [] bytes with
  | waits =>
      rw [entryHead_none (by rw [hread]; nofun) (by rw [hread]; nofun)] at hhead
      cases hhead
  | closing =>
      rw [entryHead_none (by rw [hread]; nofun) (by rw [hread]; nofun)] at hhead
      cases hhead
  | refused reason =>
      rw [entryHead_none (by rw [hread]; nofun) (by rw [hread]; nofun)] at hhead
      cases hhead
  | metaHeader next total =>
      rw [hread] at hspec
      exact Or.inl hspec.1
  | entry entry dataLength =>
      rw [hread] at hspec
      obtain ⟨-, ⟨ownSize, hentry⟩, hproblem⟩ := hspec
      refine Or.inr ?_
      by_cases hname : headerName (bytes.take blockSize) = readString (bytes.take blockSize) 0 100
      · refine Or.inr ?_
        have hroot := (problemWith_eq_none_iff.mp hproblem).1.1
        have hentryName : entry.name = readString (bytes.take blockSize) 0 100 := by
          rw [← hname]
          rw [entryOf] at hentry
          obtain ⟨size, -, heq⟩ := Option.map_eq_some_iff.mp hentry
          rw [← (Prod.mk.inj heq).1]
          rfl
        obtain ⟨byte, rest, hbytes, hbyte⟩ := (hlooks.take (Nat.le_refl blockSize)).head
        have hfield : ∃ rest', (field (bytes.take blockSize) 0 100).takeWhile (· ≠ 0) =
            byte :: rest' := by
          have hnonzero : ∀ byte ∈ ([0x1f, 0x42, 0xfd, 0x28] : Bytes), byte ≠ 0 :=
            List.all_iff_forall_prop.mp (by decide)
          refine ⟨(rest.take 99).takeWhile (· ≠ 0), ?_⟩
          rw [field, hbytes, List.drop_zero, List.take_succ_cons, List.takeWhile_cons,
            if_pos (by simpa using hnonzero byte hbyte)]
        obtain ⟨rest', hfield⟩ := hfield
        obtain ⟨c, hc, text, htext⟩ := decodeUtf8_head hbyte rest'
        have hplain : ∀ c ∈ magicChars, c ≠ '/' ∧ c ≠ '.' :=
          List.all_iff_forall_prop.mp (by decide)
        rw [hentryName, readString, hfield, htext] at hroot
        exact ⟨c, hc, components_head (hplain c hc).1 (hplain c hc).2 hroot⟩
      · exact Or.inl hname

/-- The daemon reads what the guard walked, unless the stream looks compressed and its first
entry is let through; which takes a first block whose name field the guard does not look at, or
a root of such a name. The daemon decides by the first bytes of a stream whether to decompress
it. -/
theorem readAsWalked_iff (rootName : List Char) (chunks : List Bytes) :
    (ReadAsWalked rootName chunks ↔ ¬ Disguised rootName chunks.flatten) ∧
      (Disguised rootName chunks.flatten →
        typeOf (chunks.flatten.take blockSize) ∈ metaTypes ∨
          headerName (chunks.flatten.take blockSize) ≠
            readString (chunks.flatten.take blockSize) 0 100 ∨
          ∃ c ∈ magicChars, rootName.head? = some c) := by
  refine ⟨?_, Disguised.kinds⟩
  have houtput : (RestoreTarGuard.fed rootName chunks).output =
      (readAll rootName Preamble.none [] [] chunks.flatten).1 :=
    congrArg Prod.fst (RestoreTarGuard.fed_outcome rootName chunks)
  rw [ReadAsWalked, houtput]
  constructor
  · rintro hwalked ⟨hlooks, hsome⟩
    obtain ⟨head, hhead⟩ := Option.isSome_iff_exists.mp hsome
    obtain ⟨hfront, hlong⟩ := readAll_front hhead
    have hcompressed := (hlooks.take hlong).mono hfront
    exact hwalked hcompressed.ne_nil hcompressed
  · intro hplain hne hlooks
    have hbegins : (readAll rootName Preamble.none [] [] chunks.flatten).1 <+:
        ([] : List Bytes).flatten ++ chunks.flatten := readAll_begins.1
    have hwhole : LooksCompressed chunks.flatten := hlooks.mono hbegins
    cases hhead : entryHead rootName [] Preamble.none false chunks.flatten with
    | some head => exact hplain ⟨hwhole, by rw [hhead]; rfl⟩
    | none =>
        rcases readAll_empty hhead with hnil | hzeros
        · exact hne hnil
        · obtain ⟨byte, rest, hbytes, hbyte⟩ := (hwhole.take (Nat.le_refl blockSize)).head
          have hnonzero : ∀ byte ∈ ([0x1f, 0x42, 0xfd, 0x28] : Bytes), byte ≠ 0 :=
            List.all_iff_forall_prop.mp (by decide)
          apply hnonzero byte hbyte
          apply hzeros
          rw [hbytes]
          exact List.mem_cons_self

end Output

namespace NamedHeader

/-- A record block that is named like a compressed file, then the root of the volume. -/
def stream : List Bytes :=
  [Written.headerOf "BZh91AY" 'x' "", Written.headerOf "mail/" '5' "",
    Written.closing]

/-- A block of records that is named like a compressed file, and then the root of the volume:
nobody looks at the name field of the first block, the guard forwards the whole, and the daemon
takes it for compressed. -/
theorem named_forwarded :
    (RestoreTarGuard.fed "mail".toList stream).rejection = none ∧
      LooksCompressed (RestoreTarGuard.fed "mail".toList stream).output ∧
      ¬ ReadAsWalked "mail".toList stream := by
  have hforwarded : (RestoreTarGuard.fed "mail".toList stream).rejection = none ∧
      LooksCompressed (RestoreTarGuard.fed "mail".toList stream).output := by
    decide +kernel
  exact ⟨hforwarded.1, hforwarded.2, fun hwalked => hwalked hforwarded.2.ne_nil hforwarded.2⟩

end NamedHeader

end RestoreTar

end MailPanel

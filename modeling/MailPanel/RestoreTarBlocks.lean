import MailPanel.RestoreTarGuard

/-
One turn of the guard's loop, said once: what the block at the front of the buffer reads as,
and what the guard does with it.
-/

namespace MailPanel

namespace RestoreTar

open ScriptText

/-- What the bytes at the front read as, between two entries. The loop does one thing for each
of the cases, and waits for more bytes where there are too few to tell. -/
inductive BlockReading where
  /-- Not enough of them. -/
  | waits
  /-- The end of the archive. -/
  | closing
  | refused (reason : Rejection)
  /-- A block about the next entry, of so many bytes with its body. -/
  | metaHeader (preamble : Preamble) (total : Nat)
  /-- An entry that is let through, with so many bytes of data after its header. -/
  | entry (entry : TarEntry) (dataLength : Nat)
deriving DecidableEq, Repr

/-- What the front of the buffer reads as. `dangling` says that blocks about the next entry came
before, in which case an end of the archive is refused. -/
def readBlock (rootName : List Char) (preamble : Preamble) (dangling : Bool)
    (symlinks : List (List Char)) (bytes : Bytes) : BlockReading :=
  if bytes.length < blockSize then .waits
  else
    let header := bytes.take blockSize
    if header.all (· = 0) then if dangling then .refused .danglingHeader else .closing
    else if !checksumMatches header then .refused .checksum
    else
      match readNumber header 124 12 with
      | none => .refused .size
      | some ownSize =>
          if typeOf header ∈ metaTypes then
            if maxMetaBodyBytes < ownSize then .refused .oversizedHeader
            else if bytes.length < blockSize + roundUpToBlock ownSize then .waits
            else
              match readMetaHeader preamble (typeOf header)
                  ((bytes.drop blockSize).take ownSize) with
              | none => .refused .malformedPax
              | some preamble => .metaHeader preamble (blockSize + roundUpToBlock ownSize)
          else if typeOf header ∉ acceptedEntryTypes then
            .refused (.unsupportedType (typeOf header))
          else
            match entryOf preamble header (typeOf header) ownSize with
            | none => .refused .paxSize
            | some (entry, dataLength) =>
                match problemWith rootName symlinks entry with
                | some problem => .refused problem
                | none => .entry entry dataLength

theorem blockSize_pos : 0 < blockSize := by decide

theorem le_roundUpToBlock (size : Nat) : size ≤ roundUpToBlock size := by
  simp only [roundUpToBlock, blockSize]
  omega

section Reading

variable {rootName : List Char} {preamble : Preamble} {dangling : Bool}
  {symlinks : List (List Char)} {bytes : Bytes}

/-- What was read does not depend on the bytes behind it, unless it was a wait for more. It is
why the guard does the same however the stream is cut. -/
theorem readBlock_append (hread : readBlock rootName preamble dangling symlinks bytes ≠ .waits)
    (rest : Bytes) :
    readBlock rootName preamble dangling symlinks (bytes ++ rest) =
      readBlock rootName preamble dangling symlinks bytes := by
  rw [readBlock] at hread
  split at hread
  · exact absurd rfl hread
  rename_i hlong
  have hshort : ¬ (bytes ++ rest).length < blockSize := by
    rw [List.length_append]
    omega
  have htake : (bytes ++ rest).take blockSize = bytes.take blockSize :=
    List.take_append_of_le_length (Nat.not_lt.mp hlong)
  rw [readBlock, readBlock, if_neg hlong, if_neg hshort, htake]
  dsimp only at hread ⊢
  split
  · rfl
  rename_i hzero
  rw [if_neg hzero] at hread
  split
  · rfl
  rename_i hchecksum
  rw [if_neg hchecksum] at hread
  cases hsize : readNumber (bytes.take blockSize) 124 12 with
  | none => rfl
  | some ownSize =>
      rw [hsize] at hread
      dsimp only at hread ⊢
      split
      · rename_i hmeta
        rw [if_pos hmeta] at hread
        split
        · rfl
        rename_i hover
        rw [if_neg hover] at hread
        split at hread
        · exact absurd rfl hread
        rename_i htotal
        have htotal' : ¬ (bytes ++ rest).length < blockSize + roundUpToBlock ownSize := by
          rw [List.length_append]
          omega
        have hbody : ((bytes ++ rest).drop blockSize).take ownSize =
            (bytes.drop blockSize).take ownSize := by
          rw [List.drop_append_of_le_length (Nat.not_lt.mp hlong),
            List.take_append_of_le_length]
          have hle := le_roundUpToBlock ownSize
          rw [List.length_drop]
          omega
        rw [if_neg htotal', if_neg htotal, hbody]
      · rfl

/-- What is known of each reading: how many bytes it takes, and that they are there. The guard
never drops a byte that it has not got. -/
theorem readBlock_spec (rootName : List Char) (preamble : Preamble) (dangling : Bool)
    (symlinks : List (List Char)) (bytes : Bytes) :
    match readBlock rootName preamble dangling symlinks bytes with
    | .waits | .refused _ => True
    | .closing => dangling = false ∧ ∀ byte ∈ bytes.take blockSize, byte = 0
    | .metaHeader _ total => typeOf (bytes.take blockSize) ∈ metaTypes ∧
        blockSize ≤ total ∧ total ≤ bytes.length
    | .entry entry dataLength => typeOf (bytes.take blockSize) ∉ metaTypes ∧
        (∃ ownSize, entryOf preamble (bytes.take blockSize) (typeOf (bytes.take blockSize))
          ownSize = some (entry, dataLength)) ∧
        problemWith rootName symlinks entry = none := by
  rw [readBlock]
  by_cases hshort : bytes.length < blockSize
  · rw [if_pos hshort]
    trivial
  rw [if_neg hshort]
  dsimp only
  by_cases hzero : (bytes.take blockSize).all (· = 0) = true
  · rw [if_pos hzero]
    by_cases hdangling : dangling = true
    · rw [if_pos hdangling]
      trivial
    · rw [if_neg hdangling]
      exact ⟨(Bool.not_eq_true dangling).mp hdangling, by simpa using hzero⟩
  rw [if_neg hzero]
  by_cases hchecksum : (!checksumMatches (bytes.take blockSize)) = true
  · rw [if_pos hchecksum]
    trivial
  rw [if_neg hchecksum]
  cases hsize : readNumber (bytes.take blockSize) 124 12 with
  | none => trivial
  | some ownSize =>
      dsimp only
      by_cases hmeta : typeOf (bytes.take blockSize) ∈ metaTypes
      · rw [if_pos hmeta]
        by_cases hover : maxMetaBodyBytes < ownSize
        · rw [if_pos hover]
          trivial
        rw [if_neg hover]
        by_cases htotal : bytes.length < blockSize + roundUpToBlock ownSize
        · rw [if_pos htotal]
          trivial
        rw [if_neg htotal]
        cases readMetaHeader preamble (typeOf (bytes.take blockSize))
            ((bytes.drop blockSize).take ownSize) with
        | none => trivial
        | some next => exact ⟨hmeta, Nat.le_add_right _ _, Nat.not_lt.mp htotal⟩
      · rw [if_neg hmeta]
        by_cases htype : typeOf (bytes.take blockSize) ∉ acceptedEntryTypes
        · rw [if_pos htype]
          trivial
        rw [if_neg htype]
        cases hentry : entryOf preamble (bytes.take blockSize)
            (typeOf (bytes.take blockSize)) ownSize with
        | none => trivial
        | some found =>
            dsimp only
            cases hproblem : problemWith rootName symlinks found.1 with
            | some problem => trivial
            | none => exact ⟨hmeta, ⟨ownSize, hentry⟩, hproblem⟩

/-- A block about an entry lies within the bytes. -/
theorem readBlock_metaHeader {next : Preamble} {total : Nat}
    (hread : readBlock rootName preamble dangling symlinks bytes = .metaHeader next total) :
    blockSize ≤ total ∧ total ≤ bytes.length := by
  have hspec := readBlock_spec rootName preamble dangling symlinks bytes
  rw [hread] at hspec
  exact hspec.2

theorem readBlock_long
    (hread : readBlock rootName preamble dangling symlinks bytes ≠ .waits) :
    blockSize ≤ bytes.length := by
  by_contra hshort
  rw [readBlock, if_pos (Nat.not_le.mp hshort)] at hread
  exact hread rfl

end Reading

namespace RestoreTarGuard

variable {rootName : List Char} {g next : RestoreTarGuard}

/-- What the guard reads at the front of its buffer. -/
def reading (rootName : List Char) (g : RestoreTarGuard) : BlockReading :=
  readBlock rootName g.preamble (!g.held.isEmpty) g.symlinks g.buffered

/-- What one turn of the loop does, one case for each. The turn lemma derives it from the code
once, and every invariant of the guard is a case analysis of it. -/
inductive Turned (rootName : List Char) (g : RestoreTarGuard) : RestoreTarGuard → Prop where
  /-- After the end of the archive. -/
  | passed (ended : g.ended = true) (some : g.buffered ≠ []) :
      Turned rootName g (g.pass g.buffered.length)
  | data (ended : g.ended = false) (remaining : 0 < g.dataRemaining) (some : g.buffered ≠ []) :
      Turned rootName g
        { g.pass (min g.dataRemaining g.buffered.length) with
          dataRemaining := g.dataRemaining - min g.dataRemaining g.buffered.length }
  | closing (ended : g.ended = false) (remaining : g.dataRemaining = 0)
      (read : g.reading rootName = .closing) : Turned rootName g { g with ended := true }
  | refused (reason : Rejection) (preamble : Preamble) (ended : g.ended = false)
      (remaining : g.dataRemaining = 0) (read : g.reading rootName = .refused reason) :
      Turned rootName g (({ g with preamble := preamble } : RestoreTarGuard).reject reason)
  | metaHeader (preamble : Preamble) (total : Nat) (ended : g.ended = false)
      (remaining : g.dataRemaining = 0) (read : g.reading rootName = .metaHeader preamble total) :
      Turned rootName g { g with
        preamble := preamble
        held := g.held ++ [g.buffered.take total]
        buffered := g.buffered.drop total }
  | entry (entry : TarEntry) (dataLength : Nat) (ended : g.ended = false)
      (remaining : g.dataRemaining = 0) (read : g.reading rootName = .entry entry dataLength) :
      Turned rootName g (({ g with
        preamble := Preamble.none
        symlinks := withSymlink g.symlinks entry
        output := g.output ++ g.held.flatten
        held := []
        dataRemaining := dataLength } : RestoreTarGuard).pass blockSize)

theorem turn_turned (hturn : g.turn rootName = some next) :
    g.rejection = none ∧ Turned rootName g next := by
  rw [turn] at hturn
  by_cases hrejection : g.rejection.isSome = true
  · rw [if_pos hrejection] at hturn
    cases hturn
  rw [if_neg hrejection] at hturn
  refine ⟨by simpa using hrejection, ?_⟩
  by_cases hended : g.ended = true
  · rw [if_pos hended] at hturn
    split at hturn
    · cases hturn
    · rename_i hbuffered
      cases hturn
      exact .passed hended (by simpa using hbuffered)
  rw [if_neg hended] at hturn
  have hended : g.ended = false := (Bool.not_eq_true g.ended).mp hended
  by_cases hdata : 0 < g.dataRemaining
  · rw [if_pos hdata] at hturn
    split at hturn
    · cases hturn
    · rename_i hbuffered
      cases hturn
      exact .data hended hdata (by simpa using hbuffered)
  rw [if_neg hdata] at hturn
  have hdata : g.dataRemaining = 0 := by omega
  by_cases hlong : g.buffered.length < blockSize
  · rw [if_pos hlong] at hturn
    cases hturn
  rw [if_neg hlong] at hturn
  have hread : g.reading rootName =
      readBlock rootName g.preamble (!g.held.isEmpty) g.symlinks g.buffered := rfl
  rw [readBlock, if_neg hlong] at hread
  dsimp only at hturn hread
  by_cases hzero : (g.buffered.take blockSize).all (· = 0) = true
  · rw [if_pos hzero] at hread hturn
    split at hturn
    · rename_i hheld
      rw [if_pos hheld] at hread
      cases hturn
      exact .refused .danglingHeader g.preamble hended hdata hread
    · rename_i hheld
      rw [if_neg hheld] at hread
      cases hturn
      exact .closing hended hdata hread
  rw [if_neg hzero] at hread hturn
  by_cases hchecksum : (!checksumMatches (g.buffered.take blockSize)) = true
  · rw [if_pos hchecksum] at hread hturn
    cases hturn
    exact .refused .checksum g.preamble hended hdata hread
  rw [if_neg hchecksum] at hread hturn
  split at hturn
  · rename_i hsize
    simp only [hsize] at hread
    cases hturn
    exact .refused .size g.preamble hended hdata hread
  rename_i ownSize hsize
  simp only [hsize] at hread
  split at hturn
  · rename_i hmeta
    rw [if_pos hmeta] at hread
    split at hturn
    · rename_i hover
      rw [if_pos hover] at hread
      cases hturn
      exact .refused .oversizedHeader g.preamble hended hdata hread
    rename_i hover
    rw [if_neg hover] at hread
    split at hturn
    · cases hturn
    rename_i htotal
    rw [if_neg htotal] at hread
    split at hturn
    · rename_i hmalformed
      simp only [hmalformed] at hread
      cases hturn
      exact .refused .malformedPax g.preamble hended hdata hread
    · rename_i preamble hpreamble
      simp only [hpreamble] at hread
      cases hturn
      exact .metaHeader preamble _ hended hdata hread
  rename_i hmeta
  rw [if_neg hmeta] at hread
  split at hturn
  · rename_i htype
    rw [if_pos htype] at hread
    cases hturn
    exact .refused (.unsupportedType _) g.preamble hended hdata hread
  rename_i htype
  rw [if_neg htype] at hread
  cases hturn
  rw [admitEntry]
  split
  · rename_i hentry
    simp only [hentry] at hread
    exact .refused .paxSize g.preamble hended hdata hread
  rename_i entry dataLength hentry
  simp only [hentry] at hread
  split
  · rename_i problem hproblem
    simp only [hproblem] at hread
    exact .refused problem Preamble.none hended hdata hread
  · rename_i hproblem
    simp only [hproblem] at hread
    exact .entry entry dataLength hended hdata hread

/-- When the guard waits for more: it has refused, has passed the end, has data to pass and none
at hand, or too few bytes for a block. -/
theorem turn_eq_none (hturn : g.turn rootName = none) :
    g.rejection.isSome = true ∨ (g.ended = true ∧ g.buffered = []) ∨
      (g.ended = false ∧ 0 < g.dataRemaining ∧ g.buffered = []) ∨
      (g.ended = false ∧ g.dataRemaining = 0 ∧ g.reading rootName = .waits) := by
  rw [turn] at hturn
  by_cases hrejection : g.rejection.isSome = true
  · exact Or.inl hrejection
  rw [if_neg hrejection] at hturn
  refine Or.inr ?_
  by_cases hended : g.ended = true
  · rw [if_pos hended] at hturn
    split at hturn
    · rename_i hbuffered
      exact Or.inl ⟨hended, List.isEmpty_iff.mp hbuffered⟩
    · cases hturn
  rw [if_neg hended] at hturn
  have hended : g.ended = false := (Bool.not_eq_true g.ended).mp hended
  refine Or.inr ?_
  by_cases hdata : 0 < g.dataRemaining
  · rw [if_pos hdata] at hturn
    split at hturn
    · rename_i hbuffered
      exact Or.inl ⟨hended, hdata, List.isEmpty_iff.mp hbuffered⟩
    · cases hturn
  rw [if_neg hdata] at hturn
  refine Or.inr ⟨hended, by omega, ?_⟩
  rw [reading, readBlock]
  by_cases hlong : g.buffered.length < blockSize
  · rw [if_pos hlong]
  rw [if_neg hlong] at hturn ⊢
  dsimp only at hturn ⊢
  by_cases hzero : (g.buffered.take blockSize).all (· = 0) = true
  · rw [if_pos hzero] at hturn
    split at hturn
    · cases hturn
    · cases hturn
  rw [if_neg hzero] at hturn ⊢
  by_cases hchecksum : (!checksumMatches (g.buffered.take blockSize)) = true
  · rw [if_pos hchecksum] at hturn
    cases hturn
  rw [if_neg hchecksum] at hturn ⊢
  cases hsize : readNumber (g.buffered.take blockSize) 124 12 with
  | none =>
      rw [hsize] at hturn
      cases hturn
  | some ownSize =>
      rw [hsize] at hturn
      dsimp only at hturn ⊢
      split at hturn
      · rename_i hmeta
        rw [if_pos hmeta]
        split at hturn
        · cases hturn
        rename_i hover
        rw [if_neg hover]
        split at hturn
        · rename_i htotal
          rw [if_pos htotal]
        · split at hturn
          · cases hturn
          · cases hturn
      · split at hturn
        · cases hturn
        · cases hturn

end RestoreTarGuard

end RestoreTar

end MailPanel

import MailPanel.RestoreTarOutcome

/-
A tar read as a whole, and the guard read against it: whatever the chunks, the guard
rejects nothing exactly when the whole stream reads as entries that it permits.
-/

namespace MailPanel

namespace RestoreTar

open ScriptText

/-- The entries of a tar; none where it does not read as one.  `dangling` says that blocks
about the next entry came before. -/
def readEntries (preamble : Preamble) (dangling : Bool) (bytes : Bytes) :
    Option (List TarEntry) :=
  if bytes.isEmpty then if dangling then none else some []
  else if _hshort : bytes.length < blockSize then none
  else
    let header := bytes.take blockSize
    if header.all (· = 0) then if dangling then none else some []
    else if !checksumMatches header then none
    else
      match readNumber header 124 12 with
      | none => none
      | some ownSize =>
          if typeOf header ∈ metaTypes then
            if maxMetaBodyBytes < ownSize ∨ bytes.length < blockSize + roundUpToBlock ownSize then
              none
            else
              match readMetaHeader preamble (typeOf header)
                  ((bytes.drop blockSize).take ownSize) with
              | none => none
              | some preamble =>
                  readEntries preamble true (bytes.drop (blockSize + roundUpToBlock ownSize))
          else if typeOf header ∉ acceptedEntryTypes then none
          else
            match entryOf preamble header (typeOf header) ownSize with
            | none => none
            | some (entry, dataLength) =>
                if bytes.length < blockSize + dataLength then none
                else
                  (readEntries Preamble.none false (bytes.drop (blockSize + dataLength))).map
                    fun entries => entry :: entries
termination_by bytes.length
decreasing_by
  · rw [List.length_drop]
    have : 0 < blockSize := by decide
    omega
  · rw [List.length_drop]
    have : 0 < blockSize := by decide
    omega

/-- No entry meets a problem, with the symlinks of those before it. -/
def Permitted (rootName : List Char) : List (List Char) → List TarEntry → Prop
  | _, [] => True
  | symlinks, entry :: entries =>
      problemWith rootName symlinks entry = none ∧
        Permitted rootName (withSymlink symlinks entry) entries

section Permitted

variable {rootName : List Char} {preamble : Preamble} {dangling : Bool} {held : List Bytes}
  {symlinks : List (List Char)} {bytes : Bytes}

/-- The bytes read as entries that are all permitted. -/
def ReadsPermitted (rootName : List Char) (preamble : Preamble) (dangling : Bool)
    (symlinks : List (List Char)) (bytes : Bytes) : Prop :=
  ∃ entries, readEntries preamble dangling bytes = some entries ∧
    Permitted rootName symlinks entries

/-- Block by block: what may follow depends on the block at the front, and on whether blocks
about an entry have come before. -/
theorem readsPermitted_iff :
    ReadsPermitted rootName preamble dangling symlinks bytes ↔
      match readBlock rootName preamble dangling symlinks bytes with
      | .waits => bytes = [] ∧ dangling = false
      | .closing => True
      | .refused _ => False
      | .metaHeader next total => ReadsPermitted rootName next true symlinks (bytes.drop total)
      | .entry entry dataLength => blockSize + dataLength ≤ bytes.length ∧
          ReadsPermitted rootName Preamble.none false (withSymlink symlinks entry)
            (bytes.drop (blockSize + dataLength)) := by
  have hpos := blockSize_pos
  rw [ReadsPermitted, readEntries, readBlock]
  by_cases hempty : bytes = []
  · rw [hempty]
    cases dangling with
    | true => simp [hpos]
    | false => simp [hpos, Permitted]
  rw [if_neg (by simpa using hempty)]
  by_cases hshort : bytes.length < blockSize
  · simp [hshort, hempty]
  rw [dif_neg hshort, if_neg hshort]
  dsimp only
  by_cases hzero : (bytes.take blockSize).all (· = 0) = true
  · rw [if_pos hzero, if_pos hzero]
    cases dangling with
    | true => simp
    | false => simp [Permitted]
  rw [if_neg hzero, if_neg hzero]
  by_cases hchecksum : (!checksumMatches (bytes.take blockSize)) = true
  · simp [hchecksum]
  rw [if_neg hchecksum, if_neg hchecksum]
  cases hsize : readNumber (bytes.take blockSize) 124 12 with
  | none => simp
  | some ownSize =>
      dsimp only
      by_cases hmeta : typeOf (bytes.take blockSize) ∈ metaTypes
      · rw [if_pos hmeta, if_pos hmeta]
        by_cases hover : maxMetaBodyBytes < ownSize
        · simp [hover]
        by_cases htotal : bytes.length < blockSize + roundUpToBlock ownSize
        · simp [hover, htotal, hempty]
        rw [if_neg (by tauto), if_neg hover, if_neg htotal]
        cases hpreamble : readMetaHeader preamble (typeOf (bytes.take blockSize))
            ((bytes.drop blockSize).take ownSize) with
        | none => simp
        | some next => rfl
      · rw [if_neg hmeta, if_neg hmeta]
        by_cases htype : typeOf (bytes.take blockSize) ∉ acceptedEntryTypes
        · simp [htype]
        rw [if_neg htype, if_neg htype]
        cases hentry : entryOf preamble (bytes.take blockSize)
            (typeOf (bytes.take blockSize)) ownSize with
        | none => simp
        | some found =>
            obtain ⟨entry, dataLength⟩ := found
            dsimp only
            by_cases hdata : bytes.length < blockSize + dataLength
            · rw [if_pos hdata]
              cases hproblem : problemWith rootName symlinks entry with
              | some problem => simp
              | none => simp [Nat.not_le.mpr hdata]
            rw [if_neg hdata]
            have hcons : (∃ entries, ((readEntries Preamble.none false
                  (bytes.drop (blockSize + dataLength))).map fun entries => entry :: entries) =
                    some entries ∧ Permitted rootName symlinks entries) ↔
                problemWith rootName symlinks entry = none ∧
                  ReadsPermitted rootName Preamble.none false (withSymlink symlinks entry)
                    (bytes.drop (blockSize + dataLength)) := by
              constructor
              · rintro ⟨entries, hentries, hpermitted⟩
                obtain ⟨later, hlater, rfl⟩ := Option.map_eq_some_iff.mp hentries
                exact ⟨hpermitted.1, later, hlater, hpermitted.2⟩
              · rintro ⟨hproblem, later, hlater, hpermitted⟩
                exact ⟨entry :: later, Option.map_eq_some_iff.mpr ⟨later, hlater, rfl⟩,
                  hproblem, hpermitted⟩
            rw [hcons]
            cases hproblem : problemWith rootName symlinks entry with
            | some problem => simp
            | none => simp [Nat.not_lt.mp hdata]

/-- The guard rejects nothing of what reads as permitted entries, and something of the rest. -/
theorem readAll_none_iff :
    (readAll rootName preamble held symlinks bytes).2 = none ↔
      ReadsPermitted rootName preamble (!held.isEmpty) symlinks bytes := by
  induction hlength : bytes.length using Nat.strongRecOn
    generalizing preamble held symlinks bytes with
  | ind length ih =>
      have hpos := blockSize_pos
      rw [readsPermitted_iff]
      cases hread : readBlock rootName preamble (!held.isEmpty) symlinks bytes with
      | waits =>
          rw [readAll_waits hread]
          simp
      | closing =>
          rw [readAll_closing hread]
          exact iff_of_true rfl trivial
      | refused reason =>
          rw [readAll_refused hread]
          exact iff_of_false nofun id
      | metaHeader next total =>
          obtain ⟨htotal, hle⟩ := readBlock_metaHeader hread
          have hrest : (bytes.drop total).length < length := by
            rw [List.length_drop]
            omega
          have hdangling : (!(held ++ [bytes.take total]).isEmpty) = true := by
            simp
          rw [readAll_metaHeader hread, ih _ hrest rfl, hdangling]
      | entry entry dataLength =>
          have hlong : blockSize ≤ bytes.length := readBlock_long (by rw [hread]; nofun)
          have hrest : (bytes.drop (blockSize + dataLength)).length < length := by
            rw [List.length_drop]
            omega
          rw [readAll_entry hread]
          dsimp only
          split
          · rename_i hshort
            refine iff_of_false nofun ?_
            rintro ⟨hle, -⟩
            omega
          · rename_i hlong'
            rw [and_iff_right (Nat.not_lt.mp hlong')]
            exact ih _ hrest rfl

/-- Whatever the chunks, the guard rejects nothing exactly when the stream reads as entries that
it permits. -/
theorem RestoreTarGuard.fed_iff (rootName : List Char) (chunks : List Bytes) :
    (fed rootName chunks).rejection = none ↔
      ∃ entries, readEntries Preamble.none false chunks.flatten = some entries ∧
        Permitted rootName [] entries := by
  have hrejection : (fed rootName chunks).rejection =
      (readAll rootName Preamble.none [] [] chunks.flatten).2 :=
    congrArg Prod.snd (fed_outcome rootName chunks)
  rw [hrejection]
  exact readAll_none_iff

end Permitted

end RestoreTar

end MailPanel

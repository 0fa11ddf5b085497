import Mathlib.Logic.Relation
import MailPanel.RestoreTarBlocks

/-
What the guard makes of a stream as a whole: the bytes that it lets through, and why it cuts
the stream short.  The chunks that the stream comes in make no difference.
-/

namespace MailPanel

namespace RestoreTar

/-- The bytes that pass, with what is held for the next entry, and the rejection. -/
def readAll (rootName : List Char) (preamble : Preamble) (held : List Bytes)
    (symlinks : List (List Char)) (bytes : Bytes) : Bytes × Option Rejection :=
  match _hread : readBlock rootName preamble (!held.isEmpty) symlinks bytes with
  | .waits => ([], if bytes.isEmpty && held.isEmpty then none else some .endsPartway)
  | .closing => (bytes, none)
  | .refused reason => ([], some reason)
  | .metaHeader next total =>
      readAll rootName next (held ++ [bytes.take total]) symlinks (bytes.drop total)
  | .entry entry dataLength =>
      if bytes.length < blockSize + dataLength then
        (held.flatten ++ bytes, some .endsPartway)
      else
        let later := readAll rootName Preamble.none [] (withSymlink symlinks entry)
          (bytes.drop (blockSize + dataLength))
        (held.flatten ++ bytes.take (blockSize + dataLength) ++ later.1, later.2)
termination_by bytes.length
decreasing_by
  · obtain ⟨htotal, hlength⟩ := readBlock_metaHeader _hread
    have hpos := blockSize_pos
    rw [List.length_drop]
    omega
  · have _hlong : blockSize ≤ bytes.length := readBlock_long (by rw [_hread]; nofun)
    have hpos := blockSize_pos
    rw [List.length_drop]
    omega

section ReadAll

variable {rootName : List Char} {preamble : Preamble} {held : List Bytes}
  {symlinks : List (List Char)} {bytes : Bytes}

theorem readAll_waits
    (hread : readBlock rootName preamble (!held.isEmpty) symlinks bytes = .waits) :
    readAll rootName preamble held symlinks bytes =
      ([], if bytes.isEmpty && held.isEmpty then none else some .endsPartway) := by
  rw [readAll]
  split
  · rfl
  all_goals
    rename_i hother
    rw [hread] at hother
    cases hother

theorem readAll_closing
    (hread : readBlock rootName preamble (!held.isEmpty) symlinks bytes = .closing) :
    readAll rootName preamble held symlinks bytes = (bytes, none) := by
  rw [readAll]
  split
  · rename_i hother
    rw [hread] at hother
    cases hother
  · rfl
  all_goals
    rename_i hother
    rw [hread] at hother
    cases hother

theorem readAll_refused {reason : Rejection}
    (hread : readBlock rootName preamble (!held.isEmpty) symlinks bytes = .refused reason) :
    readAll rootName preamble held symlinks bytes = ([], some reason) := by
  rw [readAll]
  split
  all_goals
    rename_i hother
    rw [hread] at hother
    cases hother
  rfl

theorem readAll_metaHeader {next : Preamble} {total : Nat}
    (hread : readBlock rootName preamble (!held.isEmpty) symlinks bytes =
      .metaHeader next total) :
    readAll rootName preamble held symlinks bytes =
      readAll rootName next (held ++ [bytes.take total]) symlinks (bytes.drop total) := by
  rw [readAll]
  split
  all_goals
    rename_i hother
    rw [hread] at hother
    cases hother
  rfl

theorem readAll_entry {entry : TarEntry} {dataLength : Nat}
    (hread : readBlock rootName preamble (!held.isEmpty) symlinks bytes =
      .entry entry dataLength) :
    readAll rootName preamble held symlinks bytes =
      if bytes.length < blockSize + dataLength then (held.flatten ++ bytes, some .endsPartway)
      else
        let later := readAll rootName Preamble.none [] (withSymlink symlinks entry)
          (bytes.drop (blockSize + dataLength))
        (held.flatten ++ bytes.take (blockSize + dataLength) ++ later.1, later.2) := by
  rw [readAll]
  split
  all_goals
    rename_i hother
    rw [hread] at hother
    cases hother
  rfl

end ReadAll

namespace RestoreTarGuard

variable {rootName : List Char} {g next : RestoreTarGuard}

/-- What a turn makes less. -/
def measure (g : RestoreTarGuard) : Nat :=
  g.buffered.length + if g.rejection.isSome then 0 else if g.ended then 1 else 2

theorem measure_lt (hturn : g.turn rootName = some next) : next.measure < g.measure := by
  have hpos := blockSize_pos
  obtain ⟨hrejection, hturned⟩ := turn_turned hturn
  cases hturned with
  | passed hended hsome =>
      have hlength := List.length_pos_iff.mpr hsome
      simp [measure, pass, hrejection, hended, hlength]
  | data hended hremaining hsome =>
      have hlength := List.length_pos_iff.mpr hsome
      simp only [measure, pass, hrejection, hended, Option.isSome_none, Bool.false_eq_true,
        ↓reduceIte, List.length_drop]
      omega
  | closing hended hremaining hread =>
      simp [measure, hrejection, hended]
  | refused reason preamble hended hremaining hread =>
      simp only [measure, reject, hrejection, hended, Option.isSome_none, Option.isSome_some,
        Bool.false_eq_true, ↓reduceIte, List.length_nil]
      omega
  | metaHeader preamble total hended hremaining hread =>
      obtain ⟨htotal, hle⟩ := readBlock_metaHeader hread
      simp only [measure, hrejection, hended, Option.isSome_none, Bool.false_eq_true,
        ↓reduceIte, List.length_drop]
      omega
  | entry entry dataLength hended hremaining hread =>
      have hlong : blockSize ≤ g.buffered.length := readBlock_long (by
        change g.reading rootName ≠ .waits
        rw [hread]
        nofun)
      simp only [measure, pass, hrejection, hended, Option.isSome_none, Bool.false_eq_true,
        ↓reduceIte, List.length_drop]
      omega

/-- The loop has returned before its turns are used up. -/
theorem walk_stops (turns : Nat) (hturns : g.measure < turns) :
    (walk rootName turns g).turn rootName = none := by
  induction turns generalizing g with
  | zero => exact absurd hturns (Nat.not_lt_zero _)
  | succ turns ih =>
      rw [walk]
      split
      · assumption
      · rename_i next hturn
        exact ih (Nat.lt_of_lt_of_le (measure_lt hturn) (Nat.le_of_lt_succ hturns))

/-- The guard waits for more after each chunk: the loop goes on as long as there is anything to
be done. -/
theorem transform_waits (hwaits : g.turn rootName = none) (chunk : Bytes) :
    (g.transform rootName chunk).turn rootName = none := by
  rw [transform]
  split
  · exact hwaits
  rename_i hrejection
  split
  · rename_i hended
    simp only [turn, hrejection, hended, ↓reduceIte, Bool.false_eq_true] at hwaits ⊢
    split at hwaits
    · rename_i hbuffered
      rw [if_pos hbuffered]
    · cases hwaits
  · refine walk_stops _ ?_
    simp only [measure, RestoreTarGuard.turns]
    split
    · omega
    · omega

/-- What comes out once the rest of the stream has come in, as a function of the bytes that are
still to come. How they are cut does not enter it. -/
def outcome (rootName : List Char) (g : RestoreTarGuard) (rest : Bytes) :
    Bytes × Option Rejection :=
  if g.rejection.isSome then (g.output, g.rejection)
  else if g.ended then (g.output ++ (g.buffered ++ rest), none)
  else if (g.buffered ++ rest).length < g.dataRemaining then
    (g.output ++ (g.buffered ++ rest), some .endsPartway)
  else
    let later := readAll rootName g.preamble g.held g.symlinks
      ((g.buffered ++ rest).drop g.dataRemaining)
    (g.output ++ (g.buffered ++ rest).take g.dataRemaining ++ later.1, later.2)

/-- Between two entries. -/
theorem outcome_reading (hrejection : g.rejection = none) (hended : g.ended = false)
    (hremaining : g.dataRemaining = 0) (rest : Bytes) :
    g.outcome rootName rest =
      (g.output ++
          (readAll rootName g.preamble g.held g.symlinks (g.buffered ++ rest)).1,
        (readAll rootName g.preamble g.held g.symlinks (g.buffered ++ rest)).2) := by
  rw [outcome, hrejection, hended, hremaining]
  simp

theorem reading_append (hread : g.reading rootName ≠ .waits) (rest : Bytes) :
    readBlock rootName g.preamble (!g.held.isEmpty) g.symlinks (g.buffered ++ rest) =
      g.reading rootName :=
  readBlock_append hread rest

theorem drop_pass {buffered rest : Bytes} {length remaining : Nat}
    (hlength : length ≤ buffered.length) (hremaining : length ≤ remaining) :
    (buffered.drop length ++ rest).drop (remaining - length) =
      (buffered ++ rest).drop remaining := by
  rw [← List.drop_append_of_le_length hlength, List.drop_drop]
  congr 1
  omega

theorem take_pass {buffered rest : Bytes} {length remaining : Nat}
    (hlength : length ≤ buffered.length) (hremaining : length ≤ remaining) :
    buffered.take length ++ (buffered.drop length ++ rest).take (remaining - length) =
      (buffered ++ rest).take remaining := by
  have htaken : (buffered.take length).length = length := List.length_take_of_le hlength
  have hparts : (buffered.take length ++ (buffered.drop length ++ rest)).take remaining =
      buffered.take length ++ (buffered.drop length ++ rest).take (remaining - length) := by
    have happend : (buffered.take length ++ (buffered.drop length ++ rest)).take remaining =
        (buffered.take length).take remaining ++
          (buffered.drop length ++ rest).take (remaining - (buffered.take length).length) :=
      List.take_append
    rw [happend, htaken, List.take_take, Nat.min_eq_right hremaining]
  rw [← hparts, ← List.append_assoc, List.take_append_drop]

/-- The first bytes of the buffer pass as part of an entry's data, and what comes out in the end
is the same. -/
theorem outcome_pass (hrejection : g.rejection = none) (hended : g.ended = false)
    {length remaining : Nat} (hlength : length ≤ g.buffered.length)
    (hremaining : length ≤ remaining) (rest : Bytes) :
    ({ g.pass length with dataRemaining := remaining - length } : RestoreTarGuard).outcome
        rootName rest =
      ({ g with dataRemaining := remaining } : RestoreTarGuard).outcome rootName rest := by
  have hsplit : g.buffered.take length ++ (g.buffered.drop length ++ rest) =
      g.buffered ++ rest := by
    rw [← List.append_assoc, List.take_append_drop]
  have hlengths : (g.buffered.drop length ++ rest).length + length =
      (g.buffered ++ rest).length := by
    rw [List.length_append, List.length_append, List.length_drop]
    omega
  simp only [outcome, pass, hrejection, hended, Option.isSome_none, Bool.false_eq_true,
    ↓reduceIte]
  by_cases hshort : (g.buffered ++ rest).length < remaining
  · rw [if_pos hshort, if_pos (by omega), List.append_assoc, hsplit]
  · rw [if_neg hshort, if_neg (by omega), drop_pass hlength hremaining,
      ← take_pass hlength hremaining]
    simp only [List.append_assoc]

/-- A turn does not change what comes out in the end. The outcome is therefore one of the bytes
alone, and not of how they came. -/
theorem turn_outcome (hturn : g.turn rootName = some next) (rest : Bytes) :
    next.outcome rootName rest = g.outcome rootName rest := by
  obtain ⟨hrejection, hturned⟩ := turn_turned hturn
  cases hturned with
  | passed hended hsome =>
      simp [outcome, pass, hrejection, hended]
  | data hended hremaining hsome =>
      exact outcome_pass hrejection hended (Nat.min_le_right _ _) (Nat.min_le_left _ _) rest
  | closing hended hremaining hread =>
      have happend := reading_append (by rw [hread]; nofun) rest
      rw [outcome_reading hrejection hended hremaining,
        readAll_closing (happend.trans hread)]
      simp [outcome, hrejection]
  | refused reason preamble hended hremaining hread =>
      have happend := reading_append (by rw [hread]; nofun) rest
      rw [outcome_reading hrejection hended hremaining,
        readAll_refused (happend.trans hread)]
      simp [outcome, reject]
  | metaHeader preamble total hended hremaining hread =>
      have happend := reading_append (by rw [hread]; nofun) rest
      obtain ⟨-, htotal⟩ := readBlock_metaHeader hread
      rw [outcome_reading hrejection hended hremaining,
        readAll_metaHeader (happend.trans hread)]
      refine (outcome_reading ?_ ?_ ?_ rest).trans ?_
      · exact hrejection
      · exact hended
      · exact hremaining
      · rw [List.take_append_of_le_length htotal, List.drop_append_of_le_length htotal]
  | entry entry dataLength hended hremaining hread =>
      have happend := reading_append (by rw [hread]; nofun) rest
      have hlong : blockSize ≤ g.buffered.length := readBlock_long (by
        change g.reading rootName ≠ .waits
        rw [hread]
        nofun)
      rw [outcome_reading hrejection hended hremaining, readAll_entry (happend.trans hread)]
      have hlengths : (g.buffered.drop blockSize ++ rest).length + blockSize =
          (g.buffered ++ rest).length := by
        rw [List.length_append, List.length_append, List.length_drop]
        omega
      have hdrop : (g.buffered.drop blockSize ++ rest).drop dataLength =
          (g.buffered ++ rest).drop (blockSize + dataLength) := by
        rw [← List.drop_append_of_le_length hlong, List.drop_drop]
      have htake : g.buffered.take blockSize ++
            (g.buffered.drop blockSize ++ rest).take dataLength =
          (g.buffered ++ rest).take (blockSize + dataLength) := by
        have hpass := @take_pass g.buffered rest _ _ hlong (Nat.le_add_right blockSize dataLength)
        rw [Nat.add_sub_cancel_left] at hpass
        exact hpass
      have hsplit : g.buffered.take blockSize ++ (g.buffered.drop blockSize ++ rest) =
          g.buffered ++ rest := by
        rw [← List.append_assoc, List.take_append_drop]
      simp only [outcome, pass, hrejection, hended, Option.isSome_none, Bool.false_eq_true,
        ↓reduceIte]
      by_cases hshort : (g.buffered ++ rest).length < blockSize + dataLength
      · rw [if_pos hshort, if_pos (by omega)]
        simp only [List.append_assoc, hsplit]
      · rw [if_neg hshort, if_neg (by omega), hdrop, ← htake]
        simp only [List.append_assoc]

theorem walk_outcome (turns : Nat) (rest : Bytes) :
    (walk rootName turns g).outcome rootName rest = g.outcome rootName rest := by
  induction turns generalizing g with
  | zero => rfl
  | succ turns ih =>
      rw [walk]
      split
      · rfl
      · rename_i next hturn
        rw [ih, turn_outcome hturn]

/-- The guard waits for more, and what it has read so far stands for the bytes. -/
theorem transform_outcome (hwaits : g.turn rootName = none) (chunk rest : Bytes) :
    (g.transform rootName chunk).outcome rootName rest = g.outcome rootName (chunk ++ rest) := by
  rw [transform]
  split
  · rename_i hrejection
    rw [outcome, outcome, if_pos hrejection, if_pos hrejection]
  rename_i hrejection
  split
  · rename_i hended
    have hbuffered : g.buffered = [] := by
      rw [turn, if_neg hrejection, if_pos hended] at hwaits
      by_contra hsome
      rw [if_neg (by simpa using hsome)] at hwaits
      cases hwaits
    simp only [outcome, hrejection, hended, hbuffered, Bool.false_eq_true, ↓reduceIte,
      List.nil_append, List.append_assoc]
  · dsimp only
    rw [walk_outcome]
    simp only [outcome, List.append_assoc]

/-- The end of the input: a guard that waits then has in its output what the outcome says, and
refuses what is left in the middle. -/
theorem flush_outcome (hwaits : g.turn rootName = none) :
    (g.flush.output, g.flush.rejection) = g.outcome rootName [] := by
  rw [flush, outcome, List.append_nil]
  by_cases hrejection : g.rejection.isSome = true
  · have hsome : g.rejection.isNone = false := by
      rw [Option.isNone_eq_false_iff]
      exact hrejection
    simp [hsome, hrejection]
  have hnone : g.rejection = none := by simpa using hrejection
  rcases turn_eq_none hwaits with hrejected | ⟨hended, hbuffered⟩ |
    ⟨hended, hremaining, hbuffered⟩ | ⟨hended, hremaining, hread⟩
  · exact absurd hrejected hrejection
  · simp [hnone, hended, hbuffered]
  · simp [hnone, hended, hbuffered, hremaining]
  · rw [hnone, hended, hremaining, List.drop_zero, List.take_zero, readAll_waits hread]
    by_cases hempty : g.buffered = [] ∧ g.held = []
    · simp [hempty.1, hempty.2, hnone]
    · by_cases hbuffered : g.buffered = []
      · have hheld : g.held ≠ [] := fun hheld => hempty ⟨hbuffered, hheld⟩
        simp [hbuffered, hheld]
      · simp [hbuffered]

/-- The output and the rejection are those of the whole stream, whatever the chunks. -/
theorem fed_outcome (rootName : List Char) (chunks : List Bytes) :
    ((fed rootName chunks).output, (fed rootName chunks).rejection) =
      readAll rootName Preamble.none [] [] chunks.flatten := by
  have hfold : ∀ (chunks : List Bytes) (g : RestoreTarGuard), g.turn rootName = none →
      (chunks.foldl (transform rootName) g).turn rootName = none ∧
        (chunks.foldl (transform rootName) g).outcome rootName [] =
          g.outcome rootName chunks.flatten := by
    intro chunks
    induction chunks with
    | nil => exact fun g hwaits => ⟨hwaits, rfl⟩
    | cons chunk chunks ih =>
        intro g hwaits
        obtain ⟨hlast, houtcome⟩ := ih _ (transform_waits hwaits chunk)
        exact ⟨hlast, houtcome.trans (transform_outcome hwaits chunk chunks.flatten)⟩
  obtain ⟨hwaits, houtcome⟩ := hfold chunks new rfl
  rw [fed, flush_outcome hwaits, houtcome, outcome_reading rfl rfl rfl]
  rfl

end RestoreTarGuard

/- Where the output ends -/

/-- The entry at the front of the bytes, with the length of its header and of the blocks about
it, and of its data. -/
structure EntryHead where
  entry : TarEntry
  headLength : Nat
  dataLength : Nat
deriving DecidableEq, Repr

/-- None where no entry begins that is let through; otherwise the entry, and how many bytes it
takes with what was announced about it. -/
def entryHead (rootName : List Char) (symlinks : List (List Char)) (preamble : Preamble)
    (dangling : Bool) (bytes : Bytes) : Option EntryHead :=
  match _hread : readBlock rootName preamble dangling symlinks bytes with
  | .waits | .closing | .refused _ => none
  | .metaHeader next total =>
      (entryHead rootName symlinks next true (bytes.drop total)).map fun head =>
        { head with headLength := total + head.headLength }
  | .entry entry dataLength => some ⟨entry, blockSize, dataLength⟩
termination_by bytes.length
decreasing_by
  obtain ⟨htotal, hlength⟩ := readBlock_metaHeader _hread
  have hpos := blockSize_pos
  rw [List.length_drop]
  omega

section Head

variable {rootName : List Char} {preamble : Preamble} {dangling : Bool} {held : List Bytes}
  {symlinks : List (List Char)} {bytes : Bytes}

theorem entryHead_metaHeader {next : Preamble} {total : Nat}
    (hread : readBlock rootName preamble dangling symlinks bytes = .metaHeader next total) :
    entryHead rootName symlinks preamble dangling bytes =
      (entryHead rootName symlinks next true (bytes.drop total)).map fun head =>
        { head with headLength := total + head.headLength } := by
  rw [entryHead]
  split
  all_goals
    rename_i hother
    rw [hread] at hother
    cases hother
  rfl

theorem entryHead_entry {entry : TarEntry} {dataLength : Nat}
    (hread : readBlock rootName preamble dangling symlinks bytes = .entry entry dataLength) :
    entryHead rootName symlinks preamble dangling bytes =
      some ⟨entry, blockSize, dataLength⟩ := by
  rw [entryHead]
  split
  all_goals
    rename_i hother
    rw [hread] at hother
    cases hother
  rfl

theorem entryHead_none
    (hmeta : ∀ next total,
      readBlock rootName preamble dangling symlinks bytes ≠ .metaHeader next total)
    (hentry : ∀ entry dataLength,
      readBlock rootName preamble dangling symlinks bytes ≠ .entry entry dataLength) :
    entryHead rootName symlinks preamble dangling bytes = none := by
  rw [entryHead]
  split
  · rfl
  · rfl
  · rfl
  · exact absurd ‹_› (hmeta _ _)
  · exact absurd ‹_› (hentry _ _)

theorem readAll_head {head : EntryHead}
    (hhead : entryHead rootName symlinks preamble (!held.isEmpty) bytes = some head) :
    blockSize ≤ head.headLength ∧
      readAll rootName preamble held symlinks bytes =
        if bytes.length < head.headLength + head.dataLength then
          (held.flatten ++ bytes, some .endsPartway)
        else
          let later := readAll rootName Preamble.none [] (withSymlink symlinks head.entry)
            (bytes.drop (head.headLength + head.dataLength))
          (held.flatten ++ bytes.take (head.headLength + head.dataLength) ++ later.1,
            later.2) := by
  induction hlength : bytes.length using Nat.strongRecOn
    generalizing preamble held bytes head with
  | ind length ih =>
      cases hread : readBlock rootName preamble (!held.isEmpty) symlinks bytes with
      | waits =>
          rw [entryHead_none (by rw [hread]; nofun) (by rw [hread]; nofun)] at hhead
          cases hhead
      | closing =>
          rw [entryHead_none (by rw [hread]; nofun) (by rw [hread]; nofun)] at hhead
          cases hhead
      | refused reason =>
          rw [entryHead_none (by rw [hread]; nofun) (by rw [hread]; nofun)] at hhead
          cases hhead
      | entry entry dataLength =>
          rw [entryHead_entry hread] at hhead
          cases hhead
          exact ⟨Nat.le_refl _, hlength ▸ readAll_entry hread⟩
      | metaHeader next total =>
          obtain ⟨htotal, hle⟩ := readBlock_metaHeader hread
          have hpos := blockSize_pos
          rw [entryHead_metaHeader hread] at hhead
          obtain ⟨later, hlater, rfl⟩ := Option.map_eq_some_iff.mp hhead
          have hdangling : (!(held ++ [bytes.take total]).isEmpty) = true := by
            simp
          rw [← hdangling] at hlater
          obtain ⟨hlong, heq⟩ := ih (bytes.drop total).length
            (by rw [List.length_drop]; omega) hlater rfl
          have hflatten : (held ++ [bytes.take total]).flatten =
              held.flatten ++ bytes.take total := by
            rw [List.flatten_append, List.flatten_singleton]
          refine ⟨Nat.le_trans hlong (Nat.le_add_left _ _), ?_⟩
          rw [readAll_metaHeader hread, heq, hflatten, List.length_drop]
          dsimp only
          by_cases hshort : length < total + later.headLength + later.dataLength
          · rw [if_pos hshort, if_pos (by omega), List.append_assoc, List.take_append_drop]
          · rw [if_neg hshort, if_neg (by omega), List.drop_drop, List.append_assoc held.flatten,
              ← List.take_add, Nat.add_assoc]

/-- A stream that is cut short before an entry loses all of what was held for it. -/
theorem readAll_headless {reason : Rejection}
    (hhead : entryHead rootName symlinks preamble (!held.isEmpty) bytes = none)
    (hrejected : (readAll rootName preamble held symlinks bytes).2 = some reason) :
    (readAll rootName preamble held symlinks bytes).1 = [] := by
  induction hlength : bytes.length using Nat.strongRecOn generalizing preamble held bytes with
  | ind length ih =>
      cases hread : readBlock rootName preamble (!held.isEmpty) symlinks bytes with
      | waits => rw [readAll_waits hread]
      | closing =>
          rw [readAll_closing hread] at hrejected
          cases hrejected
      | refused reason => rw [readAll_refused hread]
      | entry entry dataLength =>
          rw [entryHead_entry hread] at hhead
          cases hhead
      | metaHeader next total =>
          obtain ⟨htotal, hle⟩ := readBlock_metaHeader hread
          have hpos := blockSize_pos
          have hdangling : (!(held ++ [bytes.take total]).isEmpty) = true := by
            simp
          rw [entryHead_metaHeader hread, Option.map_eq_none_iff, ← hdangling] at hhead
          rw [readAll_metaHeader hread] at hrejected ⊢
          exact ih (bytes.drop total).length (by rw [List.length_drop]; omega) hhead hrejected
            rfl

/-- Nothing is made up, and nothing is lost but at the end of a stream that is cut short. -/
theorem readAll_begins :
    (readAll rootName preamble held symlinks bytes).1 <+: held.flatten ++ bytes ∧
      ((readAll rootName preamble held symlinks bytes).2 = none →
        (readAll rootName preamble held symlinks bytes).1 = held.flatten ++ bytes) := by
  induction hlength : bytes.length using Nat.strongRecOn
    generalizing preamble held symlinks bytes with
  | ind length ih =>
      have hpos := blockSize_pos
      cases hread : readBlock rootName preamble (!held.isEmpty) symlinks bytes with
      | waits =>
          rw [readAll_waits hread]
          refine ⟨List.nil_prefix, ?_⟩
          intro hnone
          by_cases hempty : (bytes.isEmpty && held.isEmpty) = true
          · rw [Bool.and_eq_true, List.isEmpty_iff, List.isEmpty_iff] at hempty
            rw [hempty.1, hempty.2]
            rfl
          · rw [if_neg hempty] at hnone
            cases hnone
      | closing =>
          have hspec := readBlock_spec rootName preamble (!held.isEmpty) symlinks bytes
          rw [hread] at hspec
          have hheld : held = [] := by simpa using hspec.1
          rw [readAll_closing hread, hheld]
          exact ⟨List.prefix_refl _, fun _ => rfl⟩
      | refused reason =>
          rw [readAll_refused hread]
          exact ⟨List.nil_prefix, nofun⟩
      | metaHeader next total =>
          obtain ⟨htotal, hle⟩ := readBlock_metaHeader hread
          have hflatten : (held ++ [bytes.take total]).flatten ++ bytes.drop total =
              held.flatten ++ bytes := by
            rw [List.flatten_append, List.flatten_singleton, List.append_assoc,
              List.take_append_drop]
          rw [readAll_metaHeader hread, ← hflatten]
          exact ih (bytes.drop total).length (by rw [List.length_drop]; omega) rfl
      | entry entry dataLength =>
          have hlong : blockSize ≤ bytes.length := readBlock_long (by rw [hread]; nofun)
          rw [readAll_entry hread]
          split
          · exact ⟨List.prefix_refl _, nofun⟩
          · have hrest : (bytes.drop (blockSize + dataLength)).length < length := by
              rw [List.length_drop]
              omega
            let later := readAll rootName Preamble.none [] (withSymlink symlinks entry)
              (bytes.drop (blockSize + dataLength))
            obtain ⟨hlater, hwhole⟩ :
                later.1 <+: [] ++ bytes.drop (blockSize + dataLength) ∧
                  (later.2 = none → later.1 = [] ++ bytes.drop (blockSize + dataLength)) :=
              ih _ hrest rfl
            have hbytes : held.flatten ++ bytes =
                held.flatten ++ bytes.take (blockSize + dataLength) ++
                  ([] ++ bytes.drop (blockSize + dataLength)) := by
              rw [List.nil_append, List.append_assoc, List.take_append_drop]
            rw [hbytes]
            dsimp only
            refine ⟨(List.prefix_append_right_inj _).mpr hlater, ?_⟩
            intro hnone
            rw [hwhole hnone]

end Head

/-- A place between two entries, with the symlinks before it. -/
structure Boundary where
  offset : Nat
  symlinks : List (List Char)
deriving DecidableEq, Repr

def Boundary.start : Boundary := ⟨0, []⟩

section Boundaries

variable (rootName : List Char) (bytes : Bytes)

def Boundary.head (boundary : Boundary) : Option EntryHead :=
  entryHead rootName boundary.symlinks Preamble.none false (bytes.drop boundary.offset)

/-- One entry lies between the two, with all of its data. -/
def Boundary.Precedes (boundary next : Boundary) : Prop :=
  ∃ head, boundary.head rootName bytes = some head ∧
    boundary.offset + (head.headLength + head.dataLength) ≤ bytes.length ∧
    next = ⟨boundary.offset + (head.headLength + head.dataLength),
      withSymlink boundary.symlinks head.entry⟩

/-- Reached by entries that are let through. -/
def Boundary.Reached (boundary : Boundary) : Prop :=
  Relation.ReflTransGen (Boundary.Precedes rootName bytes) Boundary.start boundary

/-- Reached, and no other beyond it. -/
def Boundary.Last (boundary : Boundary) : Prop :=
  boundary.Reached rootName bytes ∧
    ∀ other : Boundary, other.Reached rootName bytes → other.offset ≤ boundary.offset

/-- The entry that begins here is let through, and cut off within its data. -/
def Boundary.CutOff (boundary : Boundary) : Prop :=
  ∃ head, boundary.head rootName bytes = some head ∧
    bytes.length < boundary.offset + (head.headLength + head.dataLength)

end Boundaries

section Ends

variable {rootName : List Char} {bytes : Bytes}

theorem Boundary.precedes_unique :
    Relator.RightUnique (Boundary.Precedes rootName bytes) := by
  rintro boundary next other ⟨head, hhead, -, rfl⟩ ⟨head', hhead', -, rfl⟩
  rw [Option.some.inj (hhead.symm.trans hhead')]

theorem Boundary.offset_le {boundary other : Boundary}
    (hreached : Relation.ReflTransGen (Boundary.Precedes rootName bytes) boundary other) :
    boundary.offset ≤ other.offset := by
  induction hreached with
  | refl => exact Nat.le_refl _
  | tail _ hprecedes ih =>
      obtain ⟨head, -, -, rfl⟩ := hprecedes
      exact Nat.le_trans ih (Nat.le_add_right _ _)

/-- A boundary that none follows is the last. -/
theorem Boundary.last_of_stuck {boundary : Boundary} (hreached : boundary.Reached rootName bytes)
    (hstuck : ∀ next, ¬ boundary.Precedes rootName bytes next) :
    boundary.Last rootName bytes := by
  refine ⟨hreached, ?_⟩
  intro other hother
  rcases Relation.ReflTransGen.total_of_right_unique Boundary.precedes_unique hreached hother
    with hlater | hearlier
  · rcases Relation.ReflTransGen.cases_head hlater with heq | ⟨next, hnext, -⟩
    · exact Nat.le_of_eq (congrArg Boundary.offset heq.symm)
    · exact absurd hnext (hstuck next)
  · exact Boundary.offset_le hearlier

/-- Where the reading of a stream from a boundary comes to its end: at a last boundary, behind
which a block is refused. -/
theorem readAll_ends {boundary : Boundary} {reason : Rejection}
    (hoffset : boundary.offset ≤ bytes.length)
    (hrejected : (readAll rootName Preamble.none [] boundary.symlinks
      (bytes.drop boundary.offset)).2 = some reason) :
    ∃ last, Relation.ReflTransGen (Boundary.Precedes rootName bytes) boundary last ∧
      ((last.head rootName bytes = none ∧
          bytes.take boundary.offset ++ (readAll rootName Preamble.none [] boundary.symlinks
            (bytes.drop boundary.offset)).1 = bytes.take last.offset) ∨
        (last.CutOff rootName bytes ∧ reason = .endsPartway ∧
          bytes.take boundary.offset ++ (readAll rootName Preamble.none [] boundary.symlinks
            (bytes.drop boundary.offset)).1 = bytes)) := by
  induction hlength : bytes.length - boundary.offset using Nat.strongRecOn
    generalizing boundary with
  | ind length ih =>
      cases hhead : boundary.head rootName bytes with
      | none =>
          refine ⟨boundary, .refl, Or.inl ⟨hhead, ?_⟩⟩
          have hnil : (readAll rootName Preamble.none [] boundary.symlinks
              (bytes.drop boundary.offset)).1 = [] :=
            readAll_headless hhead hrejected
          rw [hnil, List.append_nil]
      | some head =>
          have hfirst : entryHead rootName boundary.symlinks Preamble.none
              (!([] : List Bytes).isEmpty) (bytes.drop boundary.offset) = some head := hhead
          obtain ⟨hlong, hread⟩ := readAll_head hfirst
          rw [hread] at hrejected ⊢
          by_cases hshort : (bytes.drop boundary.offset).length <
              head.headLength + head.dataLength
          · rw [if_pos hshort] at hrejected ⊢
            rw [List.length_drop] at hshort
            refine ⟨boundary, .refl, Or.inr ⟨⟨head, hhead, by omega⟩, ?_, ?_⟩⟩
            · exact (Option.some.inj hrejected).symm
            · exact List.take_append_drop _ _
          · rw [if_neg hshort] at hrejected ⊢
            rw [List.length_drop] at hshort
            have hpos := blockSize_pos
            let next : Boundary := ⟨boundary.offset + (head.headLength + head.dataLength),
              withSymlink boundary.symlinks head.entry⟩
            have hnext : next.offset ≤ bytes.length := by
              change boundary.offset + (head.headLength + head.dataLength) ≤ bytes.length
              omega
            have hprecedes : boundary.Precedes rootName bytes next :=
              ⟨head, hhead, hnext, rfl⟩
            have hdrop : (bytes.drop boundary.offset).drop
                (head.headLength + head.dataLength) = bytes.drop next.offset := List.drop_drop
            have htake : bytes.take boundary.offset ++ (bytes.drop boundary.offset).take
                (head.headLength + head.dataLength) = bytes.take next.offset :=
              List.take_add.symm
            have hless : bytes.length - next.offset < length := by
              change bytes.length - (boundary.offset + (head.headLength + head.dataLength)) <
                length
              omega
            rw [hdrop] at hrejected ⊢
            dsimp only at hrejected ⊢
            rw [List.flatten_nil, List.nil_append, ← List.append_assoc, htake]
            obtain ⟨last, hlast, hends⟩ := ih _ hless hnext hrejected rfl
            exact ⟨last, hlast.head hprecedes, hends⟩

end Ends

/-- The guard does the same with a stream in whatever chunks: what it lets through is the
front of the stream, and all of it unless it rejects.  Then it is the front up to the last
boundary, where no entry begins that is let through; or all of it, when the stream ends within
the data of the entry that begins there. -/
theorem fed_chunks (rootName : List Char) (chunks : List Bytes) :
    let guard := RestoreTarGuard.fed rootName chunks
    (∀ others : List Bytes, others.flatten = chunks.flatten →
      (RestoreTarGuard.fed rootName others).output = guard.output ∧
        (RestoreTarGuard.fed rootName others).rejection = guard.rejection) ∧
    guard.output <+: chunks.flatten ∧
    (guard.rejection = none → guard.output = chunks.flatten) ∧
    ∀ reason, guard.rejection = some reason →
      ∃ last : Boundary, last.Last rootName chunks.flatten ∧
        ((last.head rootName chunks.flatten = none ∧
            guard.output = chunks.flatten.take last.offset) ∨
          (last.CutOff rootName chunks.flatten ∧ reason = .endsPartway ∧
            guard.output = chunks.flatten)) := by
  intro guard
  have houtcome := RestoreTarGuard.fed_outcome rootName chunks
  have houtput : guard.output = (readAll rootName Preamble.none [] [] chunks.flatten).1 :=
    congrArg Prod.fst houtcome
  have hrejection : guard.rejection =
      (readAll rootName Preamble.none [] [] chunks.flatten).2 :=
    congrArg Prod.snd houtcome
  obtain ⟨hfront, hwhole⟩ :
      (readAll rootName Preamble.none [] [] chunks.flatten).1 <+: [] ++ chunks.flatten ∧
        ((readAll rootName Preamble.none [] [] chunks.flatten).2 = none →
          (readAll rootName Preamble.none [] [] chunks.flatten).1 = [] ++ chunks.flatten) :=
    readAll_begins
  refine ⟨?_, ?_, ?_, ?_⟩
  · intro others hothers
    have hother := RestoreTarGuard.fed_outcome rootName others
    rw [hothers] at hother
    exact ⟨(congrArg Prod.fst hother).trans houtput.symm,
      (congrArg Prod.snd hother).trans hrejection.symm⟩
  · rw [houtput]
    exact hfront
  · intro hnone
    rw [houtput]
    exact hwhole (hrejection.symm.trans hnone)
  · intro reason hreason
    rw [hrejection] at hreason
    have hstart : Boundary.start.offset ≤ chunks.flatten.length := Nat.zero_le _
    obtain ⟨last, hlast, hends⟩ := readAll_ends hstart hreason
    have hstuck : ∀ next, ¬ last.Precedes rootName chunks.flatten next := by
      rintro next ⟨head, hhead, hle, -⟩
      rcases hends with ⟨hnone, -⟩ | ⟨⟨head', hhead', hlt⟩, -⟩
      · rw [hnone] at hhead
        cases hhead
      · rw [Option.some.inj (hhead.symm.trans hhead')] at hle
        omega
    refine ⟨last, Boundary.last_of_stuck hlast hstuck, ?_⟩
    rw [houtput]
    exact hends

namespace Written

/-- A field of text, padded with NULs. -/
def text (value : String) (length : Nat) : Bytes :=
  let bytes := value.toList.map fun c => UInt8.ofNat c.toNat
  bytes ++ List.replicate (length - bytes.length) 0

def octal (value digits : Nat) : Bytes :=
  ((List.range digits).map fun i =>
    UInt8.ofNat (48 + value / 8 ^ (digits - 1 - i) % 8)) ++ [0]

/-- A USTAR header of an entry with so many bytes of data, with a checksum that is right. -/
def sizedHeader (name : String) (type : Char) (linkName : String) (size : Nat) : Bytes :=
  let before := text name 100 ++ octal 420 7 ++ octal 0 7 ++ octal 0 7 ++ octal size 11 ++
    octal 0 11
  let after := UInt8.ofNat type.toNat :: (text linkName 100 ++ text "ustar" 6 ++ text "00" 249)
  let sum := unsignedSum (before ++ List.replicate 8 0x20 ++ after)
  before ++ octal sum 6 ++ [0x20] ++ after

/-- A header of an entry without data. -/
def headerOf (name : String) (type : Char) (linkName : String) : Bytes :=
  sizedHeader name type linkName 0

def closing : Bytes := List.replicate 1024 0

/-- A folder, and a message whose name stands in a record before it. -/
def folderAndMessage : Bytes :=
  headerOf "mail/" '5' "" ++ sizedHeader "PaxHeaders/message" 'x' "" 21 ++
    text "21 path=mail/message\n" 512 ++ sizedHeader "mail/cut" '0' "" 5 ++ text "hello" 512 ++
      closing

/-- Cut within a header, within the record, within the message and within its padding. -/
def pieces : List Bytes :=
  [folderAndMessage.take 700, (folderAndMessage.drop 700).take 334,
    (folderAndMessage.drop 1034).take 1017, (folderAndMessage.drop 2051).take 100,
    folderAndMessage.drop 2151]

end Written

/-- The archive is let through whole, however it is cut: within a header, within the body of an
extended header, and within the padding behind the data. -/
theorem fed_chunks_cut :
    (RestoreTarGuard.fed "mail".toList Written.pieces).rejection = none ∧
      (RestoreTarGuard.fed "mail".toList Written.pieces).output = Written.folderAndMessage := by
  have hrejection : (RestoreTarGuard.fed "mail".toList [Written.folderAndMessage]).rejection =
      none := by
    decide +kernel
  have hflatten : Written.pieces.flatten = [Written.folderAndMessage].flatten := by
    decide +kernel
  obtain ⟨hcut, -, hwhole, -⟩ := fed_chunks "mail".toList [Written.folderAndMessage]
  obtain ⟨houtput, hsame⟩ := hcut Written.pieces hflatten
  rw [hsame, houtput, hwhole hrejection, List.flatten_singleton]
  exact ⟨hrejection, rfl⟩

end RestoreTar

end MailPanel

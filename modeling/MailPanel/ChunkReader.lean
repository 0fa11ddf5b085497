import Mathlib.Data.List.Basic
import Mathlib.Algebra.Ring.Nat

/-
Readers of a buffer that fills chunk by chunk.  What a reader takes off the front of a buffer
does not depend on what comes behind it; so neither do the items it takes on the way depend
on where the chunks are cut.
-/

namespace MailPanel

/-- Takes one item off the front of a buffer, or waits for more. -/
structure ChunkReader (α β : Type) where
  next : List α → Option (β × List α)
  shorter : ∀ {buffer item left}, next buffer = some (item, left) → left.length < buffer.length
  ahead : ∀ {buffer item left}, next buffer = some (item, left) →
    ∀ more, next (buffer ++ more) = some (item, left ++ more)

namespace ChunkReader

variable {α β : Type} (reader : ChunkReader α β)

/-- The items at the front of a buffer, for so many turns, and what is left of it. -/
def take : Nat → List α → List β × List α
  | 0, buffer => ([], buffer)
  | turns + 1, buffer =>
      match reader.next buffer with
      | none => ([], buffer)
      | some (item, left) => (item :: (take turns left).1, (take turns left).2)

/-- All items at the front of a buffer: each is longer than nothing. -/
def drain (buffer : List α) : List β × List α := reader.take buffer.length buffer

/-- The items taken as chunks come in, in order, and what is left in the buffer. Nothing is
taken from a chunk before the one in front of it is done. -/
def feed (buffer : List α) : List (List α) → List β × List α
  | [] => ([], buffer)
  | chunk :: chunks =>
      ((reader.drain (buffer ++ chunk)).1 ++
          (feed (reader.drain (buffer ++ chunk)).2 chunks).1,
        (feed (reader.drain (buffer ++ chunk)).2 chunks).2)

variable {reader} {buffer left : List α} {item : β}

theorem take_of_le {turns : Nat} (hturns : buffer.length ≤ turns) :
    reader.take turns buffer = reader.drain buffer := by
  have hstep : ∀ turns (buffer : List α), buffer.length ≤ turns →
      reader.take (turns + 1) buffer = reader.take turns buffer := by
    intro turns
    induction turns with
    | zero =>
        intro buffer hlength
        cases hnext : reader.next buffer with
        | none => simp only [take, hnext]
        | some found =>
            have hshorter : found.2.length < buffer.length := reader.shorter hnext
            omega
    | succ turns ih =>
        intro buffer hlength
        rw [take, take]
        cases hnext : reader.next buffer with
        | none => rfl
        | some found =>
            have hshorter : found.2.length < buffer.length := reader.shorter hnext
            have hleft : reader.take (turns + 1) found.2 = reader.take turns found.2 :=
              ih found.2 (by omega)
            simp only [hleft]
  obtain ⟨extra, rfl⟩ := Nat.exists_eq_add_of_le hturns
  induction extra with
  | zero => rfl
  | succ extra ih =>
      rw [← Nat.add_assoc, hstep _ _ (Nat.le_add_right _ _)]
      exact ih (Nat.le_add_right _ _)

theorem drain_none (hnext : reader.next buffer = none) : reader.drain buffer = ([], buffer) := by
  rw [drain]
  cases buffer.length with
  | zero => rfl
  | succ turns => rw [take, hnext]

theorem drain_some (hnext : reader.next buffer = some (item, left)) :
    reader.drain buffer = (item :: (reader.drain left).1, (reader.drain left).2) := by
  have hshorter := reader.shorter hnext
  have hturns : buffer.length = (buffer.length - 1) + 1 := by omega
  have hleft : reader.take (buffer.length - 1) left = reader.drain left :=
    take_of_le (by omega)
  rw [drain, hturns, take, hnext]
  simp only [hleft]

/-- A drained buffer waits. -/
theorem drain_waits (buffer : List α) : reader.next (reader.drain buffer).2 = none := by
  induction hlength : buffer.length using Nat.strongRecOn generalizing buffer with
  | ind length ih =>
      cases hnext : reader.next buffer with
      | none =>
          rw [drain_none hnext]
          exact hnext
      | some found =>
          rw [drain_some hnext]
          exact ih found.2.length (hlength ▸ reader.shorter hnext) found.2 rfl

/-- Draining at once, or in two parts. -/
theorem drain_append (buffer more : List α) :
    reader.drain (buffer ++ more) =
      ((reader.drain buffer).1 ++ (reader.drain ((reader.drain buffer).2 ++ more)).1,
        (reader.drain ((reader.drain buffer).2 ++ more)).2) := by
  induction hlength : buffer.length using Nat.strongRecOn generalizing buffer with
  | ind length ih =>
      cases hnext : reader.next buffer with
      | none =>
          rw [drain_none hnext]
          rfl
      | some found =>
          have hshorter : found.2.length < length := hlength ▸ reader.shorter hnext
          rw [drain_some hnext, drain_some (reader.ahead hnext more),
            ih found.2.length hshorter found.2 rfl]
          rfl

/-- Chunks give what their bytes give at once. -/
theorem feed_eq_drain (chunks : List (List α)) (hwaits : reader.next buffer = none) :
    reader.feed buffer chunks = reader.drain (buffer ++ chunks.flatten) := by
  induction chunks generalizing buffer with
  | nil =>
      rw [List.flatten_nil, List.append_nil, drain_none hwaits]
      rfl
  | cons chunk chunks ih =>
      rw [feed, List.flatten_cons, ← List.append_assoc, drain_append (buffer ++ chunk),
        ih (drain_waits (buffer ++ chunk))]

end ChunkReader

end MailPanel

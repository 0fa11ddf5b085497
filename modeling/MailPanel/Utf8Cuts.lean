import MailPanel.Utf8Text

/-
Bytes of UTF-8 text that are cut into pieces and read piece by piece: what is read is the
text exactly if no cut goes through a character.
-/

namespace MailPanel

namespace ScriptText

/-- A byte that goes on with a character that has begun. -/
def Partial.Continues (char : Partial) (byte : UInt8) : Prop :=
  char.lower ≤ byte.toNat ∧ byte.toNat ≤ char.upper

/-- The character that the bytes leave begun. -/
def pendingFrom (begun : Option Partial) (bytes : List UInt8) : Option Partial :=
  bytes.foldl (fun begun byte => (decodeStep begun byte).2) begun

/-- The characters that the bytes complete. -/
def emitted (begun : Option Partial) : List UInt8 → List Char
  | [] => []
  | byte :: rest => (decodeStep begun byte).1 ++ emitted (decodeStep begun byte).2 rest

/-- The bytes end inside a character that the next byte goes on with. -/
def CutsCharacter (before after : List UInt8) : Prop :=
  ∃ char ∈ pendingFrom none before, ∃ byte ∈ after.head?, char.Continues byte

/-- No piece ends inside a character that the pieces after it go on with. -/
def KeepsCharacters : List (List UInt8) → Prop
  | [] => True
  | piece :: rest => ¬CutsCharacter piece rest.flatten ∧ KeepsCharacters rest

/-- The bytes of a character after its first. -/
def Tailed (begun : Option Partial) : Prop :=
  ∀ char ∈ begun, 0x80 ≤ char.lower ∧ char.upper ≤ 0xbf

theorem leadByte_tailed (byte : Nat) : Tailed (leadByte byte).2 := by
  intro char hchar
  rw [leadByte] at hchar
  split at hchar
  · cases hchar
  split at hchar
  · rw [← Option.some.inj hchar]
    exact ⟨Nat.le_refl _, Nat.le_refl _⟩
  split at hchar
  · rw [← Option.some.inj hchar]
    dsimp only
    split <;> split <;> omega
  split at hchar
  · rw [← Option.some.inj hchar]
    dsimp only
    split <;> split <;> omega
  · cases hchar

theorem decodeStep_tailed (begun : Option Partial) (byte : UInt8) :
    Tailed (decodeStep begun byte).2 := by
  cases begun with
  | none => exact leadByte_tailed byte.toNat
  | some char =>
      rw [decodeStep]
      dsimp only
      split
      · split
        · intro next hnext
          cases hnext
        · intro next hnext
          rw [← Option.some.inj hnext]
          exact ⟨Nat.le_refl _, Nat.le_refl _⟩
      · exact leadByte_tailed byte.toNat

theorem pendingFrom_tailed {begun : Option Partial} (hbegun : Tailed begun)
    (bytes : List UInt8) : Tailed (pendingFrom begun bytes) := by
  induction bytes generalizing begun with
  | nil => exact hbegun
  | cons byte rest ih => exact ih (decodeStep_tailed begun byte)

theorem decodeFrom_append (begun : Option Partial) (before after : List UInt8) :
    decodeFrom begun (before ++ after) =
      emitted begun before ++ decodeFrom (pendingFrom begun before) after := by
  induction before generalizing begun with
  | nil => rfl
  | cons byte rest ih =>
      rw [List.cons_append, decodeFrom_cons, ih, emitted, List.append_assoc]
      rfl

/-- A byte that goes on with a character begins none. -/
theorem leadByte_of_tail {byte : Nat} (hlower : 0x80 ≤ byte) (hupper : byte ≤ 0xbf) :
    leadByte byte = ([replacement], none) := by
  rw [leadByte, if_neg (by omega), if_neg (by omega), if_neg (by omega), if_neg (by omega)]

/-- A byte that does not go on with a character is read afresh. -/
theorem decodeFrom_stopped {char : Partial} {byte : UInt8} (rest : List UInt8)
    (hstops : ¬char.Continues byte) :
    decodeFrom (some char) (byte :: rest) = replacement :: decodeUtf8 (byte :: rest) := by
  rw [Partial.Continues] at hstops
  rw [decodeFrom_cons, decodeStep]
  dsimp only
  rw [if_neg hstops, decodeUtf8, decodeFrom_cons]
  rfl

/-- A byte that goes on with a character would be a replacement of its own. -/
theorem length_decodeFrom_continued {char : Partial} (htailed : Tailed (some char)) {byte : UInt8}
    {rest : List UInt8} (hcontinues : char.Continues byte)
    (hrest : ∀ next, Tailed (some next) →
      (decodeFrom (some next) rest).length ≤ 1 + (decodeUtf8 rest).length) :
    (decodeFrom (some char) (byte :: rest)).length ≤ (decodeUtf8 (byte :: rest)).length := by
  obtain ⟨hlower, hupper⟩ := htailed char rfl
  have hlead := leadByte_of_tail (Nat.le_trans hlower hcontinues.1)
    (Nat.le_trans hcontinues.2 hupper)
  have hfresh : (decodeUtf8 (byte :: rest)).length = 1 + (decodeUtf8 rest).length := by
    rw [decodeUtf8, decodeFrom_cons, decodeStep, hlead, decodeUtf8, Nat.add_comm]
    rfl
  rw [hfresh]
  by_cases hlast : char.needed = 1
  · have hsame : (decodeFrom (some char) (byte :: rest)).length =
        1 + (decodeUtf8 rest).length := by
      rw [decodeFrom_last rest hcontinues hlast, List.length_cons, decodeUtf8, Nat.add_comm]
    exact Nat.le_of_eq hsame
  · rw [decodeFrom_more rest hcontinues hlast]
    apply hrest
    intro next hnext
    rw [← Option.some.inj hnext]
    exact ⟨Nat.le_refl _, Nat.le_refl _⟩

/-- Going on with a character reads no more than a replacement beside a fresh reading. -/
theorem length_decodeFrom_some (bytes : List UInt8) : ∀ char, Tailed (some char) →
    (decodeFrom (some char) bytes).length ≤ 1 + (decodeUtf8 bytes).length := by
  induction bytes with
  | nil => exact fun _ _ => Nat.le_refl 1
  | cons byte rest ih =>
      intro char htailed
      by_cases hcontinues : char.Continues byte
      · have hle := length_decodeFrom_continued htailed hcontinues ih
        omega
      · have hsame : (decodeFrom (some char) (byte :: rest)).length =
            1 + (decodeUtf8 (byte :: rest)).length := by
          rw [decodeFrom_stopped rest hcontinues, List.length_cons, Nat.add_comm]
        exact Nat.le_of_eq hsame

/-- A reading of bytes alone. -/
theorem decodeUtf8_eq_emitted (bytes : List UInt8) :
    decodeUtf8 bytes = emitted none bytes ++ decodeFrom (pendingFrom none bytes) [] := by
  rw [decodeUtf8]
  conv_lhs => rw [← List.append_nil bytes]
  exact decodeFrom_append none bytes []

/-- A cut that goes through no character takes the text apart. -/
theorem decodeUtf8_append_of_not_cuts {before after : List UInt8}
    (hwhole : ¬CutsCharacter before after) :
    decodeUtf8 (before ++ after) = decodeUtf8 before ++ decodeUtf8 after := by
  rw [decodeUtf8_eq_emitted before, decodeUtf8, decodeFrom_append, List.append_assoc]
  congr 1
  cases hpending : pendingFrom none before with
  | none => rfl
  | some char =>
      cases after with
      | nil => rfl
      | cons byte rest =>
          have hstops : ¬char.Continues byte :=
            fun hcontinues => hwhole ⟨char, hpending, byte, rfl, hcontinues⟩
          rw [decodeFrom_stopped rest hstops]
          rfl

/-- A cut through a character makes more characters of it, since each side is read on its own
and gives at least one replacement character. -/
theorem length_decodeUtf8_of_cuts {before after : List UInt8} (hcuts : CutsCharacter before after) :
    (decodeUtf8 (before ++ after)).length <
      (decodeUtf8 before).length + (decodeUtf8 after).length := by
  obtain ⟨char, hpending, byte, hbyte, hcontinues⟩ := hcuts
  cases after with
  | nil => cases hbyte
  | cons first rest =>
      obtain rfl := Option.some.inj hbyte
      have htailed : Tailed (some char) := by
        have hbegun : Tailed none := nofun
        have h := pendingFrom_tailed hbegun before
        rw [hpending] at h
        exact h
      have hle := length_decodeFrom_continued htailed hcontinues (length_decodeFrom_some rest)
      rw [decodeUtf8_eq_emitted before, hpending, decodeUtf8, decodeFrom_append, hpending,
        List.length_append, List.length_append]
      have hone : (decodeFrom (some char) []).length = 1 := rfl
      omega

/-- The pieces never read as fewer characters than the whole. -/
theorem length_decodeUtf8_flatten (pieces : List (List UInt8)) :
    (decodeUtf8 pieces.flatten).length ≤ (pieces.flatMap decodeUtf8).length := by
  induction pieces with
  | nil => exact Nat.le_refl _
  | cons piece rest ih =>
      rw [List.flatten_cons, List.flatMap_cons, List.length_append]
      by_cases hcuts : CutsCharacter piece rest.flatten
      · have hlt := length_decodeUtf8_of_cuts hcuts
        omega
      · rw [decodeUtf8_append_of_not_cuts hcuts, List.length_append]
        omega

theorem flatMap_decodeUtf8_iff (pieces : List (List UInt8)) :
    pieces.flatMap decodeUtf8 = decodeUtf8 pieces.flatten ↔ KeepsCharacters pieces := by
  induction pieces with
  | nil => exact ⟨fun _ => trivial, fun _ => rfl⟩
  | cons piece rest ih =>
      rw [List.flatMap_cons, List.flatten_cons, KeepsCharacters, ← ih]
      by_cases hcuts : CutsCharacter piece rest.flatten
      · have hlt := length_decodeUtf8_of_cuts hcuts
        have hle := length_decodeUtf8_flatten rest
        constructor
        · intro heq
          have hlength := congrArg List.length heq
          rw [List.length_append] at hlength
          omega
        · exact fun h => absurd hcuts h.1
      · rw [decodeUtf8_append_of_not_cuts hcuts, List.append_cancel_left_eq]
        exact ⟨fun heq => ⟨hcuts, heq⟩, And.right⟩

end ScriptText

end MailPanel

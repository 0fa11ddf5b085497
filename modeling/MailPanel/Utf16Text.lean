import MailPanel.Utf8Text

/-
Strings of UTF-16 units.  Not every one is text: a surrogate may stand alone, and is then
read as a replacement.
-/

namespace MailPanel

namespace ScriptText

abbrev Utf16 := List UInt16

/-- The first half of a character beyond the basic plane. -/
def IsHigh (unit : UInt16) : Prop := 0xd800 ≤ unit.toNat ∧ unit.toNat < 0xdc00

def IsLow (unit : UInt16) : Prop := 0xdc00 ≤ unit.toNat ∧ unit.toNat < 0xe000

instance (unit : UInt16) : Decidable (IsHigh unit) := inferInstanceAs (Decidable (_ ∧ _))

instance (unit : UInt16) : Decidable (IsLow unit) := inferInstanceAs (Decidable (_ ∧ _))

def charUnits (c : Char) : Utf16 :=
  if c.toNat < 0x10000 then [UInt16.ofNat c.toNat]
  else
    [UInt16.ofNat (0xd800 + (c.toNat - 0x10000) / 0x400),
      UInt16.ofNat (0xdc00 + (c.toNat - 0x10000) % 0x400)]

def encodeUtf16 (text : List Char) : Utf16 := text.flatMap charUnits

/-- A unit that is no half of a pair. -/
def unitChar (unit : UInt16) : Char :=
  if IsHigh unit ∨ IsLow unit then replacement else Char.ofNat unit.toNat

/-- The text of a string, with a replacement for each lone surrogate. It is what the encoder to
bytes makes of such a string. -/
def decodeUtf16 : Utf16 → List Char
  | [] => []
  | [unit] => [unitChar unit]
  | unit :: next :: rest =>
      if IsHigh unit ∧ IsLow next then
        Char.ofNat (0x10000 + (unit.toNat - 0xd800) * 0x400 + (next.toNat - 0xdc00)) ::
          decodeUtf16 rest
      else unitChar unit :: decodeUtf16 (next :: rest)

/-- The string is that of a text. -/
def IsWellFormed (string : Utf16) : Prop := encodeUtf16 (decodeUtf16 string) = string

instance (string : Utf16) : Decidable (IsWellFormed string) :=
  inferInstanceAs (Decidable (_ = _))

example : decodeUtf16 [0x6d, 0xd83d, 0xde00, 0xde00] = ['m', '😀', replacement] ∧
    encodeUtf16 ['m', '😀'] = [0x6d, 0xd83d, 0xde00] := by
  decide

theorem unitChar_ofNat {c : Char} (hbasic : c.toNat < 0x10000) :
    ¬IsHigh (UInt16.ofNat c.toNat) ∧ unitChar (UInt16.ofNat c.toNat) = c := by
  have hvalid : c.toNat < 0xd800 ∨ 0xdfff < c.toNat ∧ c.toNat < 0x110000 := c.valid
  have hunit : (UInt16.ofNat c.toNat).toNat = c.toNat := by
    rw [UInt16.toNat_ofNat']
    omega
  have hhigh : ¬IsHigh (UInt16.ofNat c.toNat) := by
    rw [IsHigh, hunit]
    omega
  have hlow : ¬IsLow (UInt16.ofNat c.toNat) := by
    rw [IsLow, hunit]
    omega
  refine ⟨hhigh, ?_⟩
  rw [unitChar, if_neg (not_or.mpr ⟨hhigh, hlow⟩), hunit, Char.ofNat_toNat]

theorem decodeUtf16_charUnits (c : Char) (rest : Utf16) :
    decodeUtf16 (charUnits c ++ rest) = c :: decodeUtf16 rest := by
  have hvalid : c.toNat < 0xd800 ∨ 0xdfff < c.toNat ∧ c.toNat < 0x110000 := c.valid
  rw [charUnits]
  by_cases hbasic : c.toNat < 0x10000
  · obtain ⟨hhigh, hchar⟩ := unitChar_ofNat hbasic
    rw [if_pos hbasic, List.singleton_append]
    cases rest with
    | nil => rw [decodeUtf16, decodeUtf16, hchar]
    | cons next rest => rw [decodeUtf16, if_neg fun h => hhigh h.1, hchar]
  · have hfirst : (UInt16.ofNat (0xd800 + (c.toNat - 0x10000) / 0x400)).toNat =
        0xd800 + (c.toNat - 0x10000) / 0x400 := by
      rw [UInt16.toNat_ofNat']
      omega
    have hsecond : (UInt16.ofNat (0xdc00 + (c.toNat - 0x10000) % 0x400)).toNat =
        0xdc00 + (c.toNat - 0x10000) % 0x400 := by
      rw [UInt16.toNat_ofNat']
      omega
    have hcode : 0x10000 + (0xd800 + (c.toNat - 0x10000) / 0x400 - 0xd800) * 0x400 +
        (0xdc00 + (c.toNat - 0x10000) % 0x400 - 0xdc00) = c.toNat := by
      omega
    have hpair : IsHigh (UInt16.ofNat (0xd800 + (c.toNat - 0x10000) / 0x400)) ∧
        IsLow (UInt16.ofNat (0xdc00 + (c.toNat - 0x10000) % 0x400)) := by
      rw [IsHigh, IsLow, hfirst, hsecond]
      omega
    rw [if_neg hbasic, List.cons_append, List.singleton_append, decodeUtf16, if_pos hpair,
      hfirst, hsecond, hcode, Char.ofNat_toNat]

theorem decodeUtf16_encodeUtf16 (text : List Char) : decodeUtf16 (encodeUtf16 text) = text := by
  induction text with
  | nil => rfl
  | cons c text ih =>
      rw [encodeUtf16, List.flatMap_cons, decodeUtf16_charUnits]
      exact congrArg (c :: ·) ih

theorem isWellFormed_encodeUtf16 (text : List Char) : IsWellFormed (encodeUtf16 text) := by
  rw [IsWellFormed, decodeUtf16_encodeUtf16]

end ScriptText

end MailPanel

import MailPanel.ScriptText

/-
Bytes read as UTF-8, with a replacement for what is not.  A character of ASCII is read from
its own byte alone, wherever it stands.
-/

namespace MailPanel

namespace ScriptText

/- One byte at a time -/

/-- The characters that a byte completes, and the one that it begins. A byte that does not fit
ends what was begun with a replacement, and is then read anew. -/
def decodeStep (begun : Option Partial) (byte : UInt8) : List Char × Option Partial :=
  match begun with
  | none => leadByte byte.toNat
  | some char =>
      if char.lower ≤ byte.toNat ∧ byte.toNat ≤ char.upper then
        let code := char.code * 64 + (byte.toNat - 0x80)
        if char.needed = 1 then ([Char.ofNat code], none)
        else ([], some ⟨code, char.needed - 1, 0x80, 0xbf⟩)
      else (replacement :: (leadByte byte.toNat).1, (leadByte byte.toNat).2)

theorem decodeFrom_cons (begun : Option Partial) (byte : UInt8) (rest : List UInt8) :
    decodeFrom begun (byte :: rest) =
      (decodeStep begun byte).1 ++ decodeFrom (decodeStep begun byte).2 rest := by
  cases begun with
  | none => rfl
  | some char =>
      rw [decodeFrom, decodeStep]
      dsimp only
      split
      · split
        · rfl
        · rfl
      · rfl

/-- What can still become of a character: its code is none of ASCII, and a scalar value. -/
structure Partial.Valid (char : Partial) : Prop where
  needed : 1 ≤ char.needed ∧ char.needed ≤ 3
  lower : 0x80 ≤ char.lower
  above : 0x80 ≤ (char.code * 64 + (char.lower - 0x80)) * 64 ^ (char.needed - 1)
  scalar : (char.code * 64 + (char.upper - 0x80) + 1) * 64 ^ (char.needed - 1) ≤ 0xd800 ∨
    0xe000 ≤ (char.code * 64 + (char.lower - 0x80)) * 64 ^ (char.needed - 1) ∧
      (char.code * 64 + (char.upper - 0x80) + 1) * 64 ^ (char.needed - 1) ≤ 0x110000

def ValidBegun (begun : Option Partial) : Prop := ∀ char ∈ begun, char.Valid

theorem validBegun_none : ValidBegun none := nofun

theorem toNat_ofNat {code : Nat} (hcode : code < 0xd800 ∨ 0xe000 ≤ code ∧ code < 0x110000) :
    (Char.ofNat code).toNat = code := by
  have hvalid : code.isValidChar := by
    rw [Nat.isValidChar]
    omega
  rw [Char.ofNat, dif_pos hvalid]
  rfl

theorem leadByte_valid (byte : UInt8) :
    ValidBegun (leadByte byte.toNat).2 ∧
      ∀ c ∈ (leadByte byte.toNat).1, c.toNat < 0x80 → c.toNat = byte.toNat := by
  have hbyte := byte.toNat_lt
  rw [leadByte]
  split
  · refine ⟨nofun, ?_⟩
    intro c hc _
    rw [List.mem_singleton.mp hc]
    exact toNat_ofNat (by omega)
  split
  · refine ⟨?_, nofun⟩
    intro char hchar
    rw [← Option.mem_some_iff.mp hchar]
    refine ⟨⟨Nat.le_refl 1, Nat.le_add_right 1 2⟩, Nat.le_refl 0x80, ?_, ?_⟩
    · simp only [Nat.sub_self, Nat.pow_zero]
      omega
    · simp only [Nat.sub_self, Nat.pow_zero]
      omega
  split
  · refine ⟨?_, nofun⟩
    intro char hchar
    rw [← Option.mem_some_iff.mp hchar]
    refine ⟨⟨Nat.le_add_right 1 1, Nat.le_add_right 2 1⟩, ?_, ?_, ?_⟩
    · dsimp only
      split <;> omega
    · dsimp only
      split <;> omega
    · dsimp only
      split <;> split <;> omega
  split
  · refine ⟨?_, nofun⟩
    intro char hchar
    rw [← Option.mem_some_iff.mp hchar]
    refine ⟨⟨Nat.le_add_right 1 2, Nat.le_refl 3⟩, ?_, ?_, ?_⟩
    · dsimp only
      split <;> omega
    · dsimp only
      split <;> omega
    · dsimp only
      split <;> split <;> omega
  · refine ⟨nofun, ?_⟩
    intro c hc hlow
    rw [List.mem_singleton.mp hc] at hlow
    exact absurd hlow (by decide)

theorem decodeStep_valid {begun : Option Partial} (hbegun : ValidBegun begun) (byte : UInt8) :
    ValidBegun (decodeStep begun byte).2 ∧
      ∀ c ∈ (decodeStep begun byte).1, c.toNat < 0x80 → c.toNat = byte.toNat := by
  cases begun with
  | none => exact leadByte_valid byte
  | some char =>
      obtain ⟨hneeded, hlower, habove, hscalar⟩ := hbegun char rfl
      rw [decodeStep]
      dsimp only
      split
      · rename_i hrange
        have hcode : char.code * 64 + (char.lower - 0x80) ≤
            char.code * 64 + (byte.toNat - 0x80) ∧
            char.code * 64 + (byte.toNat - 0x80) + 1 ≤
              char.code * 64 + (char.upper - 0x80) + 1 := by
          omega
        split
        · rename_i hlast
          rw [hlast] at habove hscalar
          simp only [Nat.sub_self, Nat.pow_zero, Nat.mul_one] at habove hscalar
          refine ⟨nofun, ?_⟩
          intro c hc hlow
          rw [List.mem_singleton.mp hc, toNat_ofNat (by omega)] at hlow
          omega
        · rename_i hmore
          refine ⟨?_, nofun⟩
          intro next hnext
          rw [← Option.mem_some_iff.mp hnext]
          have hpow : 64 * 64 ^ (char.needed - 1 - 1) = 64 ^ (char.needed - 1) := by
            rw [← Nat.pow_succ']
            congr 1
            omega
          have hlow := Nat.mul_le_mul_right (64 ^ (char.needed - 1)) hcode.1
          have hhigh := Nat.mul_le_mul_right (64 ^ (char.needed - 1)) hcode.2
          have hstep : ∀ code : Nat, code * 64 * 64 ^ (char.needed - 1 - 1) =
              code * 64 ^ (char.needed - 1) := by
            intro code
            rw [Nat.mul_assoc, hpow]
          refine ⟨?_, Nat.le_refl _, ?_, ?_⟩
          · dsimp only
            omega
          · simp only [Nat.sub_self, Nat.add_zero]
            rw [hstep]
            exact Nat.le_trans habove hlow
          · have hupper : (char.code * 64 + (byte.toNat - 0x80)) * 64 + (0xbf - 0x80) + 1 =
                (char.code * 64 + (byte.toNat - 0x80) + 1) * 64 := by
              omega
            simp only [Nat.sub_self, Nat.add_zero]
            rw [hupper, hstep, hstep]
            omega
      · obtain ⟨hnext, hemits⟩ := leadByte_valid byte
        refine ⟨hnext, ?_⟩
        intro c hc hlow
        rcases List.mem_cons.mp hc with rfl | hc
        · exact absurd hlow (by decide)
        · exact hemits c hc hlow

/-- What is left of a character that does not go on. -/
theorem decodeFrom_nil (begun : Option Partial) :
    ∀ c ∈ decodeFrom begun [], c = replacement := by
  intro c hc
  rw [decodeFrom] at hc
  split at hc
  · exact List.mem_singleton.mp hc
  · cases hc

/-- A character of ASCII is read from its byte. -/
theorem mem_of_mem_decodeFrom {begun : Option Partial} (hbegun : ValidBegun begun)
    {bytes : List UInt8} {c : Char} (hc : c ∈ decodeFrom begun bytes) (hlow : c.toNat < 0x80) :
    ∃ byte ∈ bytes, byte.toNat = c.toNat := by
  induction bytes generalizing begun with
  | nil =>
      rw [decodeFrom_nil begun c hc] at hlow
      exact absurd hlow (by decide)
  | cons byte rest ih =>
      obtain ⟨hnext, hemits⟩ := decodeStep_valid hbegun byte
      rw [decodeFrom_cons] at hc
      rcases List.mem_append.mp hc with hc | hc
      · exact ⟨byte, List.mem_cons_self, (hemits c hc hlow).symm⟩
      · obtain ⟨later, hlater, heq⟩ := ih hnext hc
        exact ⟨later, List.mem_cons_of_mem byte hlater, heq⟩

theorem mem_of_mem_decodeUtf8 {bytes : List UInt8} {c : Char} (hc : c ∈ decodeUtf8 bytes)
    (hlow : c.toNat < 0x80) : ∃ byte ∈ bytes, byte.toNat = c.toNat :=
  mem_of_mem_decodeFrom validBegun_none hc hlow

theorem leadByte_ascii {byte : UInt8} (hbyte : byte.toNat < 0x80) :
    leadByte byte.toNat = ([Char.ofNat byte.toNat], none) := by
  rw [leadByte, if_pos hbyte]

/-- A byte of ASCII ends what came before, and is read as itself, so a text can be decoded in
parts around it. -/
theorem decodeFrom_ascii {begun : Option Partial} (hbegun : ValidBegun begun)
    (bytes rest : List UInt8) {byte : UInt8} (hbyte : byte.toNat < 0x80) :
    decodeFrom begun (bytes ++ byte :: rest) =
      decodeFrom begun bytes ++ Char.ofNat byte.toNat :: decodeFrom none rest := by
  induction bytes generalizing begun with
  | nil =>
      rw [List.nil_append, decodeFrom_cons]
      cases begun with
      | none =>
          rw [decodeStep]
          simp only [leadByte_ascii hbyte]
          rfl
      | some char =>
          have hrange : ¬ (char.lower ≤ byte.toNat ∧ byte.toNat ≤ char.upper) := by
            have hlower := (hbegun char rfl).lower
            omega
          rw [decodeStep]
          simp only [if_neg hrange, leadByte_ascii hbyte]
          rfl
  | cons first bytes ih =>
      rw [List.cons_append, decodeFrom_cons, decodeFrom_cons,
        ih (decodeStep_valid hbegun first).1, List.append_assoc]

theorem decodeUtf8_ascii (bytes rest : List UInt8) {byte : UInt8} (hbyte : byte.toNat < 0x80) :
    decodeUtf8 (bytes ++ byte :: rest) =
      decodeUtf8 bytes ++ Char.ofNat byte.toNat :: decodeUtf8 rest :=
  decodeFrom_ascii validBegun_none bytes rest hbyte

/- ASCII text -/

theorem decodeUtf8_eq_latin1 {bytes : List UInt8} (hbytes : ∀ byte ∈ bytes, byte.toNat < 0x80) :
    decodeUtf8 bytes = latin1 bytes := by
  induction bytes with
  | nil => rfl
  | cons byte rest ih =>
      rw [List.forall_mem_cons] at hbytes
      have hstep := decodeUtf8_ascii [] rest hbytes.1
      rw [List.nil_append] at hstep
      rw [hstep, ih hbytes.2]
      rfl

theorem decodeFrom_ne_nil (begun : Option Partial) {bytes : List UInt8} (hbytes : bytes ≠ []) :
    decodeFrom begun bytes ≠ [] := by
  induction bytes generalizing begun with
  | nil => exact absurd rfl hbytes
  | cons byte rest ih =>
      rw [decodeFrom_cons]
      intro hnil
      obtain ⟨hemits, hlater⟩ := List.append_eq_nil_iff.mp hnil
      cases rest with
      | cons next rest => exact ih _ (List.cons_ne_nil next rest) hlater
      | nil =>
          have hlead : (leadByte byte.toNat).1 = [] → (leadByte byte.toNat).2 ≠ none := by
            rw [leadByte]
            split <;> (try split) <;> (try split) <;> (try split) <;> simp
          have hbegun : (decodeStep begun byte).2 ≠ none := by
            cases begun with
            | none => exact hlead hemits
            | some char =>
                rw [decodeStep] at hemits ⊢
                dsimp only at hemits ⊢
                split at hemits
                · rename_i hrange
                  rw [if_pos hrange]
                  split at hemits
                  · cases hemits
                  · rename_i hmore
                    rw [if_neg hmore]
                    nofun
                · cases hemits
          obtain ⟨char, hchar⟩ := Option.ne_none_iff_exists'.mp hbegun
          rw [hchar] at hlater
          cases hlater

theorem decodeUtf8_ne_nil {bytes : List UInt8} (hbytes : bytes ≠ []) : decodeUtf8 bytes ≠ [] :=
  decodeFrom_ne_nil none hbytes

theorem decodeStep_high {begun : Option Partial} (hbegun : ValidBegun begun) {byte : UInt8}
    (hhigh : begun ≠ none ∨ 0x80 ≤ byte.toNat) :
    (decodeStep begun byte).2 ≠ none ∨ ∃ c ∈ (decodeStep begun byte).1, 0x80 ≤ c.toNat := by
  cases begun with
  | none =>
      have hbyte : ¬ byte.toNat < 0x80 := by
        rcases hhigh with hnone | hbyte
        · exact absurd rfl hnone
        · exact Nat.not_lt.mpr hbyte
      rw [decodeStep, leadByte, if_neg hbyte]
      split
      · exact Or.inl (Option.some_ne_none _)
      split
      · exact Or.inl (Option.some_ne_none _)
      split
      · exact Or.inl (Option.some_ne_none _)
      · exact Or.inr ⟨replacement, List.mem_cons_self, by decide⟩
  | some char =>
      have hemits := (decodeStep_valid hbegun byte).2
      rw [decodeStep] at hemits ⊢
      dsimp only at hemits ⊢
      split
      · rename_i hrange
        rw [if_pos hrange] at hemits
        split
        · rename_i hlast
          rw [if_pos hlast] at hemits
          refine Or.inr ⟨_, List.mem_cons_self, ?_⟩
          by_contra hlow
          have heq := hemits _ List.mem_cons_self (Nat.not_le.mp hlow)
          have hlower := (hbegun char rfl).lower
          omega
        · exact Or.inl (Option.some_ne_none _)
      · exact Or.inr ⟨replacement, List.mem_cons_self, by decide⟩

/-- Any other byte leaves a character that is not of ASCII, a replacement character if nothing
else. -/
theorem exists_high {begun : Option Partial} (hbegun : ValidBegun begun) {bytes : List UInt8}
    (hhigh : begun ≠ none ∨ ∃ byte ∈ bytes, 0x80 ≤ byte.toNat) :
    ∃ c ∈ decodeFrom begun bytes, 0x80 ≤ c.toNat := by
  induction bytes generalizing begun with
  | nil =>
      rcases hhigh with hsome | ⟨byte, hbyte, -⟩
      · obtain ⟨char, rfl⟩ := Option.ne_none_iff_exists'.mp hsome
        exact ⟨replacement, List.mem_cons_self, by decide⟩
      · cases hbyte
  | cons byte rest ih =>
      have hnext := (decodeStep_valid hbegun byte).1
      rw [decodeFrom_cons]
      have hlater : ((decodeStep begun byte).2 ≠ none ∨ ∃ later ∈ rest, 0x80 ≤ later.toNat) →
          ∃ c ∈ (decodeStep begun byte).1 ++ decodeFrom (decodeStep begun byte).2 rest,
            0x80 ≤ c.toNat := by
        intro hlater
        obtain ⟨c, hc, hchar⟩ := ih hnext hlater
        exact ⟨c, List.mem_append_right _ hc, hchar⟩
      have hhere : (begun ≠ none ∨ 0x80 ≤ byte.toNat) →
          ∃ c ∈ (decodeStep begun byte).1 ++ decodeFrom (decodeStep begun byte).2 rest,
            0x80 ≤ c.toNat := by
        intro hhere
        rcases decodeStep_high hbegun hhere with hsome | ⟨c, hc, hchar⟩
        · exact hlater (Or.inl hsome)
        · exact ⟨c, List.mem_append_left _ hc, hchar⟩
      rcases hhigh with hsome | ⟨found, hfound, hhigh⟩
      · exact hhere (Or.inl hsome)
      · rcases List.mem_cons.mp hfound with rfl | hfound
        · exact hhere (Or.inr hhigh)
        · exact hlater (Or.inr ⟨found, hfound, hhigh⟩)

theorem latin1_injective {bytes others : List UInt8} (heq : latin1 bytes = latin1 others) :
    bytes = others := by
  have hinjective : Function.Injective fun byte : UInt8 => Char.ofNat byte.toNat := by
    intro byte other hsame
    have hbyte := byte.toNat_lt
    have hother := other.toNat_lt
    have hnat := congrArg Char.toNat hsame
    simp only at hnat
    rw [toNat_ofNat (by omega), toNat_ofNat (by omega)] at hnat
    exact UInt8.toNat_inj.mp hnat
  exact List.map_injective_iff.mpr hinjective heq

/-- ASCII text is read from its own bytes only. A name that is compared as text is therefore
compared as bytes. -/
theorem decodeUtf8_eq_iff {text bytes : List UInt8} (htext : ∀ byte ∈ text, byte.toNat < 0x80) :
    decodeUtf8 bytes = latin1 text ↔ bytes = text := by
  constructor
  · intro heq
    have hbytes : ∀ byte ∈ bytes, byte.toNat < 0x80 := by
      by_contra hhigh
      simp only [not_forall, Nat.not_lt] at hhigh
      obtain ⟨byte, hbyte, hhigh⟩ := hhigh
      obtain ⟨c, hc, hchar⟩ := exists_high validBegun_none (Or.inr ⟨byte, hbyte, hhigh⟩)
      rw [decodeUtf8] at heq
      rw [heq] at hc
      obtain ⟨source, hsource, rfl⟩ := List.mem_map.mp hc
      have hlow := htext source hsource
      rw [toNat_ofNat (by omega)] at hchar
      omega
    rw [decodeUtf8_eq_latin1 hbytes] at heq
    exact latin1_injective heq
  · rintro rfl
    exact decodeUtf8_eq_latin1 htext

/-- The last character, when it is of ASCII, is the last byte, whatever was begun before. -/
theorem decodeFrom_getLast {begun : Option Partial} (hbegun : ValidBegun begun)
    {bytes : List UInt8} {c : Char} (hlast : (decodeFrom begun bytes).getLast? = some c)
    (hlow : c.toNat < 0x80) : ∃ byte, bytes.getLast? = some byte ∧ byte.toNat = c.toNat := by
  induction bytes generalizing begun with
  | nil =>
      rw [decodeFrom_nil begun c (List.mem_of_getLast? hlast)] at hlow
      exact absurd hlow (by decide)
  | cons byte rest ih =>
      obtain ⟨hnext, hemits⟩ := decodeStep_valid hbegun byte
      rw [decodeFrom_cons] at hlast
      cases rest with
      | nil =>
          refine ⟨byte, rfl, ?_⟩
          rcases List.mem_append.mp (List.mem_of_getLast? hlast) with hc | hc
          · exact (hemits c hc hlow).symm
          · rw [decodeFrom_nil _ c hc] at hlow
            exact absurd hlow (by decide)
      | cons later rest =>
          have hlater : decodeFrom (decodeStep begun byte).2 (later :: rest) ≠ [] :=
            decodeFrom_ne_nil _ (List.cons_ne_nil later rest)
          rw [List.getLast?_append_of_ne_nil _ hlater] at hlast
          obtain ⟨found, hfound, heq⟩ := ih hnext hlast
          exact ⟨found, by rw [List.getLast?_cons_cons]; exact hfound, heq⟩

/- Parts between separators -/

theorem decodeUtf8_intercalate {sep : UInt8} (hsep : sep.toNat < 0x80)
    (parts : List (List UInt8)) :
    decodeUtf8 ([sep].intercalate parts) =
      [Char.ofNat sep.toNat].intercalate (parts.map decodeUtf8) := by
  induction parts with
  | nil => rfl
  | cons part parts ih =>
      cases parts with
      | nil =>
          rw [List.map_cons, List.map_nil, List.intercalate_singleton, List.intercalate_singleton]
      | cons next parts =>
          rw [List.intercalate_cons_cons, List.map_cons, List.map_cons,
            List.intercalate_cons_cons, ← List.map_cons, ← ih, List.append_assoc,
            List.append_assoc]
          exact decodeUtf8_ascii part _ hsep

/-- The parts between bytes of ASCII are read on their own, so splitting before or after the
decoding is the same. -/
theorem decodeUtf8_splitOn {sep : UInt8} (hsep : sep.toNat < 0x80) (bytes : List UInt8) :
    (decodeUtf8 bytes).splitOn (Char.ofNat sep.toNat) =
      (bytes.splitOn sep).map decodeUtf8 := by
  have hparts : ∀ part ∈ (bytes.splitOn sep).map decodeUtf8, Char.ofNat sep.toNat ∉ part := by
    intro part hpart hmem
    obtain ⟨source, hsource, rfl⟩ := List.mem_map.mp hpart
    have hchar : (Char.ofNat sep.toNat).toNat = sep.toNat := toNat_ofNat (by omega)
    obtain ⟨byte, hbyte, heq⟩ := mem_of_mem_decodeUtf8 hmem (by omega)
    have hsame : byte = sep := UInt8.toNat_inj.mp (heq.trans hchar)
    rw [hsame] at hbyte
    exact notMem_of_mem_splitOn hsource hbyte
  have hne : (bytes.splitOn sep).map decodeUtf8 ≠ [] := by
    rw [ne_eq, List.map_eq_nil_iff]
    exact List.splitOn_ne_nil sep bytes
  have hjoined : [sep].intercalate (bytes.splitOn sep) = bytes := List.intercalate_splitOn sep
  have hread := decodeUtf8_intercalate hsep (bytes.splitOn sep)
  rw [hjoined] at hread
  rw [hread, List.splitOn_intercalate _ hparts hne]

/- Writing -/

/-- The bytes of a text in UTF-8. -/
def encodeUtf8 (text : List Char) : List UInt8 := text.flatMap String.utf8EncodeChar

theorem decodeFrom_more {char : Partial} {byte : UInt8} (rest : List UInt8)
    (hrange : char.lower ≤ byte.toNat ∧ byte.toNat ≤ char.upper) (hmore : char.needed ≠ 1) :
    decodeFrom (some char) (byte :: rest) =
      decodeFrom (some ⟨char.code * 64 + (byte.toNat - 0x80), char.needed - 1, 0x80, 0xbf⟩)
        rest := by
  rw [decodeFrom_cons, decodeStep]
  dsimp only
  rw [if_pos hrange, if_neg hmore, List.nil_append]

theorem decodeFrom_last {char : Partial} {byte : UInt8} (rest : List UInt8)
    (hrange : char.lower ≤ byte.toNat ∧ byte.toNat ≤ char.upper) (hlast : char.needed = 1) :
    decodeFrom (some char) (byte :: rest) =
      Char.ofNat (char.code * 64 + (byte.toNat - 0x80)) :: decodeFrom none rest := by
  rw [decodeFrom_cons, decodeStep]
  dsimp only
  rw [if_pos hrange, if_pos hlast]
  rfl

theorem decodeFrom_lead {byte : UInt8} {char : Partial} (rest : List UInt8)
    (hlead : leadByte byte.toNat = ([], some char)) :
    decodeFrom none (byte :: rest) = decodeFrom (some char) rest := by
  rw [decodeFrom_cons, decodeStep, hlead, List.nil_append]

theorem toNat_continuation (value : Nat) :
    (UInt8.ofNat (value % 64 + 0x80)).toNat = value % 64 + 0x80 := by
  rw [UInt8.toNat_ofNat']
  omega

theorem continuation_range (value : Nat) :
    0x80 ≤ (UInt8.ofNat (value % 64 + 0x80)).toNat ∧
      (UInt8.ofNat (value % 64 + 0x80)).toNat ≤ 0xbf := by
  rw [toNat_continuation]
  omega

theorem three_parts (value : Nat) : (value / 4096 * 64 + value / 64 % 64) * 64 + value % 64 = value := by
  omega

theorem four_parts (value : Nat) :
    ((value / 262144 * 64 + value / 4096 % 64) * 64 + value / 64 % 64) * 64 + value % 64 = value := by
  omega

theorem decodeFrom_encodeChar (c : Char) (rest : List UInt8) :
    decodeFrom none (String.utf8EncodeChar c ++ rest) = c :: decodeFrom none rest := by
  have hvalid : c.toNat < 0xd800 ∨ 0xdfff < c.toNat ∧ c.toNat < 0x110000 := c.valid
  have hchar : ∀ code, code = c.toNat → Char.ofNat code = c := by
    rintro code rfl
    exact Char.ofNat_toNat c
  have hval : c.val.toNat = c.toNat := rfl
  simp only [String.utf8EncodeChar, hval]
  split
  · have hbyte : (UInt8.ofNat c.toNat).toNat = c.toNat := by
      rw [UInt8.toNat_ofNat']
      omega
    rw [List.cons_append, List.nil_append, decodeFrom_cons, decodeStep,
      leadByte_ascii (by omega), hbyte, hchar _ rfl]
    rfl
  split
  · have hlead : leadByte (UInt8.ofNat (c.toNat / 64 % 32 + 0xc0)).toNat =
        ([], some ⟨c.toNat / 64, 1, 0x80, 0xbf⟩) := by
      have hbyte : (UInt8.ofNat (c.toNat / 64 % 32 + 0xc0)).toNat = c.toNat / 64 + 0xc0 := by
        rw [UInt8.toNat_ofNat']
        omega
      rw [hbyte, leadByte, if_neg (by omega), if_pos (by omega), Nat.add_sub_cancel]
    have hlast := toNat_continuation c.toNat
    rw [List.cons_append, List.cons_append, List.nil_append, decodeFrom_lead _ hlead,
      decodeFrom_last rest (continuation_range c.toNat) rfl]
    dsimp only
    rw [hchar _ (by omega)]
  split
  · have hlead : leadByte (UInt8.ofNat (c.toNat / 4096 % 16 + 0xe0)).toNat =
        ([], some ⟨c.toNat / 4096, 2, if c.toNat / 4096 + 0xe0 = 0xe0 then 0xa0 else 0x80,
          if c.toNat / 4096 + 0xe0 = 0xed then 0x9f else 0xbf⟩) := by
      have hbyte : (UInt8.ofNat (c.toNat / 4096 % 16 + 0xe0)).toNat =
          c.toNat / 4096 + 0xe0 := by
        rw [UInt8.toNat_ofNat']
        omega
      rw [hbyte, leadByte, if_neg (by omega), if_neg (by omega), if_pos (by omega),
        Nat.add_sub_cancel]
    have hmiddle := toNat_continuation (c.toNat / 64)
    have hlast := toNat_continuation c.toNat
    have hrange : (if c.toNat / 4096 + 0xe0 = 0xe0 then 0xa0 else 0x80) ≤
          (UInt8.ofNat (c.toNat / 64 % 64 + 0x80)).toNat ∧
        (UInt8.ofNat (c.toNat / 64 % 64 + 0x80)).toNat ≤
          if c.toNat / 4096 + 0xe0 = 0xed then 0x9f else 0xbf := by
      constructor
      · split <;> omega
      · split <;> omega
    rw [List.cons_append, List.cons_append, List.cons_append, List.nil_append,
      decodeFrom_lead _ hlead, decodeFrom_more, decodeFrom_last]
    · dsimp only
      rw [hmiddle, hlast, Nat.add_sub_cancel, Nat.add_sub_cancel, hchar _ (three_parts c.toNat)]
    · exact continuation_range c.toNat
    · rfl
    · dsimp only
      exact hrange
    · exact Nat.succ_succ_ne_one 0
  · have hlead : leadByte (UInt8.ofNat (c.toNat / 262144 % 8 + 0xf0)).toNat =
        ([], some ⟨c.toNat / 262144, 3, if c.toNat / 262144 + 0xf0 = 0xf0 then 0x90 else 0x80,
          if c.toNat / 262144 + 0xf0 = 0xf4 then 0x8f else 0xbf⟩) := by
      have hbyte : (UInt8.ofNat (c.toNat / 262144 % 8 + 0xf0)).toNat =
          c.toNat / 262144 + 0xf0 := by
        rw [UInt8.toNat_ofNat']
        omega
      rw [hbyte, leadByte, if_neg (by omega), if_neg (by omega), if_neg (by omega),
        if_pos (by omega), Nat.add_sub_cancel]
    have hsecond := toNat_continuation (c.toNat / 4096)
    have hthird := toNat_continuation (c.toNat / 64)
    have hlast := toNat_continuation c.toNat
    have hrange : (if c.toNat / 262144 + 0xf0 = 0xf0 then 0x90 else 0x80) ≤
          (UInt8.ofNat (c.toNat / 4096 % 64 + 0x80)).toNat ∧
        (UInt8.ofNat (c.toNat / 4096 % 64 + 0x80)).toNat ≤
          if c.toNat / 262144 + 0xf0 = 0xf4 then 0x8f else 0xbf := by
      constructor
      · split <;> omega
      · split <;> omega
    rw [List.cons_append, List.cons_append, List.cons_append, List.cons_append,
      List.nil_append, decodeFrom_lead _ hlead, decodeFrom_more, decodeFrom_more,
      decodeFrom_last]
    · dsimp only
      rw [hsecond, hthird, hlast, Nat.add_sub_cancel, Nat.add_sub_cancel, Nat.add_sub_cancel,
        hchar _ (four_parts c.toNat)]
    · exact continuation_range c.toNat
    · rfl
    · exact continuation_range (c.toNat / 64)
    · exact Nat.succ_succ_ne_one 0
    · dsimp only
      exact hrange
    · exact Nat.succ_succ_ne_one 1

theorem decodeUtf8_encodeUtf8 (text : List Char) : decodeUtf8 (encodeUtf8 text) = text := by
  induction text with
  | nil => rfl
  | cons c text ih =>
      rw [encodeUtf8, List.flatMap_cons, decodeUtf8, decodeFrom_encodeChar]
      exact congrArg (c :: ·) ih

/-- The bytes are those of a text. -/
def IsUtf8 (bytes : List UInt8) : Prop := encodeUtf8 (decodeUtf8 bytes) = bytes

instance (bytes : List UInt8) : Decidable (IsUtf8 bytes) := inferInstanceAs (Decidable (_ = _))

theorem encodeUtf8_append (front later : List Char) :
    encodeUtf8 (front ++ later) = encodeUtf8 front ++ encodeUtf8 later :=
  List.flatMap_append

theorem encodeUtf8_intercalate {sep : UInt8} (hsep : encodeUtf8 [Char.ofNat sep.toNat] = [sep])
    (parts : List (List Char)) :
    encodeUtf8 ([Char.ofNat sep.toNat].intercalate parts) =
      [sep].intercalate (parts.map encodeUtf8) := by
  induction parts with
  | nil => rfl
  | cons part parts ih =>
      cases parts with
      | nil =>
          rw [List.map_cons, List.map_nil, List.intercalate_singleton, List.intercalate_singleton]
      | cons next parts =>
          rw [List.intercalate_cons_cons, List.map_cons, List.map_cons,
            List.intercalate_cons_cons, ← List.map_cons, ← ih, encodeUtf8_append,
            encodeUtf8_append, hsep]

/-- The parts of a text in UTF-8 are in UTF-8, if it is split at a byte of ASCII. -/
theorem IsUtf8.of_mem_splitOn {bytes part : List UInt8} {sep : UInt8} (hsep : sep.toNat < 0x80)
    (hchar : encodeUtf8 [Char.ofNat sep.toNat] = [sep]) (hbytes : IsUtf8 bytes)
    (hpart : part ∈ bytes.splitOn sep) : IsUtf8 part := by
  have hwritten : ∀ part ∈ (bytes.splitOn sep).map fun part => encodeUtf8 (decodeUtf8 part),
      sep ∉ part := by
    intro written hwritten hmem
    obtain ⟨source, hsource, rfl⟩ := List.mem_map.mp hwritten
    obtain ⟨front, later, hsplit⟩ := List.append_of_mem hmem
    have hread := congrArg decodeUtf8 hsplit
    rw [decodeUtf8_encodeUtf8, decodeUtf8_ascii front later hsep] at hread
    have hfound : Char.ofNat sep.toNat ∈ decodeUtf8 source := by
      rw [hread]
      exact List.mem_append_right _ List.mem_cons_self
    have hlow : (Char.ofNat sep.toNat).toNat = sep.toNat := toNat_ofNat (by omega)
    obtain ⟨byte, hbyte, heq⟩ := mem_of_mem_decodeUtf8 hfound (by omega)
    have hsame : byte = sep := UInt8.toNat_inj.mp (heq.trans hlow)
    rw [hsame] at hbyte
    exact notMem_of_mem_splitOn hsource hbyte
  have hjoined : [sep].intercalate (bytes.splitOn sep) = bytes := List.intercalate_splitOn sep
  have hrejoined : [sep].intercalate
      ((bytes.splitOn sep).map fun part => encodeUtf8 (decodeUtf8 part)) = bytes := by
    have hread : [Char.ofNat sep.toNat].intercalate ((bytes.splitOn sep).map decodeUtf8) =
        decodeUtf8 bytes := by
      rw [← decodeUtf8_intercalate hsep, hjoined]
    have hcomp := encodeUtf8_intercalate hchar ((bytes.splitOn sep).map decodeUtf8)
    rw [hread, List.map_map, hbytes] at hcomp
    exact hcomp.symm
  have hne : (bytes.splitOn sep).map (fun part => encodeUtf8 (decodeUtf8 part)) ≠ [] := by
    rw [ne_eq, List.map_eq_nil_iff]
    exact List.splitOn_ne_nil sep bytes
  have hsame := List.splitOn_intercalate sep hwritten hne
  rw [hrejoined] at hsame
  have hall : ∀ part ∈ bytes.splitOn sep, encodeUtf8 (decodeUtf8 part) = id part :=
    List.map_inj_left.mp (hsame.symm.trans (List.map_id _).symm)
  exact hall part hpart

end ScriptText

end MailPanel

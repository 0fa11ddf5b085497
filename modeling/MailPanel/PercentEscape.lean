import MailPanel.PercentText

/-
Text with the bytes of every character that is not kept written as percent signs and digits,
and what a reader of bytes makes of it.
-/

namespace MailPanel

namespace PercentEscape

open ScriptText

abbrev Text := List Char

def upperHex (digit : Nat) : Char :=
  if digit < 10 then Char.ofNat ('0'.toNat + digit) else Char.ofNat ('A'.toNat + (digit - 10))

theorem upperHex_spec : ∀ digit < 16,
    hexDigit? (upperHex digit) = some digit ∧ (upperHex digit).isAlphanum = true := by
  decide

def percentByte (byte : UInt8) : Text :=
  ['%', upperHex (byte.toNat / 16), upperHex (byte.toNat % 16)]

/-- A percent sign that does not stand before two digits is read as itself. -/
def percentDecode : Text → List UInt8
  | [] => []
  | '%' :: high :: low :: rest =>
      match hexDigit? high, hexDigit? low with
      | some upper, some lower => UInt8.ofNat (upper * 16 + lower) :: percentDecode rest
      | _, _ => String.utf8EncodeChar '%' ++ percentDecode (high :: low :: rest)
  | c :: rest => String.utf8EncodeChar c ++ percentDecode rest

theorem percentDecode_of_ne {c : Char} (hc : c ≠ '%') (rest : Text) :
    percentDecode (c :: rest) = String.utf8EncodeChar c ++ percentDecode rest := by
  rw [percentDecode]
  intro high low rest hpercent
  exact absurd hpercent hc

theorem percentDecode_percentByte (byte : UInt8) (rest : Text) :
    percentDecode (percentByte byte ++ rest) = byte :: percentDecode rest := by
  have hbyte : byte.toNat < 256 := byte.toNat_lt
  have hhigh := (upperHex_spec (byte.toNat / 16) (by omega)).1
  have hlow := (upperHex_spec (byte.toNat % 16) (by omega)).1
  have hparts : byte.toNat / 16 * 16 + byte.toNat % 16 = byte.toNat := by
    omega
  rw [percentByte, List.cons_append, List.cons_append, List.cons_append, List.nil_append,
    percentDecode]
  simp only [hhigh, hlow, hparts, UInt8.ofNat_toNat]

variable (keep : Char → Bool)

def escapeChar (c : Char) : Text :=
  if keep c then [c] else (String.utf8EncodeChar c).flatMap percentByte

def escape (text : Text) : Text := text.flatMap (escapeChar keep)

theorem escape_cons (c : Char) (text : Text) :
    escape keep (c :: text) = escapeChar keep c ++ escape keep text :=
  List.flatMap_cons

theorem escape_append (front later : Text) :
    escape keep (front ++ later) = escape keep front ++ escape keep later :=
  List.flatMap_append

variable {keep : Char → Bool}

theorem percentDecode_bytes (bytes : List UInt8) (rest : Text) :
    percentDecode (bytes.flatMap percentByte ++ rest) = bytes ++ percentDecode rest := by
  induction bytes with
  | nil => rfl
  | cons byte bytes ih =>
      rw [List.flatMap_cons, List.append_assoc, percentDecode_percentByte, ih, List.cons_append]

theorem percentDecode_escapeChar (hpercent : keep '%' = false) (c : Char) (rest : Text) :
    percentDecode (escapeChar keep c ++ rest) =
      String.utf8EncodeChar c ++ percentDecode rest := by
  rw [escapeChar]
  by_cases hkeep : keep c = true
  · have hc : c ≠ '%' := by
      rintro rfl
      exact Bool.false_ne_true (hpercent.symm.trans hkeep)
    rw [if_pos hkeep, List.singleton_append, percentDecode_of_ne hc]
  · rw [if_neg hkeep, percentDecode_bytes]

theorem percentDecode_escape (hpercent : keep '%' = false) (text : Text) :
    percentDecode (escape keep text) = encodeUtf8 text := by
  induction text with
  | nil => rfl
  | cons c text ih =>
      rw [escape_cons, percentDecode_escapeChar hpercent, ih, encodeUtf8, encodeUtf8,
        List.flatMap_cons]

theorem encodeUtf8_injective : Function.Injective encodeUtf8 :=
  Function.LeftInverse.injective decodeUtf8_encodeUtf8

theorem escape_injective (hpercent : keep '%' = false) : Function.Injective (escape keep) := by
  intro text other hescape
  have hbytes := congrArg percentDecode hescape
  rw [percentDecode_escape hpercent, percentDecode_escape hpercent] at hbytes
  exact encodeUtf8_injective hbytes

theorem escape_eq_nil_iff {text : Text} (hpercent : keep '%' = false) :
    escape keep text = [] ↔ text = [] :=
  (escape_injective hpercent).eq_iff' rfl

theorem mem_escape {text : Text} {c : Char} (hmem : c ∈ escape keep text) :
    keep c = true ∨ c = '%' ∨ c.isAlphanum = true := by
  obtain ⟨d, -, hc⟩ := List.mem_flatMap.mp hmem
  rw [escapeChar] at hc
  by_cases hkeep : keep d = true
  · rw [if_pos hkeep, List.mem_singleton] at hc
    exact Or.inl (hc ▸ hkeep)
  · rw [if_neg hkeep] at hc
    obtain ⟨byte, -, hdigit⟩ := List.mem_flatMap.mp hc
    have hbyte : byte.toNat < 256 := byte.toNat_lt
    rw [percentByte, List.mem_cons, List.mem_cons, List.mem_singleton] at hdigit
    rcases hdigit with rfl | rfl | rfl
    · exact Or.inr (Or.inl rfl)
    · exact Or.inr (Or.inr (upperHex_spec _ (by omega)).2)
    · exact Or.inr (Or.inr (upperHex_spec _ (by omega)).2)

/- Escapes -/

/-- Somewhere a percent sign stands before two digits. -/
def hasEscape : Text → Bool
  | [] => false
  | '%' :: high :: low :: rest =>
      (hexDigit? high).isSome && (hexDigit? low).isSome || hasEscape (high :: low :: rest)
  | _ :: rest => hasEscape rest

theorem encodeUtf8_cons (c : Char) (text : Text) :
    encodeUtf8 (c :: text) = String.utf8EncodeChar c ++ encodeUtf8 text :=
  List.flatMap_cons

theorem length_utf8EncodeChar_pos (c : Char) : 0 < (String.utf8EncodeChar c).length := by
  rw [String.length_utf8EncodeChar]
  exact c.utf8Size_pos

theorem length_percentDecode_le (text : Text) :
    (percentDecode text).length ≤ (encodeUtf8 text).length := by
  induction text using percentDecode.induct with
  | case1 => exact Nat.le_refl 0
  | case2 high low rest upper lower hhigh hlow ih =>
      have hpercent := length_utf8EncodeChar_pos '%'
      rw [percentDecode]
      simp only [hhigh, hlow, encodeUtf8_cons, List.length_cons, List.length_append]
      omega
  | case3 high low rest hnot ih =>
      rw [percentDecode]
      split
      · rename_i upper lower hhigh hlow
        exact absurd hlow (hnot upper lower hhigh)
      · rw [encodeUtf8_cons, List.length_append, List.length_append]
        omega
  | case4 c rest hnot ih =>
      rw [percentDecode]
      · rw [encodeUtf8_cons, List.length_append, List.length_append]
        omega
      · exact hnot

/-- Reading the escapes leaves a text alone only if it has none, since each of them makes one
byte of three. -/
theorem percentDecode_eq_iff (text : Text) :
    percentDecode text = encodeUtf8 text ↔ hasEscape text = false := by
  induction text using percentDecode.induct with
  | case1 => exact iff_of_true rfl rfl
  | case2 high low rest upper lower hhigh hlow ih =>
      have hfound : hasEscape ('%' :: high :: low :: rest) = true := by
        rw [hasEscape, hhigh, hlow]
        rfl
      have hpercent := length_utf8EncodeChar_pos '%'
      have hfirst := length_utf8EncodeChar_pos high
      have hsecond := length_utf8EncodeChar_pos low
      have hrest := length_percentDecode_le rest
      refine iff_of_false ?_ (Bool.ne_false_iff.mpr hfound)
      intro heq
      have hlength := congrArg List.length heq
      rw [percentDecode] at hlength
      simp only [hhigh, hlow, encodeUtf8_cons, List.length_cons, List.length_append] at hlength
      omega
  | case3 high low rest hnot ih =>
      have hnone : ((hexDigit? high).isSome && (hexDigit? low).isSome) = false := by
        rw [Bool.eq_false_iff]
        intro hboth
        obtain ⟨hhigh, hlow⟩ := Bool.and_eq_true_iff.mp hboth
        obtain ⟨upper, hupper⟩ := Option.isSome_iff_exists.mp hhigh
        obtain ⟨lower, hlower⟩ := Option.isSome_iff_exists.mp hlow
        exact hnot upper lower hupper hlower
      rw [hasEscape, hnone, Bool.false_or, ← ih, percentDecode]
      split
      · rename_i upper lower hhigh hlow
        exact absurd hlow (hnot upper lower hhigh)
      · rw [encodeUtf8_cons]
        exact List.append_right_inj _
  | case4 c rest hnot ih =>
      rw [hasEscape, ← ih, percentDecode, encodeUtf8_cons]
      · exact List.append_right_inj _
      · exact hnot
      · exact hnot

end PercentEscape

end MailPanel

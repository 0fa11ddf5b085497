import Mathlib.Data.Bool.AllAny
import Mathlib.Data.List.Basic

/-
Base64 in the alphabet of URLs, without padding.  A reader takes any text of the alphabet: it
drops the bits that do not fill a byte.
-/

namespace MailPanel

namespace Base64Url

def alphabet : List Char :=
  "ABCDEFGHIJKLMNOPQRSTUVWXYZabcdefghijklmnopqrstuvwxyz0123456789-_".toList

theorem alphabet_eq : alphabet =
    ['A', 'B', 'C', 'D', 'E', 'F', 'G', 'H', 'I', 'J', 'K', 'L', 'M', 'N', 'O', 'P', 'Q', 'R',
      'S', 'T', 'U', 'V', 'W', 'X', 'Y', 'Z', 'a', 'b', 'c', 'd', 'e', 'f', 'g', 'h', 'i', 'j',
      'k', 'l', 'm', 'n', 'o', 'p', 'q', 'r', 's', 't', 'u', 'v', 'w', 'x', 'y', 'z', '0', '1',
      '2', '3', '4', '5', '6', '7', '8', '9', '-', '_'] :=
  String.toList_ofList

def letter (value : Nat) : Char := alphabet.getD value 'A'

def sextet (c : Char) : Nat := alphabet.idxOf c

def encode : List UInt8 → List Char
  | [] => []
  | [a] => [letter (a.toNat / 4), letter (a.toNat % 4 * 16)]
  | [a, b] =>
      [letter (a.toNat / 4), letter (a.toNat % 4 * 16 + b.toNat / 16),
        letter (b.toNat % 16 * 4)]
  | a :: b :: c :: rest =>
      letter (a.toNat / 4) :: letter (a.toNat % 4 * 16 + b.toNat / 16) ::
        letter (b.toNat % 16 * 4 + c.toNat / 64) :: letter (c.toNat % 64) :: encode rest

/-- The bytes of a group; each needs a part of two letters. -/
def firstByte (a b : Char) : UInt8 := UInt8.ofNat (sextet a * 4 + sextet b / 16)

def secondByte (b c : Char) : UInt8 := UInt8.ofNat (sextet b % 16 * 16 + sextet c / 4)

def thirdByte (c d : Char) : UInt8 := UInt8.ofNat (sextet c % 4 * 64 + sextet d)

def decode : List Char → List UInt8
  | [] => []
  | [_] => []
  | [a, b] => [firstByte a b]
  | [a, b, c] => [firstByte a b, secondByte b c]
  | a :: b :: c :: d :: rest => firstByte a b :: secondByte b c :: thirdByte c d :: decode rest

example : encode [0x66, 0x6f, 0xff, 0xfe] = "Zm___g".toList ∧
    decode "Zm___h".toList = [0x66, 0x6f, 0xff, 0xfe] := by
  rw [String.toList_ofList, String.toList_ofList]
  simp only [encode, decode, firstByte, secondByte, thirdByte, sextet, letter, alphabet_eq]
  decide

/-- The letter that a character of either alphabet stands for. -/
def letter? (c : Char) : Option Char :=
  if c = '+' then some '-'
  else if c = '/' then some '_'
  else if c ∈ alphabet then some c
  else none

/-- `Buffer.from(text, 'base64')`: an `=` ends the text, and other characters are skipped. -/
def decodeLoose (text : List Char) : List UInt8 :=
  decode ((text.takeWhile fun c => c ≠ '=').filterMap letter?)

/-- A letter of the usual alphabet, for one of the alphabet of URLs. -/
def usualLetter (c : Char) : Char := if c = '-' then '+' else if c = '_' then '/' else c

/-- `toString('base64')`: the usual alphabet, padded to groups of four. -/
def encodePadded (bytes : List UInt8) : List Char :=
  (encode bytes).map usualLetter ++ List.replicate ((3 - bytes.length % 3) % 3) '='

theorem sextet_letter : ∀ value < 64, sextet (letter value) = value := by
  simp only [sextet, letter, alphabet_eq]
  decide

theorem ofNat_eq {byte : UInt8} {value : Nat} (hvalue : value = byte.toNat) :
    UInt8.ofNat value = byte := by
  rw [hvalue, UInt8.ofNat_toNat]

theorem decode_encode (bytes : List UInt8) : decode (encode bytes) = bytes := by
  induction bytes using encode.induct with
  | case1 => rfl
  | case2 a =>
      have ha := a.toNat_lt
      rw [encode, decode, firstByte, sextet_letter _ (by omega), sextet_letter _ (by omega),
        ofNat_eq (by omega : _ = a.toNat)]
  | case3 a b =>
      have ha := a.toNat_lt
      have hb := b.toNat_lt
      rw [encode, decode, firstByte, secondByte, sextet_letter _ (by omega),
        sextet_letter _ (by omega), sextet_letter _ (by omega),
        ofNat_eq (by omega : _ = a.toNat), ofNat_eq (by omega : _ = b.toNat)]
  | case4 a b c rest ih =>
      have ha := a.toNat_lt
      have hb := b.toNat_lt
      have hc := c.toNat_lt
      rw [encode, decode, firstByte, secondByte, thirdByte, sextet_letter _ (by omega),
        sextet_letter _ (by omega), sextet_letter _ (by omega), sextet_letter _ (by omega),
        ofNat_eq (by omega : _ = a.toNat), ofNat_eq (by omega : _ = b.toNat),
        ofNat_eq (by omega : _ = c.toNat), ih]

theorem length_encode (bytes : List UInt8) :
    (encode bytes).length = (bytes.length * 4 + 2) / 3 := by
  induction bytes using encode.induct with
  | case1 => rfl
  | case2 a => simp [encode]
  | case3 a b => simp [encode]
  | case4 a b c rest ih =>
      rw [encode]
      simp only [List.length_cons, ih]
      omega

/-- What is encoded is a text of the alphabet, so it holds no separator and needs no escape in a
URL. -/
theorem mem_encode {bytes : List UInt8} {c : Char} (hc : c ∈ encode bytes) : c ∈ alphabet := by
  have hletter : ∀ value, letter value ∈ alphabet := by
    intro value
    rw [letter, List.getD_eq_getElem?_getD]
    cases hget : alphabet[value]? with
    | none =>
        rw [alphabet_eq]
        exact List.mem_cons_self
    | some c => exact List.mem_of_getElem? hget
  induction bytes using encode.induct with
  | case1 => cases hc
  | case2 a =>
      simp only [encode, List.mem_cons, List.not_mem_nil, or_false] at hc
      rcases hc with rfl | rfl <;> exact hletter _
  | case3 a b =>
      simp only [encode, List.mem_cons, List.not_mem_nil, or_false] at hc
      rcases hc with rfl | rfl | rfl <;> exact hletter _
  | case4 a b d rest ih =>
      simp only [encode, List.mem_cons] at hc
      rcases hc with rfl | rfl | rfl | rfl | hrest
      · exact hletter _
      · exact hletter _
      · exact hletter _
      · exact hletter _
      · exact ih hrest

theorem usualLetter_spec : ∀ c ∈ alphabet,
    letter? (usualLetter c) = some c ∧ usualLetter c ≠ '=' := by
  simp only [letter?, alphabet_eq]
  exact List.all_iff_forall_prop.mp (by decide)

theorem takeWhile_usual {text : List Char} (htext : ∀ c ∈ text, c ∈ alphabet) (count : Nat) :
    (text.map usualLetter ++ List.replicate count '=').takeWhile (fun c => c ≠ '=') =
      text.map usualLetter := by
  induction text with
  | nil =>
      cases count with
      | zero => rfl
      | succ count => rfl
  | cons c text ih =>
      obtain ⟨hc, htext⟩ := List.forall_mem_cons.mp htext
      rw [List.map_cons, List.cons_append, List.takeWhile_cons_of_pos, ih htext]
      exact decide_eq_true (usualLetter_spec c hc).2

theorem filterMap_usual {text : List Char} (htext : ∀ c ∈ text, c ∈ alphabet) :
    (text.map usualLetter).filterMap letter? = text := by
  induction text with
  | nil => rfl
  | cons c text ih =>
      obtain ⟨hc, htext⟩ := List.forall_mem_cons.mp htext
      rw [List.map_cons, List.filterMap_cons_some (usualLetter_spec c hc).1, ih htext]

/-- What is written is read back. -/
theorem decodeLoose_encodePadded (bytes : List UInt8) : decodeLoose (encodePadded bytes) = bytes := by
  rw [decodeLoose, encodePadded, takeWhile_usual fun c hc => mem_encode hc,
    filterMap_usual fun c hc => mem_encode hc, decode_encode]

theorem length_encodePadded (bytes : List UInt8) :
    (encodePadded bytes).length = (bytes.length + 2) / 3 * 4 := by
  rw [encodePadded, List.length_append, List.length_map, length_encode, List.length_replicate]
  omega

theorem mem_encodePadded {bytes : List UInt8} {c : Char} (hc : c ∈ encodePadded bytes) :
    c ∈ alphabet.map usualLetter ++ ['='] := by
  rw [encodePadded] at hc
  rcases List.mem_append.mp hc with hc | hc
  · obtain ⟨d, hd, rfl⟩ := List.mem_map.mp hc
    exact List.mem_append_left _ (List.mem_map_of_mem (mem_encode hd))
  · rw [(List.mem_replicate.mp hc).2]
    exact List.mem_append_right _ List.mem_cons_self

end Base64Url

end MailPanel

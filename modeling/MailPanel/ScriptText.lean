import Mathlib.Data.Bool.AllAny
import Mathlib.Data.List.Basic
import Mathlib.Algebra.Ring.Nat
import Mathlib.Algebra.Ring.Int.Defs

/-
Text as the scripts of the panel see it: blanks, and bytes read as UTF-8.
-/

namespace MailPanel

namespace ScriptText

/-- Texts are compared character by character. -/
instance lawfulText : LawfulBEq (List Char) := inferInstance

/-- What `\s` matches and `trim` strips. -/
def isSpace (c : Char) : Bool :=
  c ∈ ['\t', '\n', '\x0b', '\x0c', '\r', ' ', '\u00a0', '\u1680', '\u2028', '\u2029', '\u202f',
    '\u205f', '\u3000', '\ufeff'] || (0x2000 ≤ c.toNat && c.toNat ≤ 0x200a)

def trim (text : List Char) : List Char :=
  ((text.dropWhile isSpace).reverse.dropWhile isSpace).reverse

/-- A character whose last bytes are still to come, and the bounds of the next one. -/
structure Partial where
  code : Nat
  needed : Nat
  lower : Nat
  upper : Nat
deriving DecidableEq, Repr

def replacement : Char := '\ufffd'

/-- What a first byte gives: a character, or the beginning of one. The bounds of the second byte
keep out what is too long or a surrogate. -/
def leadByte (byte : Nat) : List Char × Option Partial :=
  if byte < 0x80 then ([Char.ofNat byte], none)
  else if 0xc2 ≤ byte ∧ byte ≤ 0xdf then ([], some ⟨byte - 0xc0, 1, 0x80, 0xbf⟩)
  else if 0xe0 ≤ byte ∧ byte ≤ 0xef then
    ([], some ⟨byte - 0xe0, 2, if byte = 0xe0 then 0xa0 else 0x80,
      if byte = 0xed then 0x9f else 0xbf⟩)
  else if 0xf0 ≤ byte ∧ byte ≤ 0xf4 then
    ([], some ⟨byte - 0xf0, 3, if byte = 0xf0 then 0x90 else 0x80,
      if byte = 0xf4 then 0x8f else 0xbf⟩)
  else ([replacement], none)

/-- A byte that does not go on with a character is read again as a first byte. -/
def decodeFrom (begun : Option Partial) : List UInt8 → List Char
  | [] => if begun.isSome then [replacement] else []
  | byte :: rest =>
      match begun with
      | none => (leadByte byte.toNat).1 ++ decodeFrom (leadByte byte.toNat).2 rest
      | some char =>
          if char.lower ≤ byte.toNat ∧ byte.toNat ≤ char.upper then
            let code := char.code * 64 + (byte.toNat - 0x80)
            if char.needed = 1 then Char.ofNat code :: decodeFrom none rest
            else decodeFrom (some ⟨code, char.needed - 1, 0x80, 0xbf⟩) rest
          else
            replacement ::
              ((leadByte byte.toNat).1 ++ decodeFrom (leadByte byte.toNat).2 rest)

/-- `toString('utf8')`. -/
def decodeUtf8 (bytes : List UInt8) : List Char := decodeFrom none bytes

example : decodeUtf8 [0x6d, 0xc3, 0xa9, 0xff, 0xe2, 0x82] =
    ['m', 'é', replacement, replacement] := by
  decide

/-- `latin1` text of a field. -/
def latin1 (bytes : List UInt8) : List Char := bytes.map fun byte => Char.ofNat byte.toNat

/-- The number that digits below a base spell, most significant first. -/
def ofDigits (base : Nat) (digits : List Char) : Nat :=
  digits.foldl (fun value digit => value * base + (digit.toNat - '0'.toNat)) 0

/-- `Number.isSafeInteger`, for what is not negative. -/
def isSafeInteger (value : Nat) : Bool := value < 2 ^ 53

/-- Splitting loses nothing but the separator: every other character is in one of the pieces. -/
theorem mem_of_splitOn {sep c : Char} {text : List Char} (hc : c ∈ text) (hne : c ≠ sep) :
    ∃ piece ∈ text.splitOn sep, c ∈ piece := by
  induction text with
  | nil => exact absurd hc List.not_mem_nil
  | cons first rest ih =>
      rw [List.splitOn_cons_eq_if_modifyHead]
      split
      · rename_i hfirst
        rcases List.mem_cons.mp hc with rfl | hc
        · exact absurd (beq_iff_eq.mp hfirst) hne
        · obtain ⟨piece, hpiece, hmem⟩ := ih hc
          exact ⟨piece, List.mem_cons_of_mem _ hpiece, hmem⟩
      · cases hpieces : rest.splitOn sep with
        | nil => exact absurd hpieces (List.splitOn_ne_nil sep rest)
        | cons head pieces =>
            rw [hpieces] at ih
            rcases List.mem_cons.mp hc with rfl | hc
            · exact ⟨c :: head, List.mem_cons_self, List.mem_cons_self⟩
            · obtain ⟨piece, hpiece, hmem⟩ := ih hc
              rcases List.mem_cons.mp hpiece with rfl | hpiece
              · exact ⟨first :: piece, List.mem_cons_self, List.mem_cons_of_mem _ hmem⟩
              · exact ⟨piece, List.mem_cons_of_mem _ hpiece, hmem⟩

theorem notMem_of_mem_splitOn {α : Type} [DecidableEq α] {sep : α} {text part : List α}
    (hpart : part ∈ text.splitOn sep) : sep ∉ part := by
  induction text generalizing part with
  | nil =>
      rw [List.splitOn_nil] at hpart
      rw [List.mem_singleton.mp hpart]
      exact List.not_mem_nil
  | cons c text ih =>
      rw [List.splitOn_cons_eq_if_modifyHead] at hpart
      split at hpart
      · rcases List.mem_cons.mp hpart with rfl | hpart
        · exact List.not_mem_nil
        · exact ih hpart
      · rename_i hne
        cases hsplit : text.splitOn sep with
        | nil => exact absurd hsplit (List.splitOn_ne_nil sep text)
        | cons head tail =>
            rw [hsplit] at hpart ih
            rcases List.mem_cons.mp hpart with rfl | hpart
            · intro hmem
              rcases List.mem_cons.mp hmem with rfl | hmem
              · exact hne (beq_self_eq_true sep)
              · exact ih List.mem_cons_self hmem
            · exact ih (List.mem_cons_of_mem head hpart)

end ScriptText

end MailPanel

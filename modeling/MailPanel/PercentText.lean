import MailPanel.Utf8Text

/-
Text with percent-encoded bytes.  A reader takes a run of such bytes only if they are UTF-8.
-/

namespace MailPanel

namespace ScriptText

/-- A piece of percent-encoded text. -/
inductive Piece where
  | char (c : Char)
  | byte (value : UInt8)
deriving DecidableEq, Repr

def hexDigit? (c : Char) : Option Nat :=
  if '0' ≤ c ∧ c ≤ '9' then some (c.toNat - '0'.toNat)
  else if 'a' ≤ c ∧ c ≤ 'f' then some (c.toNat - 'a'.toNat + 10)
  else if 'A' ≤ c ∧ c ≤ 'F' then some (c.toNat - 'A'.toNat + 10)
  else none

/-- Every percent sign stands before two digits, or the text has no pieces at all. -/
def pieces? : List Char → Option (List Piece)
  | [] => some []
  | '%' :: high :: low :: rest =>
      match hexDigit? high, hexDigit? low, pieces? rest with
      | some high, some low, some pieces => some (.byte (UInt8.ofNat (high * 16 + low)) :: pieces)
      | _, _, _ => none
  | c :: rest =>
      if c = '%' then none
      else (pieces? rest).map fun pieces => .char c :: pieces

/-- The text of the pieces, after a run of bytes. A run ends with a character of its own, and
has to be UTF-8 by then. -/
def joined? (run : List UInt8) : List Piece → Option (List Char)
  | [] => if IsUtf8 run then some (decodeUtf8 run) else none
  | .byte value :: pieces => joined? (run ++ [value]) pieces
  | .char c :: pieces =>
      if IsUtf8 run then (joined? [] pieces).map fun text => decodeUtf8 run ++ c :: text
      else none

/-- `none` where it throws a `URIError`. -/
def decodeURIComponent (text : List Char) : Option (List Char) :=
  (pieces? text).bind (joined? [])

example : decodeURIComponent "a%3Ab%C3%a9".toList = some ['a', ':', 'b', 'é'] ∧
    decodeURIComponent "%".toList = none ∧ decodeURIComponent "%C3a".toList = none := by
  decide

end ScriptText

end MailPanel

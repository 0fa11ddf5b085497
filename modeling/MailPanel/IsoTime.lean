import Mathlib.Data.List.Basic

/-
Instants as ISO text.  The service stores and compares some times as the text
that `Date.prototype.toISOString` gives.
-/

namespace MailPanel

namespace IsoTime

/-- A number with leading zeros up to `width` digits. -/
def padded (width value : Nat) : List Char :=
  let digits := Nat.toDigits 10 value
  List.replicate (width - digits.length) '0' ++ digits

/-- The proleptic Gregorian date of a day counted from 1970-01-01, by the
400-year cycle that starts on the first of March. -/
def civilFromDays (days : Nat) : Nat × Nat × Nat :=
  let shifted := days + 719468
  let era := shifted / 146097
  let dayOfEra := shifted % 146097
  let yearOfEra :=
    (dayOfEra - dayOfEra / 1460 + dayOfEra / 36524 - dayOfEra / 146096) / 365
  let dayOfYear := dayOfEra - (365 * yearOfEra + yearOfEra / 4 - yearOfEra / 100)
  let shiftedMonth := (5 * dayOfYear + 2) / 153
  let day := dayOfYear - (153 * shiftedMonth + 2) / 5 + 1
  let month := if shiftedMonth < 10 then shiftedMonth + 3 else shiftedMonth - 9
  let year := yearOfEra + era * 400 + if month ≤ 2 then 1 else 0
  (year, month, day)

/-- Every instant a date can hold; a year from 10000 on has a sign and six digits. -/
def isoText (millis : Nat) : List Char :=
  let date := civilFromDays (millis / 86400000)
  let timeOfDay := millis % 86400000
  (if date.1 < 10000 then padded 4 date.1 else '+' :: padded 6 date.1) ++
    '-' :: padded 2 date.2.1 ++ '-' :: padded 2 date.2.2 ++
    'T' :: padded 2 (timeOfDay / 3600000) ++ ':' :: padded 2 (timeOfDay / 60000 % 60) ++
    ':' :: padded 2 (timeOfDay / 1000 % 60) ++ '.' :: padded 3 (timeOfDay % 1000) ++ ['Z']

def toISOString (millis : Nat) : String := String.ofList (isoText millis)

example : toISOString 951782400123 = "2000-02-29T00:00:00.123Z" ∧
    toISOString 253402300800000 = "+010000-01-01T00:00:00.000Z" := by
  decide

/-- The order of a text column. -/
def before (left right : Nat) : Bool :=
  decide (isoText left < isoText right)

end IsoTime

end MailPanel

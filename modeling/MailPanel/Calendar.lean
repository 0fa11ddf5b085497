import MailPanel.IsoTime
import Mathlib.Tactic.IntervalCases
import Mathlib.Order.Monotone.Basic
import Mathlib.Data.Int.ConditionallyCompleteOrder

/-
Dates of the proleptic Gregorian calendar and the days they denote, counted from
1970-01-01: both orders are the same, and every day from there on has its date.
-/

namespace MailPanel

namespace Calendar

open IsoTime

def isLeap (year : Nat) : Bool :=
  year % 4 = 0 && (year % 100 ≠ 0 || year % 400 = 0)

def daysInMonth (year month : Nat) : Nat :=
  if month = 2 then if isLeap year then 29 else 28
  else if month = 4 ∨ month = 6 ∨ month = 9 ∨ month = 11 then 30 else 31

structure ValidDate (year month day : Nat) : Prop where
  month_pos : 1 ≤ month
  month_le : month ≤ 12
  day_pos : 1 ≤ day
  day_le : day ≤ daysInMonth year month

/-- Days before the first of March of a year that begins there. -/
def daysBeforeYear (year : Int) : Int :=
  365 * year + year / 4 - year / 100 + year / 400

/-- Days of such a year before its months, counted from March. -/
def daysBeforeMonth (month : Nat) : Nat := (153 * month + 2) / 5

/-- The year and the month, counted from March. -/
def fromMarch (year month : Nat) : Int × Nat :=
  if month ≤ 2 then ((year : Int) - 1, month + 9) else (year, month - 3)

def daysFromCivil (year month day : Nat) : Int :=
  daysBeforeYear (fromMarch year month).1 + daysBeforeMonth (fromMarch year month).2 + day - 1 -
    719468

example : daysFromCivil 1970 1 1 = 0 ∧ daysFromCivil 0 1 1 = -719528 := by decide

/- Order -/

theorem daysBeforeYear_mono : Monotone daysBeforeYear := by
  apply monotone_int_of_le_succ
  intro year
  rw [daysBeforeYear, daysBeforeYear]
  omega

/-- A year from March on lasts to the end of the next February, where a leap day is its last
day. -/
theorem dayOfYear_lt {year month day : Nat} (hvalid : ValidDate year month day) :
    daysBeforeYear (fromMarch year month).1 + daysBeforeMonth (fromMarch year month).2 + day - 1 <
      daysBeforeYear ((fromMarch year month).1 + 1) := by
  obtain ⟨hpos, hle, -, hday⟩ := hvalid
  rw [daysInMonth, isLeap] at hday
  rw [daysBeforeYear, daysBeforeYear, fromMarch, daysBeforeMonth]
  by_cases hmarch : month ≤ 2
  · rw [if_pos hmarch]
    dsimp only
    interval_cases month
    · simp at hday
      omega
    · simp at hday
      split at hday <;> omega
  · rw [if_neg hmarch]
    dsimp only
    have hshort : day ≤ 31 := by
      split at hday
      · omega
      · split at hday <;> omega
    omega

/-- A month is over before the next one of its year begins. -/
theorem dayOfMonth_le {year month day next : Nat} (hvalid : ValidDate year month day)
    (hnext : (fromMarch year month).2 < next) (hlast : next ≤ 11) :
    daysBeforeMonth (fromMarch year month).2 + day ≤ daysBeforeMonth next := by
  obtain ⟨hpos, hle, -, hday⟩ := hvalid
  rw [daysInMonth] at hday
  rw [fromMarch] at hnext ⊢
  rw [daysBeforeMonth, daysBeforeMonth]
  by_cases hmarch : month ≤ 2
  · rw [if_pos hmarch] at hnext ⊢
    dsimp only at hnext ⊢
    have hjanuary : month = 1 := by omega
    rw [hjanuary] at hday ⊢
    simp at hday
    omega
  · rw [if_neg hmarch] at hnext ⊢
    dsimp only at hnext ⊢
    interval_cases month <;> simp at hday <;> omega

/-- The dates in their order: by year, month and day. -/
def Before (left right : Nat × Nat × Nat) : Prop :=
  left.1 < right.1 ∨ left.1 = right.1 ∧
    (left.2.1 < right.2.1 ∨ left.2.1 = right.2.1 ∧ left.2.2 < right.2.2)

theorem fromMarch_lt {year month year' month' : Nat} (hle : month ≤ 12) (hpos : 1 ≤ month')
    (hbefore : year < year' ∨ year = year' ∧ month < month') :
    (fromMarch year month).1 < (fromMarch year' month').1 ∨
      (fromMarch year month).1 = (fromMarch year' month').1 ∧
        (fromMarch year month).2 < (fromMarch year' month').2 := by
  rw [fromMarch, fromMarch]
  split
  · split
    · dsimp only
      omega
    · dsimp only
      omega
  · split
    · dsimp only
      omega
    · dsimp only
      omega

theorem daysFromCivil_lt {year month day year' month' day' : Nat}
    (hvalid : ValidDate year month day) (hvalid' : ValidDate year' month' day')
    (hbefore : Before (year, month, day) (year', month', day')) :
    daysFromCivil year month day < daysFromCivil year' month' day' := by
  have hday := hvalid'.day_pos
  rw [daysFromCivil, daysFromCivil]
  by_cases hsame : year = year' ∧ month = month'
  · obtain ⟨rfl, rfl⟩ := hsame
    have hdays : day < day' := by
      rcases hbefore with hyear | ⟨-, hmonth | ⟨-, hday⟩⟩
      · exact absurd hyear (Nat.lt_irrefl year)
      · exact absurd hmonth (Nat.lt_irrefl month)
      · exact hday
    omega
  · have hmonths : year < year' ∨ year = year' ∧ month < month' := by
      rcases hbefore with hyear | ⟨hyear, hmonth | ⟨hmonth, -⟩⟩
      · exact Or.inl hyear
      · exact Or.inr ⟨hyear, hmonth⟩
      · exact absurd ⟨hyear, hmonth⟩ hsame
    rcases fromMarch_lt hvalid.month_le hvalid'.month_pos hmonths with hyear | ⟨hyear, hmonth⟩
    · have hend := dayOfYear_lt hvalid
      have hmono := daysBeforeYear_mono (Int.add_one_le_iff.mpr hyear)
      omega
    · have hlast : (fromMarch year' month').2 ≤ 11 := by
        have hle := hvalid'.month_le
        rw [fromMarch]
        split
        · dsimp only
          omega
        · dsimp only
          omega
      have hover := dayOfMonth_le hvalid hmonth hlast
      rw [hyear]
      omega

theorem before_trichotomy (left right : Nat × Nat × Nat) :
    Before left right ∨ left = right ∨ Before right left := by
  obtain ⟨year, month, day⟩ := left
  obtain ⟨year', month', day'⟩ := right
  simp only [Before, Prod.mk.injEq]
  omega

theorem daysFromCivil_lt_iff {year month day year' month' day' : Nat}
    (hvalid : ValidDate year month day) (hvalid' : ValidDate year' month' day') :
    daysFromCivil year month day < daysFromCivil year' month' day' ↔
      Before (year, month, day) (year', month', day') := by
  constructor
  · intro hlt
    rcases before_trichotomy (year, month, day) (year', month', day') with
      hbefore | heq | hafter
    · exact hbefore
    · simp only [Prod.mk.injEq] at heq
      obtain ⟨rfl, rfl, rfl⟩ := heq
      exact absurd hlt (Int.lt_irrefl _)
    · exact absurd hlt (Int.not_lt.mpr (Int.le_of_lt (daysFromCivil_lt hvalid' hvalid hafter)))
  · exact daysFromCivil_lt hvalid hvalid'

/- Every day has its date -/

/-- A day of the 400-year cycle by its century, its four years, its year and its day. -/
theorem dayOfEra_parts {dayOfEra : Nat} (hday : dayOfEra < 146097) :
    ∃ century four year day, century ≤ 3 ∧ four ≤ 24 ∧ year ≤ 3 ∧
      (day ≤ 364 ∨ day = 365 ∧ year = 3 ∧ (four < 24 ∨ century = 3)) ∧
      dayOfEra = 36524 * century + 1461 * four + 365 * year + day := by
  have hcentury : ∃ century rest, century ≤ 3 ∧ dayOfEra = 36524 * century + rest ∧
      (rest < 36524 ∨ rest = 36524 ∧ century = 3) := by
    by_cases hlast : dayOfEra = 146096
    · exact ⟨3, 36524, by omega, by omega, by omega⟩
    · exact ⟨dayOfEra / 36524, dayOfEra % 36524, by omega, by omega, by omega⟩
  obtain ⟨century, rest, hcentury, rfl, hrest⟩ := hcentury
  refine ⟨century, rest / 1461, ?_⟩
  by_cases hlast : rest % 1461 = 1460
  · exact ⟨3, 365, hcentury, by omega, by omega, by omega, by omega⟩
  · exact ⟨rest % 1461 / 365, rest % 1461 % 365, hcentury, by omega, by omega, by omega, by omega⟩

theorem yearOfEra_eq {century four year day : Nat} (hcentury : century ≤ 3) (hfour : four ≤ 24)
    (hyear : year ≤ 3)
    (hday : day ≤ 364 ∨ day = 365 ∧ year = 3 ∧ (four < 24 ∨ century = 3)) {dayOfEra : Nat}
    (heq : dayOfEra = 36524 * century + 1461 * four + 365 * year + day) :
    (dayOfEra - dayOfEra / 1460 + dayOfEra / 36524 - dayOfEra / 146096) / 365 =
      100 * century + 4 * four + year := by
  have hcycle : dayOfEra / 36524 - dayOfEra / 146096 = century ∧
      dayOfEra / 146096 ≤ dayOfEra / 36524 := by
    by_cases hlast : dayOfEra = 146096
    · subst hlast
      omega
    · have hcentury' : dayOfEra / 36524 = century := by omega
      have hera : dayOfEra / 146096 = 0 := by omega
      omega
  by_cases hcarry : 1460 ≤ 24 * century + four + 365 * year + day
  · have hfours : dayOfEra / 1460 = 25 * century + four + 1 := by omega
    omega
  · have hfours : dayOfEra / 1460 = 25 * century + four := by omega
    omega

/-- The month of a day of the year, both counted from March. -/
def monthOf (dayOfYear : Nat) : Nat := (5 * dayOfYear + 2) / 153

theorem monthOf_spec {dayOfYear : Nat} (hday : dayOfYear ≤ 365) :
    monthOf dayOfYear ≤ 11 ∧ daysBeforeMonth (monthOf dayOfYear) ≤ dayOfYear ∧
      ∀ year, (dayOfYear = 365 → isLeap year = true) →
        dayOfYear - daysBeforeMonth (monthOf dayOfYear) + 1 ≤
          daysInMonth year (if monthOf dayOfYear < 10 then monthOf dayOfYear + 3
            else monthOf dayOfYear - 9) := by
  have hlast : monthOf dayOfYear ≤ 11 := by
    rw [monthOf]
    omega
  have hdays : daysBeforeMonth (monthOf dayOfYear) ≤ dayOfYear ∧
      dayOfYear < daysBeforeMonth (monthOf dayOfYear + 1) := by
    rw [daysBeforeMonth, daysBeforeMonth, monthOf]
    omega
  refine ⟨hlast, hdays.1, ?_⟩
  intro year hleap
  generalize monthOf dayOfYear = month at hlast hdays ⊢
  rw [daysBeforeMonth, daysBeforeMonth] at hdays
  rw [daysBeforeMonth, daysInMonth]
  by_cases hend : dayOfYear = 365
  · rw [hleap hend]
    interval_cases month <;> simp <;> omega
  · cases isLeap year <;> interval_cases month <;> simp <;> omega

/-- The years of a 400-year cycle, from March on. -/
theorem daysBeforeYear_era {century four ofFour : Nat} (hfour : four ≤ 24) (hyear : ofFour ≤ 3)
    (hcentury : century ≤ 3) (era : Nat) :
    daysBeforeYear ((100 * century + 4 * four + ofFour + era * 400 : Nat) : Int) =
      146097 * era + 36524 * century + 1461 * four + 365 * ofFour := by
  rw [daysBeforeYear]
  have hquarters : ((100 * century + 4 * four + ofFour + era * 400 : Nat) : Int) / 4 =
      25 * century + four + 100 * era := by omega
  have hcenturies : ((100 * century + 4 * four + ofFour + era * 400 : Nat) : Int) / 100 =
      century + 4 * era := by omega
  have heras : ((100 * century + 4 * four + ofFour + era * 400 : Nat) : Int) / 400 = era := by
    omega
  rw [hquarters, hcenturies, heras]
  omega

/-- The year, from March on, and the day in it, of a day counted from 1970-01-01. -/
theorem yearAndDay (days : Nat) :
    ∃ year dayOfYear : Nat, dayOfYear ≤ 365 ∧ (dayOfYear = 365 → isLeap (year + 1) = true) ∧
      daysBeforeYear (year : Nat) + dayOfYear = (days : Int) + 719468 ∧
      civilFromDays days =
        (year + if (if monthOf dayOfYear < 10 then monthOf dayOfYear + 3
            else monthOf dayOfYear - 9) ≤ 2 then 1 else 0,
          if monthOf dayOfYear < 10 then monthOf dayOfYear + 3 else monthOf dayOfYear - 9,
          dayOfYear - daysBeforeMonth (monthOf dayOfYear) + 1) := by
  obtain ⟨century, four, ofFour, dayOfYear, hcentury, hfour, hyear, hday, heq⟩ :=
    dayOfEra_parts (Nat.mod_lt (days + 719468) (by omega : 0 < 146097))
  have hyearOfEra := yearOfEra_eq hcentury hfour hyear hday heq
  refine ⟨100 * century + 4 * four + ofFour + (days + 719468) / 146097 * 400, dayOfYear,
    by omega, ?_, ?_, ?_⟩
  · intro hend
    clear heq hyearOfEra
    generalize (days + 719468) / 146097 = era
    have hquarter : (100 * century + 4 * four + ofFour + era * 400 + 1) % 4 = 0 := by omega
    have hcentury' : four < 24 →
        (100 * century + 4 * four + ofFour + era * 400 + 1) % 100 ≠ 0 := by omega
    have hcycle : four = 24 → (100 * century + 4 * four + ofFour + era * 400 + 1) % 400 = 0 := by
      omega
    by_cases hshort : four < 24
    · simp [isLeap, hquarter, hcentury' hshort]
    · simp [isLeap, hquarter, hcycle (by omega)]
  · rw [daysBeforeYear_era hfour hyear hcentury]
    omega
  · have hdayOfYear : (days + 719468) % 146097 -
        (365 * (100 * century + 4 * four + ofFour) + (100 * century + 4 * four + ofFour) / 4 -
          (100 * century + 4 * four + ofFour) / 100) = dayOfYear := by
      have hquarters : (100 * century + 4 * four + ofFour) / 4 = 25 * century + four := by omega
      have hcenturies : (100 * century + 4 * four + ofFour) / 100 = century := by omega
      rw [hquarters, hcenturies]
      omega
    simp only [civilFromDays, hyearOfEra, hdayOfYear, monthOf, daysBeforeMonth]
    rfl

/-- The date of a day denotes that day, and is a date of the calendar. Every other fact about
dates is derived from this and from uniqueness. -/
theorem civilFromDays_spec (days : Nat) :
    ValidDate (civilFromDays days).1 (civilFromDays days).2.1 (civilFromDays days).2.2 ∧
      daysFromCivil (civilFromDays days).1 (civilFromDays days).2.1 (civilFromDays days).2.2 =
        days := by
  obtain ⟨year, dayOfYear, hle, hleap, hdays, hcivil⟩ := yearAndDay days
  obtain ⟨hlast, hbefore, hlength⟩ := monthOf_spec hle
  rw [hcivil]
  dsimp only
  generalize monthOf dayOfYear = month at hlast hbefore hlength ⊢
  by_cases hautumn : month < 10
  · have hlength := hlength (year + 1) hleap
    have hlate : ¬month + 3 ≤ 2 := by omega
    simp only [if_pos hautumn, if_neg hlate, Nat.add_zero] at hlength ⊢
    have hfebruary : month + 3 ≠ 2 := by omega
    refine ⟨⟨by omega, by omega, by omega, ?_⟩, ?_⟩
    · rw [daysInMonth, if_neg hfebruary] at hlength ⊢
      exact hlength
    · rw [daysFromCivil, fromMarch, if_neg hlate]
      dsimp only
      rw [Nat.add_sub_cancel]
      omega
  · have hlength := hlength (year + 1) hleap
    have hearly : month - 9 ≤ 2 := by omega
    simp only [if_neg hautumn, if_pos hearly] at hlength ⊢
    refine ⟨⟨by omega, by omega, by omega, hlength⟩, ?_⟩
    rw [daysFromCivil, fromMarch, if_pos hearly]
    dsimp only
    have hmonth : month - 9 + 9 = month := by omega
    have hyear : ((year + 1 : Nat) : Int) - 1 = year := by omega
    rw [hmonth, hyear]
    omega

end Calendar

end MailPanel

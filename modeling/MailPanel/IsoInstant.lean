import MailPanel.Calendar
import MailPanel.NumberText

/-
Instants in ISO text: what a text denotes, and where the order of texts is the order of
instants.
-/

namespace MailPanel

namespace IsoTime

open ScriptText NumberText Calendar

/-- A date and a time of day, to the minute, or with a second and digits of its fraction. -/
structure DateTime where
  year : Nat
  month : Nat
  day : Nat
  hour : Nat
  minute : Nat
  seconds : Option (Nat × List Char)
deriving DecidableEq, Repr

namespace DateTime

/-- The parts of a time as the grammar bounds them: a date of the calendar, hours, minutes and
seconds below their ends, and a fraction of digits only. -/
structure Valid (time : DateTime) : Prop where
  year_lt : time.year < 10 ^ 6
  date : ValidDate time.year time.month time.day
  hour_lt : time.hour < 24
  minute_lt : time.minute < 60
  second_lt : ∀ seconds ∈ time.seconds, seconds.1 < 60
  digits : ∀ seconds ∈ time.seconds, ∀ c ∈ seconds.2, isDigit c = true

/-- A year from 10000 on has a sign and six digits. -/
def yearText (year : Nat) : List Char :=
  if year < 10000 then padded 4 year else '+' :: padded 6 year

def fractionText : List Char → List Char
  | [] => ['Z']
  | c :: digits => '.' :: (c :: digits ++ ['Z'])

def secondsText : Option (Nat × List Char) → List Char
  | none => ['Z']
  | some (second, fraction) => ':' :: (padded 2 second ++ fractionText fraction)

def text (time : DateTime) : List Char :=
  yearText time.year ++ '-' :: (padded 2 time.month ++ '-' :: (padded 2 time.day ++
    'T' :: (padded 2 time.hour ++ ':' :: (padded 2 time.minute ++ secondsText time.seconds))))

/-- The part of a unit that digits after a point are. -/
def fractionValue : List Char → ℚ
  | [] => 0
  | c :: digits => ((c.toNat - '0'.toNat : ℕ) + fractionValue digits) / 10

def secondsMillis : Option (Nat × List Char) → ℚ
  | none => 0
  | some (second, fraction) => (second + fractionValue fraction) * 1000

def minutes (time : DateTime) : ℤ :=
  daysFromCivil time.year time.month time.day * 1440 + time.hour * 60 + time.minute

/-- Milliseconds since 1970. -/
def instant (time : DateTime) : ℚ := time.minutes * 60000 + secondsMillis time.seconds

/-- What `toISOString` spells for these milliseconds. -/
def ofMillis (millis : Nat) : DateTime :=
  let date := civilFromDays (millis / 86400000)
  ⟨date.1, date.2.1, date.2.2, millis % 86400000 / 3600000, millis % 86400000 / 60000 % 60,
    some (millis % 86400000 / 1000 % 60, padded 3 (millis % 86400000 % 1000))⟩

end DateTime

/- Digits in order -/

theorem digit_toNat {c : Char} (hdigit : isDigit c = true) : 48 ≤ c.toNat ∧ c.toNat ≤ 57 := by
  simp only [isDigit, Bool.and_eq_true, decide_eq_true_eq, Char.le_def] at hdigit
  exact ⟨hdigit.1, hdigit.2⟩

theorem char_lt_iff {c d : Char} : c < d ↔ c.toNat < d.toNat := by
  rw [Char.lt_def]
  exact UInt32.lt_iff_toNat_lt

theorem cons_lt_cons_self {c : Char} {left right : List Char} :
    c :: left < c :: right ↔ left < right := by
  rw [List.cons_lt_cons_iff]
  constructor
  · rintro (hlt | ⟨-, hlt⟩)
    · exact absurd hlt (Char.lt_irrefl c)
    · exact hlt
  · exact fun hlt => Or.inr ⟨rfl, hlt⟩

/-- Digit strings of one length compare like the numbers they spell, and where they are equal,
what follows them decides. -/
theorem digits_lt_iff {left right : List Char} (hleft : ∀ c ∈ left, isDigit c = true)
    (hright : ∀ c ∈ right, isDigit c = true) (hlength : left.length = right.length)
    (value value' : Nat) (rest rest' : List Char) :
    (value < value' ∨ value = value' ∧ left ++ rest < right ++ rest') ↔
      (left.foldl (fun value digit => value * 10 + (digit.toNat - '0'.toNat)) value <
          right.foldl (fun value digit => value * 10 + (digit.toNat - '0'.toNat)) value' ∨
        left.foldl (fun value digit => value * 10 + (digit.toNat - '0'.toNat)) value =
          right.foldl (fun value digit => value * 10 + (digit.toNat - '0'.toNat)) value' ∧
        rest < rest') := by
  induction left generalizing right value value' with
  | nil =>
      rw [List.eq_nil_of_length_eq_zero hlength.symm]
      rfl
  | cons c left ih =>
      cases right with
      | nil => cases hlength
      | cons d right =>
          have hc := digit_toNat (hleft c List.mem_cons_self)
          have hd := digit_toNat (hright d List.mem_cons_self)
          have hzero : '0'.toNat = 48 := rfl
          rw [List.foldl_cons, List.foldl_cons, ← ih
            (fun c hc => hleft c (List.mem_cons_of_mem _ hc))
            (fun c hc => hright c (List.mem_cons_of_mem _ hc)) (Nat.succ.inj hlength),
            List.cons_append, List.cons_append, List.cons_lt_cons_iff, char_lt_iff, hzero]
          have hsame : c = d ↔ c.toNat = d.toNat := by
            constructor
            · exact fun heq => heq ▸ rfl
            · intro heq
              exact Char.toNat_inj.mp heq
          rw [hsame]
          by_cases htail : left ++ rest < right ++ rest'
          · simp only [htail, and_true]
            omega
          · simp only [htail, and_false, or_false]
            omega

theorem padded_spec {width value : Nat} (hvalue : value < 10 ^ width) (hwidth : 0 < width) :
    (padded width value).length = width ∧ (∀ c ∈ padded width value, isDigit c = true) ∧
      ofDigits 10 (padded width value) = value := by
  have hlength : (Nat.toDigits 10 value).length ≤ width :=
    (Nat.length_toDigits_le_iff (by decide) hwidth).mpr hvalue
  rw [padded]
  refine ⟨?_, ?_, ?_⟩
  · rw [List.length_append, List.length_replicate]
    omega
  · intro c hc
    rcases List.mem_append.mp hc with hzero | hdigit
    · rw [(List.mem_replicate.mp hzero).2]
      rfl
    · exact isDigit_of_mem_toDigits hdigit
  · rw [ofDigits_append, ofDigits_zeros, ofDigits_toDigits, Nat.zero_mul, Nat.zero_add]

/-- Fields of one width compare like their numbers. -/
theorem padded_lt_iff {width value value' : Nat} (hvalue : value < 10 ^ width)
    (hvalue' : value' < 10 ^ width) (hwidth : 0 < width) (rest rest' : List Char) :
    padded width value ++ rest < padded width value' ++ rest' ↔
      value < value' ∨ value = value' ∧ rest < rest' := by
  obtain ⟨hlength, hdigits, hread⟩ := padded_spec hvalue hwidth
  obtain ⟨hlength', hdigits', hread'⟩ := padded_spec hvalue' hwidth
  have hlt := digits_lt_iff hdigits hdigits' (hlength.trans hlength'.symm) 0 0 rest rest'
  rw [ofDigits] at hread hread'
  rw [hread, hread'] at hlt
  rw [← hlt]
  simp

/- Fractions -/

theorem fractionValue_bounds {digits : List Char} (hdigits : ∀ c ∈ digits, isDigit c = true) :
    0 ≤ DateTime.fractionValue digits ∧ DateTime.fractionValue digits < 1 := by
  induction digits with
  | nil => exact ⟨le_refl _, zero_lt_one⟩
  | cons c digits ih =>
      obtain ⟨hnonneg, hlt⟩ := ih fun c hc => hdigits c (List.mem_cons_of_mem _ hc)
      have hdigit := digit_toNat (hdigits c List.mem_cons_self)
      have hle : ((c.toNat - '0'.toNat : ℕ) : ℚ) ≤ 9 := by
        have hzero : '0'.toNat = 48 := rfl
        have hnat : c.toNat - '0'.toNat ≤ 9 := by omega
        exact_mod_cast hnat
      have hpos : (0 : ℚ) ≤ ((c.toNat - '0'.toNat : ℕ) : ℚ) := Nat.cast_nonneg _
      rw [DateTime.fractionValue]
      constructor
      · positivity
      · rw [div_lt_one (by norm_num)]
        linarith

/-- A fraction breaks off where the other goes on. -/
def BreaksOff (digits others : List Char) : Prop :=
  digits <+: others ∧ digits ≠ others

/-- A fraction goes on, with more than zeros, where the other breaks off. -/
def GoesBeyond (digits others : List Char) : Prop :=
  others <+: digits ∧ ∃ c ∈ digits.drop others.length, c ≠ '0'

theorem fractionValue_pos_iff {digits : List Char} (hdigits : ∀ c ∈ digits, isDigit c = true) :
    0 < DateTime.fractionValue digits ↔ ∃ c ∈ digits, c ≠ '0' := by
  induction digits with
  | nil => simp [DateTime.fractionValue]
  | cons c digits ih =>
      have hrest := ih fun c hc => hdigits c (List.mem_cons_of_mem _ hc)
      have hdigit := digit_toNat (hdigits c List.mem_cons_self)
      have hnonneg := (fractionValue_bounds
        fun c hc => hdigits c (List.mem_cons_of_mem _ hc)).1
      rw [DateTime.fractionValue]
      by_cases hzero : c = '0'
      · subst hzero
        simp [hrest]
      · have hpos : 0 < c.toNat - '0'.toNat := by
          have hne : c.toNat ≠ 48 := fun heq => hzero (Char.toNat_inj.mp heq)
          have hzero : '0'.toNat = 48 := rfl
          omega
        have hcast : (0 : ℚ) < ((c.toNat - '0'.toNat : ℕ) : ℚ) := Nat.cast_pos.mpr hpos
        refine iff_of_true ?_ ⟨c, List.mem_cons_self, hzero⟩
        positivity

theorem breaksOff_cons {c : Char} {digits others : List Char} :
    BreaksOff (c :: digits) (c :: others) ↔ BreaksOff digits others := by
  simp [BreaksOff]

theorem goesBeyond_cons {c : Char} {digits others : List Char} :
    GoesBeyond (c :: digits) (c :: others) ↔ GoesBeyond digits others := by
  simp [GoesBeyond]

/-- A fraction and its end compare like its value, but for what breaks off or goes beyond. -/
theorem fraction_order_iff {digits others : List Char} (hdigits : ∀ c ∈ digits, isDigit c = true)
    (hothers : ∀ c ∈ others, isDigit c = true) :
    (¬others ++ ['Z'] < digits ++ ['Z'] ↔
        DateTime.fractionValue digits ≤ DateTime.fractionValue others) ↔
      ¬BreaksOff digits others ∧ ¬GoesBeyond digits others := by
  have hend : ∀ {c : Char}, isDigit c = true → c < 'Z' := by
    intro c hdigit
    have hc := digit_toNat hdigit
    have hz : 'Z'.toNat = 90 := rfl
    rw [char_lt_iff]
    omega
  induction digits generalizing others with
  | nil =>
      cases others with
      | nil => simp [BreaksOff, GoesBeyond]
      | cons d others =>
          have hd := hend (hothers d List.mem_cons_self)
          have hnonneg := (fractionValue_bounds hothers).1
          have hlt : d :: others ++ ['Z'] < [] ++ ['Z'] :=
            List.cons_lt_cons_iff.mpr (Or.inl hd)
          have hbreaks : BreaksOff [] (d :: others) := ⟨List.nil_prefix, nofun⟩
          simp only [hlt, hbreaks, not_true_eq_false, false_and, iff_false, false_iff]
          exact not_not_intro hnonneg
  | cons c digits ih =>
      have hc := hend (hdigits c List.mem_cons_self)
      cases others with
      | nil =>
          have hnot : ¬[] ++ ['Z'] < c :: digits ++ ['Z'] := by
            rw [List.nil_append, List.cons_append, List.cons_lt_cons_iff]
            rintro (hlt | ⟨heq, -⟩)
            · exact absurd (Char.lt_trans hlt hc) (Char.lt_irrefl _)
            · rw [← heq] at hc
              exact absurd hc (Char.lt_irrefl _)
          have hbreaks : ¬BreaksOff (c :: digits) [] := fun h => by simpa using h.1
          have hpos := fractionValue_pos_iff hdigits
          have hbeyond : GoesBeyond (c :: digits) [] ↔ ∃ d ∈ c :: digits, d ≠ '0' :=
            ⟨And.right, fun h => ⟨List.nil_prefix, h⟩⟩
          rw [hbeyond, ← hpos]
          simp only [hnot, hbreaks, not_false_eq_true, true_and, true_iff]
          exact not_lt.symm
      | cons d others =>
          have hrest := ih (fun c hc => hdigits c (List.mem_cons_of_mem _ hc))
            fun c hc => hothers c (List.mem_cons_of_mem _ hc)
          have hleft := fractionValue_bounds fun c hc => hdigits c (List.mem_cons_of_mem _ hc)
          have hright := fractionValue_bounds fun c hc => hothers c (List.mem_cons_of_mem _ hc)
          have hcNat := digit_toNat (hdigits c List.mem_cons_self)
          have hdNat := digit_toNat (hothers d List.mem_cons_self)
          have hzero : '0'.toNat = 48 := rfl
          rw [DateTime.fractionValue, DateTime.fractionValue,
            div_le_div_iff_of_pos_right (by norm_num), List.cons_append, List.cons_append,
            List.cons_lt_cons_iff, char_lt_iff]
          rcases Nat.lt_trichotomy c.toNat d.toNat with hlt | heq | hgt
          · have hne : c ≠ d := fun heq => by rw [heq] at hlt; exact Nat.lt_irrefl _ hlt
            have hcast : ((c.toNat - '0'.toNat : ℕ) : ℚ) + 1 ≤ ((d.toNat - '0'.toNat : ℕ) : ℚ) := by
              have hnat : c.toNat - '0'.toNat + 1 ≤ d.toNat - '0'.toNat := by omega
              exact_mod_cast hnat
            have hbreaks : ¬BreaksOff (c :: digits) (d :: others) :=
              fun h => hne (List.cons_prefix_cons.mp h.1).1
            have hbeyond : ¬GoesBeyond (c :: digits) (d :: others) :=
              fun h => hne (List.cons_prefix_cons.mp h.1).1.symm
            refine iff_of_true (iff_of_true ?_ ?_) ⟨hbreaks, hbeyond⟩
            · rintro (hgt | ⟨heq, -⟩)
              · omega
              · exact hne heq.symm
            · linarith [hleft.2, hright.1]
          · obtain rfl := Char.toNat_inj.mp heq
            rw [breaksOff_cons, goesBeyond_cons, add_le_add_iff_left]
            refine Iff.trans ?_ hrest
            simp
          · have hne : c ≠ d := fun heq => by rw [heq] at hgt; exact Nat.lt_irrefl _ hgt
            have hcast : ((d.toNat - '0'.toNat : ℕ) : ℚ) + 1 ≤ ((c.toNat - '0'.toNat : ℕ) : ℚ) := by
              have hnat : d.toNat - '0'.toNat + 1 ≤ c.toNat - '0'.toNat := by omega
              exact_mod_cast hnat
            have hbreaks : ¬BreaksOff (c :: digits) (d :: others) :=
              fun h => hne (List.cons_prefix_cons.mp h.1).1
            have hbeyond : ¬GoesBeyond (c :: digits) (d :: others) :=
              fun h => hne (List.cons_prefix_cons.mp h.1).1.symm
            refine iff_of_true (iff_of_false ?_ ?_) ⟨hbreaks, hbeyond⟩
            · exact not_not_intro (Or.inl hgt)
            · rw [not_le]
              linarith [hleft.1, hright.2]

/- Times of day -/

/-- What a text leaves out, or adds, of the second that the other one spells. -/
def Misses : Option (Nat × List Char) → Nat × List Char → Prop
  | none, _ => True
  | some (second, fraction), clock =>
      second = clock.1 ∧ (BreaksOff fraction clock.2 ∨ GoesBeyond fraction clock.2)

theorem secondsMillis_bounds {seconds : Option (Nat × List Char)}
    (hsecond : ∀ pair ∈ seconds, pair.1 < 60)
    (hdigits : ∀ pair ∈ seconds, ∀ c ∈ pair.2, isDigit c = true) :
    0 ≤ DateTime.secondsMillis seconds ∧ DateTime.secondsMillis seconds < 60000 := by
  cases seconds with
  | none => exact ⟨le_refl _, by norm_num [DateTime.secondsMillis]⟩
  | some pair =>
      obtain ⟨hnonneg, hlt⟩ := fractionValue_bounds (hdigits pair rfl)
      have hle : (pair.1 : ℚ) ≤ 59 := by
        have hnat := hsecond pair rfl
        exact_mod_cast Nat.le_of_lt_succ hnat
      have hpos : (0 : ℚ) ≤ pair.1 := Nat.cast_nonneg _
      rw [DateTime.secondsMillis]
      constructor
      · positivity
      · linarith

theorem fractionText_order_iff {fraction others : List Char}
    (hfraction : ∀ c ∈ fraction, isDigit c = true) (hothers : ∀ c ∈ others, isDigit c = true)
    (hne : others ≠ []) :
    (¬DateTime.fractionText others < DateTime.fractionText fraction ↔
        DateTime.fractionValue fraction ≤ DateTime.fractionValue others) ↔
      ¬(BreaksOff fraction others ∨ GoesBeyond fraction others) := by
  obtain ⟨d, rest, rfl⟩ := List.exists_cons_of_ne_nil hne
  cases fraction with
  | nil =>
      have hlt : DateTime.fractionText (d :: rest) < DateTime.fractionText [] :=
        List.cons_lt_cons_iff.mpr (Or.inl (by decide))
      have hbreaks : BreaksOff [] (d :: rest) := ⟨List.nil_prefix, nofun⟩
      have hnonneg := (fractionValue_bounds hothers).1
      simp only [hlt, hbreaks, not_true_eq_false, true_or, iff_false, false_iff]
      exact not_not_intro hnonneg
  | cons c digits =>
      have horder := fraction_order_iff hfraction hothers
      rw [DateTime.fractionText, DateTime.fractionText, cons_lt_cons_self, not_or]
      exact horder

theorem secondsText_order_iff {seconds : Option (Nat × List Char)} {clock : Nat × List Char}
    (hsecond : ∀ pair ∈ seconds, pair.1 < 60)
    (hdigits : ∀ pair ∈ seconds, ∀ c ∈ pair.2, isDigit c = true) (hclock : clock.1 < 60)
    (hclockDigits : ∀ c ∈ clock.2, isDigit c = true) (hne : clock.2 ≠ []) :
    (¬DateTime.secondsText (some clock) < DateTime.secondsText seconds ↔
        DateTime.secondsMillis seconds ≤ DateTime.secondsMillis (some clock)) ↔
      ¬Misses seconds clock := by
  obtain ⟨second', fraction'⟩ := clock
  have hright := fractionValue_bounds hclockDigits
  have hpos : (0 : ℚ) ≤ second' := Nat.cast_nonneg _
  cases seconds with
  | none =>
      have hlt : DateTime.secondsText (some (second', fraction')) < DateTime.secondsText none :=
        List.cons_lt_cons_iff.mpr (Or.inl (by decide))
      simp only [hlt, Misses, DateTime.secondsMillis, not_true_eq_false, iff_false, false_iff]
      refine not_not_intro ?_
      have := hright.1
      positivity
  | some pair =>
      obtain ⟨second, fraction⟩ := pair
      have hleft := fractionValue_bounds (hdigits _ rfl)
      have hsecond := hsecond _ rfl
      dsimp only at hsecond hclock hclockDigits hne hright hleft
      rw [DateTime.secondsText, DateTime.secondsText, cons_lt_cons_self,
        padded_lt_iff (by omega) (by omega) (by omega), DateTime.secondsMillis,
        DateTime.secondsMillis, Misses]
      rcases Nat.lt_trichotomy second second' with hlt | heq | hgt
      · have hcast : (second : ℚ) + 1 ≤ second' := by exact_mod_cast hlt
        have hmisses : ¬(second = second' ∧
            (BreaksOff fraction fraction' ∨ GoesBeyond fraction fraction')) := by
          omega
        refine iff_of_true (iff_of_true (by omega) ?_) hmisses
        linarith [hleft.2, hright.1]
      · subst heq
        have horder := fractionText_order_iff (hdigits _ rfl) hclockDigits hne
        have hmillis : ((second : ℚ) + DateTime.fractionValue fraction) * 1000 ≤
            (second + DateTime.fractionValue fraction') * 1000 ↔
              DateTime.fractionValue fraction ≤ DateTime.fractionValue fraction' := by
          constructor
          · intro hle
            linarith
          · intro hle
            linarith
        rw [hmillis]
        simpa using horder
      · have hcast : (second' : ℚ) + 1 ≤ second := by exact_mod_cast hgt
        have hmisses : ¬(second = second' ∧
            (BreaksOff fraction fraction' ∨ GoesBeyond fraction fraction')) := by
          omega
        refine iff_of_true (iff_of_false (by omega) ?_) hmisses
        rw [not_le]
        linarith [hleft.1, hright.2]

/- Dates and minutes -/

namespace DateTime

def date (time : DateTime) : Nat × Nat × Nat := (time.year, time.month, time.day)

def SameMinute (left right : DateTime) : Prop :=
  left.date = right.date ∧ left.hour = right.hour ∧ left.minute = right.minute

/-- The order of minutes, by date and time of day. -/
def MinuteBefore (left right : DateTime) : Prop :=
  Before left.date right.date ∨ left.date = right.date ∧
    (left.hour < right.hour ∨ left.hour = right.hour ∧ left.minute < right.minute)

theorem minute_trichotomy (left right : DateTime) :
    left.MinuteBefore right ∨ left.SameMinute right ∨ right.MinuteBefore left := by
  rw [MinuteBefore, SameMinute, MinuteBefore]
  rcases before_trichotomy left.date right.date with hbefore | heq | hafter
  · exact Or.inl (Or.inl hbefore)
  · rcases Nat.lt_trichotomy left.hour right.hour with hhour | hhour | hhour
    · exact Or.inl (Or.inr ⟨heq, Or.inl hhour⟩)
    · rcases Nat.lt_trichotomy left.minute right.minute with hminute | hminute | hminute
      · exact Or.inl (Or.inr ⟨heq, Or.inr ⟨hhour, hminute⟩⟩)
      · exact Or.inr (Or.inl ⟨heq, hhour, hminute⟩)
      · exact Or.inr (Or.inr (Or.inr ⟨heq.symm, Or.inr ⟨hhour.symm, hminute⟩⟩))
    · exact Or.inr (Or.inr (Or.inr ⟨heq.symm, Or.inl hhour⟩))
  · exact Or.inr (Or.inr (Or.inl hafter))

variable {left right : DateTime}

theorem minutes_lt (hleft : left.Valid) (hright : right.Valid)
    (hbefore : left.MinuteBefore right) : left.minutes < right.minutes := by
  have hhour := hleft.hour_lt
  have hminute := hleft.minute_lt
  have hminute' := hright.minute_lt
  rw [minutes, minutes]
  rcases hbefore with hdate | ⟨hdate, htime⟩
  · have hdays := daysFromCivil_lt hleft.date hright.date hdate
    omega
  · simp only [date, Prod.mk.injEq] at hdate
    rw [hdate.1, hdate.2.1, hdate.2.2]
    omega

theorem minutes_eq (hsame : left.SameMinute right) : left.minutes = right.minutes := by
  obtain ⟨hdate, hhour, hminute⟩ := hsame
  simp only [date, Prod.mk.injEq] at hdate
  rw [minutes, minutes, hdate.1, hdate.2.1, hdate.2.2, hhour, hminute]

theorem instant_lt (hleft : left.Valid) (hright : right.Valid)
    (hbefore : left.MinuteBefore right) : left.instant < right.instant := by
  have hminutes : (left.minutes : ℚ) + 1 ≤ right.minutes := by
    exact_mod_cast minutes_lt hleft hright hbefore
  have hlt := (secondsMillis_bounds hleft.second_lt hleft.digits).2
  have hnonneg := (secondsMillis_bounds hright.second_lt hright.digits).1
  rw [instant, instant]
  linarith

theorem yearText_lt_iff {year year' : Nat} (hyear : year < 10 ^ 6) (hyear' : year' < 10 ^ 6)
    (hside : year < 10000 ↔ year' < 10000) (rest rest' : List Char) :
    yearText year ++ rest < yearText year' ++ rest' ↔
      year < year' ∨ year = year' ∧ rest < rest' := by
  rw [yearText, yearText]
  by_cases hshort : year < 10000
  · rw [if_pos hshort, if_pos (hside.mp hshort)]
    exact padded_lt_iff hshort (hside.mp hshort) (by omega) rest rest'
  · rw [if_neg hshort, if_neg fun h => hshort (hside.mpr h), List.cons_append, List.cons_append,
      cons_lt_cons_self]
    exact padded_lt_iff hyear hyear' (by omega) rest rest'

theorem two_digits (hleft : left.Valid) : left.month < 10 ^ 2 ∧ left.day < 10 ^ 2 ∧
    left.hour < 10 ^ 2 ∧ left.minute < 10 ^ 2 := by
  have hmonth := hleft.date.month_le
  have hday := hleft.date.day_le
  have hlong : daysInMonth left.year left.month ≤ 31 := by
    rw [daysInMonth]
    split
    · split
      · omega
      · omega
    · split
      · omega
      · omega
  have hhour := hleft.hour_lt
  have hminute := hleft.minute_lt
  omega

/-- Texts compare by their minutes, then by what they spell of the seconds. -/
theorem text_lt_iff (hleft : left.Valid) (hright : right.Valid)
    (hside : left.year < 10000 ↔ right.year < 10000) :
    left.text < right.text ↔ left.MinuteBefore right ∨
      left.SameMinute right ∧ secondsText left.seconds < secondsText right.seconds := by
  obtain ⟨hmonth, hday, hhour, hminute⟩ := two_digits hleft
  obtain ⟨hmonth', hday', hhour', hminute'⟩ := two_digits hright
  rw [text, text, yearText_lt_iff hleft.year_lt hright.year_lt hside, cons_lt_cons_self,
    padded_lt_iff hmonth hmonth' (by omega), cons_lt_cons_self,
    padded_lt_iff hday hday' (by omega), cons_lt_cons_self,
    padded_lt_iff hhour hhour' (by omega), cons_lt_cons_self,
    padded_lt_iff hminute hminute' (by omega)]
  simp only [MinuteBefore, SameMinute, Before, date, Prod.mk.injEq]
  by_cases hseconds : secondsText left.seconds < secondsText right.seconds
  · simp only [hseconds, and_true]
    omega
  · simp only [hseconds, and_false, or_false]
    omega

/-- The year of one text has a sign, and that of the other has none. -/
theorem text_lt_of_sign (hleft : ¬left.year < 10000) (hright : right.year < 10000) :
    left.text < right.text := by
  obtain ⟨hlength, hdigits, -⟩ := padded_spec (by omega : right.year < 10 ^ 4) (by omega)
  obtain ⟨c, rest, hpadded⟩ := List.exists_cons_of_length_pos
    (by rw [hlength]; omega : 0 < (padded 4 right.year).length)
  have hc := digit_toNat (hdigits c (by rw [hpadded]; exact List.mem_cons_self))
  have hplus : '+'.toNat = 43 := rfl
  rw [text, text, yearText, yearText, if_neg hleft, if_pos hright, hpadded, List.cons_append,
    List.cons_append, List.cons_lt_cons_iff, char_lt_iff]
  exact Or.inl (by omega)

theorem not_before_of_before (hleft : left.Valid) (hright : right.Valid)
    (hbefore : left.MinuteBefore right) :
    ¬right.MinuteBefore left ∧ ¬right.SameMinute left ∧ ¬left.SameMinute right := by
  have hlt := minutes_lt hleft hright hbefore
  refine ⟨?_, ?_, ?_⟩
  · intro hafter
    exact absurd hlt (Int.not_lt.mpr (Int.le_of_lt (minutes_lt hright hleft hafter)))
  · intro hsame
    rw [minutes_eq hsame] at hlt
    exact absurd hlt (Int.lt_irrefl _)
  · intro hsame
    rw [minutes_eq hsame] at hlt
    exact absurd hlt (Int.lt_irrefl _)

/-- In one minute, the seconds decide, and whether the texts go wrong there is a matter of how
the two seconds and their fractions are written. -/
theorem text_order_of_same {clock : Nat × List Char} (hleft : left.Valid) (hright : right.Valid)
    (hclock : right.seconds = some clock) (hne : clock.2 ≠ []) (hsame : left.SameMinute right) :
    (¬right.text < left.text ↔ left.instant ≤ right.instant) ↔ ¬Misses left.seconds clock := by
  have hback : right.SameMinute left := ⟨hsame.1.symm, hsame.2.1.symm, hsame.2.2.symm⟩
  have hyear : left.year = right.year := congrArg Prod.fst hsame.1
  have hbefore : ¬right.MinuteBefore left := by
    intro hbefore
    exact (not_before_of_before hright hleft hbefore).2.1 hsame
  have htext : right.text < left.text ↔
      secondsText (some clock) < secondsText left.seconds := by
    rw [text_lt_iff hright hleft (by rw [hyear]), hclock]
    exact ⟨fun h => (h.resolve_left hbefore).2, fun h => Or.inr ⟨hback, h⟩⟩
  have hinstant : left.instant ≤ right.instant ↔
      secondsMillis left.seconds ≤ secondsMillis (some clock) := by
    rw [instant, instant, minutes_eq hsame, hclock, add_le_add_iff_left]
  rw [htext, hinstant]
  exact secondsText_order_iff hleft.second_lt hleft.digits (hright.second_lt clock hclock)
    (hright.digits clock hclock) hne

/-- The order of two texts is the order of their instants, but where only one of the years
has a sign, or where the texts are of the same minute and one leaves out or adds what the
other one does not. -/
theorem text_order_iff {clock : Nat × List Char} (hleft : left.Valid) (hright : right.Valid)
    (hclock : right.seconds = some clock) (hne : clock.2 ≠ []) :
    (¬right.text < left.text ↔ left.instant ≤ right.instant) ↔
      (left.year < 10000 ↔ right.year < 10000) ∧
        ¬(left.SameMinute right ∧ Misses left.seconds clock) := by
  by_cases hside : left.year < 10000 ↔ right.year < 10000
  · rw [and_iff_right hside]
    rcases minute_trichotomy left right with hbefore | hsame | hafter
    · obtain ⟨hnot, hdifferent, hdifferent'⟩ := not_before_of_before hleft hright hbefore
      refine iff_of_true (iff_of_true ?_ (instant_lt hleft hright hbefore).le) ?_
      · rw [text_lt_iff hright hleft hside.symm]
        rintro (h | h)
        · exact hnot h
        · exact hdifferent h.1
      · exact fun h => hdifferent' h.1
    · rw [text_order_of_same hleft hright hclock hne hsame]
      exact not_congr (and_iff_right hsame).symm
    · obtain ⟨-, hdifferent, -⟩ := not_before_of_before hright hleft hafter
      refine iff_of_true (iff_of_false ?_ (not_le.mpr (instant_lt hright hleft hafter))) ?_
      · exact not_not_intro ((text_lt_iff hright hleft hside.symm).mpr (Or.inl hafter))
      · exact fun h => hdifferent h.1
  · refine iff_of_false ?_ fun h => hside h.1
    by_cases hshort : left.year < 10000
    · have hlong : ¬right.year < 10000 := fun h => hside (iff_of_true hshort h)
      have hbefore : left.MinuteBefore right := by
        refine Or.inl (Or.inl ?_)
        dsimp only [date]
        omega
      intro hsame
      exact hsame.mpr (instant_lt hleft hright hbefore).le (text_lt_of_sign hlong hshort)
    · have hright' : right.year < 10000 := by
        by_contra hlong
        exact hside (iff_of_false hshort hlong)
      have hafter : right.MinuteBefore left := by
        refine Or.inl (Or.inl ?_)
        dsimp only [date]
        omega
      intro hsame
      have hle := hsame.mp (List.lt_asymm (text_lt_of_sign hshort hright'))
      exact absurd (instant_lt hright hleft hafter) (not_lt.mpr hle)

/- The text of a clock -/

theorem fractionText_eq {fraction : List Char} (hne : fraction ≠ []) :
    fractionText fraction = '.' :: (fraction ++ ['Z']) := by
  obtain ⟨c, digits, rfl⟩ := List.exists_cons_of_ne_nil hne
  rfl

theorem fractionValue_eq (digits : List Char) :
    fractionValue digits = ofDigits 10 digits / 10 ^ digits.length := by
  induction digits with
  | nil => simp [fractionValue, ofDigits]
  | cons c digits ih =>
      have hcons : ofDigits 10 (c :: digits) =
          (c.toNat - '0'.toNat) * 10 ^ digits.length + ofDigits 10 digits := by
        rw [ofDigits, List.foldl_cons, foldl_digits, Nat.zero_mul, Nat.zero_add]
      rw [fractionValue, ih, hcons, List.length_cons, pow_succ]
      push_cast
      field_simp

theorem millis_spec {value : Nat} (hvalue : value < 1000) :
    padded 3 value ≠ [] ∧ (∀ c ∈ padded 3 value, isDigit c = true) ∧
      fractionValue (padded 3 value) = value / 1000 := by
  obtain ⟨hlength, hdigits, hread⟩ := padded_spec (by omega : value < 10 ^ 3) (by omega)
  refine ⟨?_, hdigits, ?_⟩
  · intro hnil
    rw [hnil] at hlength
    cases hlength
  · rw [fractionValue_eq, hread, hlength]
    norm_num

theorem text_of_parts (year month day hour minute second : Nat) {fraction : List Char}
    (hne : fraction ≠ []) :
    (if year < 10000 then padded 4 year else '+' :: padded 6 year) ++
        '-' :: padded 2 month ++ '-' :: padded 2 day ++ 'T' :: padded 2 hour ++
        ':' :: padded 2 minute ++ ':' :: padded 2 second ++ '.' :: fraction ++ ['Z'] =
      text ⟨year, month, day, hour, minute, some (second, fraction)⟩ := by
  rw [text, yearText, secondsText, fractionText_eq hne]
  by_cases hshort : year < 10000
  · simp only [if_pos hshort, List.append_assoc, List.cons_append]
  · simp only [if_neg hshort, List.append_assoc, List.cons_append]

theorem isoText_eq (millis : Nat) : isoText millis = (ofMillis millis).text := by
  have hmillis : millis % 86400000 % 1000 < 1000 := Nat.mod_lt _ (by omega)
  rw [ofMillis, ← text_of_parts _ _ _ _ _ _ (millis_spec hmillis).1]
  rfl

theorem civilFromDays_year_lt {days : Nat} (hdays : days ≤ 10 ^ 8) :
    (civilFromDays days).1 < 10 ^ 6 := by
  obtain ⟨year, dayOfYear, hle, -, hday, hcivil⟩ := yearAndDay days
  have hnext : ∀ month : Nat, (if month ≤ 2 then 1 else 0) ≤ 1 := by
    intro month
    split
    · omega
    · omega
  have hlast := hnext (if monthOf dayOfYear < 10 then monthOf dayOfYear + 3
    else monthOf dayOfYear - 9)
  rw [daysBeforeYear] at hday
  rw [hcivil]
  dsimp only
  omega

/-- The last instant that a date can hold. -/
def maxMillis : Nat := 8640000000000000

theorem ofMillis_valid {millis : Nat} (hmillis : millis ≤ maxMillis) : (ofMillis millis).Valid where
  year_lt := by
    rw [maxMillis] at hmillis
    exact civilFromDays_year_lt (by omega)
  date := (civilFromDays_spec (millis / 86400000)).1
  hour_lt := by
    dsimp only [ofMillis]
    omega
  minute_lt := Nat.mod_lt _ (by omega)
  second_lt := by
    intro pair hpair
    rw [← Option.some.inj hpair]
    exact Nat.mod_lt _ (by omega)
  digits := by
    intro pair hpair
    rw [← Option.some.inj hpair]
    exact (millis_spec (Nat.mod_lt _ (by omega))).2.1

theorem instant_ofMillis (millis : Nat) : (ofMillis millis).instant = millis := by
  have hvalue := (millis_spec (Nat.mod_lt (millis % 86400000) (by omega : 0 < 1000))).2.2
  have hdays := (civilFromDays_spec (millis / 86400000)).2
  have hsum : ((millis / 86400000 : ℕ) * 1440 + (millis % 86400000 / 3600000 : ℕ) * 60 +
      (millis % 86400000 / 60000 % 60 : ℕ)) * 60000 + (millis % 86400000 / 1000 % 60) * 1000 +
        millis % 86400000 % 1000 = millis := by
    omega
  have hcast : (((millis / 86400000 : ℕ) : ℚ) * 1440 + (millis % 86400000 / 3600000 : ℕ) * 60 +
      (millis % 86400000 / 60000 % 60 : ℕ)) * 60000 +
        ((millis % 86400000 / 1000 % 60 : ℕ) : ℚ) * 1000 +
          ((millis % 86400000 % 1000 : ℕ) : ℚ) = millis := by
    exact_mod_cast hsum
  simp only [instant, minutes, ofMillis, secondsMillis, hvalue, hdays]
  rw [← hcast]
  generalize millis / 86400000 = days
  generalize millis % 86400000 / 3600000 = hours
  generalize millis % 86400000 / 60000 % 60 = minutes
  push_cast
  ring

end DateTime

/-- Fractions of one length neither break off nor go beyond. -/
theorem not_breaksOff_or_goesBeyond {digits others : List Char}
    (hlength : digits.length = others.length) :
    ¬(BreaksOff digits others ∨ GoesBeyond digits others) := by
  rintro (⟨hpre, hne⟩ | ⟨-, c, hc, -⟩)
  · exact hne (hpre.eq_of_length hlength)
  · rw [← hlength, List.drop_length] at hc
    cases hc

/-- The first instant whose text begins with a sign. -/
def firstSigned : Nat := 253402300800000

theorem civilFromDays_year_lt_of_lt {millis : Nat} (hmillis : millis < firstSigned) :
    (civilFromDays (millis / 86400000)).1 < 10000 := by
  obtain ⟨hvalid, hdays⟩ := civilFromDays_spec (millis / 86400000)
  have hfirst : ValidDate 10000 1 1 :=
    ⟨Nat.le_refl 1, by decide, Nat.le_refl 1, by decide⟩
  have hstart : daysFromCivil 10000 1 1 = 2932897 := by decide
  have hlt : daysFromCivil (civilFromDays (millis / 86400000)).1
      (civilFromDays (millis / 86400000)).2.1 (civilFromDays (millis / 86400000)).2.2 <
        daysFromCivil 10000 1 1 := by
    rw [firstSigned] at hmillis
    rw [hdays, hstart]
    omega
  have hbefore := (daysFromCivil_lt_iff hvalid hfirst).mp hlt
  have hmonth := hvalid.month_pos
  have hday := hvalid.day_pos
  dsimp only [Before] at hbefore
  omega

/-- Before the year 10000, the order of the texts is that of the instants. -/
theorem before_eq_lt {left right : Nat} (hleft : left < firstSigned)
    (hright : right < firstSigned) : before left right = decide (left < right) := by
  have hle : ∀ millis < firstSigned, millis ≤ DateTime.maxMillis := by
    intro millis hmillis
    rw [firstSigned] at hmillis
    rw [DateTime.maxMillis]
    omega
  have hclock : (DateTime.ofMillis left).seconds =
      some (left % 86400000 / 1000 % 60, padded 3 (left % 86400000 % 1000)) := rfl
  have hmillis : left % 86400000 % 1000 < 1000 := Nat.mod_lt _ (by omega)
  have hmillis' : right % 86400000 % 1000 < 1000 := Nat.mod_lt _ (by omega)
  have hne := (DateTime.millis_spec hmillis).1
  have hlength := (padded_spec (by omega : left % 86400000 % 1000 < 10 ^ 3) (by omega)).1
  have hlength' := (padded_spec (by omega : right % 86400000 % 1000 < 10 ^ 3) (by omega)).1
  have horder := (DateTime.text_order_iff (DateTime.ofMillis_valid (hle right hright))
    (DateTime.ofMillis_valid (hle left hleft)) hclock hne).mpr
      ⟨iff_of_true (civilFromDays_year_lt_of_lt hright) (civilFromDays_year_lt_of_lt hleft), ?_⟩
  · rw [DateTime.instant_ofMillis, DateTime.instant_ofMillis, Nat.cast_le] at horder
    rw [before, DateTime.isoText_eq, DateTime.isoText_eq, decide_eq_decide]
    rw [← Nat.not_le, ← horder, not_not]
  · rintro ⟨-, -, hmisses⟩
    exact not_breaksOff_or_goesBeyond (by rw [hlength, hlength']) hmisses

end IsoTime

end MailPanel

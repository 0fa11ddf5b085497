import MailPanel.IsoInstant
import MailPanel.McpBarred

/-
The expiry of a connection: the texts that the control API accepts and that `create`
computes, and what `statusOf` makes of them.
-/

namespace MailPanel

namespace Mcp

open ScriptText NumberText Calendar IsoTime RowTable

/- The schema of an update -/

/-- Digits at the front of a text, and what follows them. -/
def digits? (count : Nat) (text : List Char) : Option (Nat × List Char) :=
  if (text.take count).length = count ∧ (text.take count).all isDigit then
    some (ofDigits 10 (text.take count), text.drop count)
  else none

def expect? (c : Char) : List Char → Option (List Char)
  | [] => none
  | first :: rest => if first = c then some rest else none

/-- The end of a text: a second, or a second with digits of its fraction, and `Z`. -/
def seconds? (text : List Char) : Option (Nat × List Char) :=
  match digits? 2 text with
  | none => none
  | some (second, text) =>
      if 60 ≤ second then none
      else if text = ['Z'] then some (second, [])
      else
        match expect? '.' text with
        | none => none
        | some text =>
            if text.dropLast ≠ [] ∧ text.dropLast.all isDigit ∧ text.getLast? = some 'Z' then
              some (second, text.dropLast)
            else none

/-- `z.string().datetime()`: a second is required, its fraction may have any precision, and there
is no offset but `Z`. -/
def datetime? (text : List Char) : Option DateTime := do
  let (year, text) ← digits? 4 text
  let text ← expect? '-' text
  let (month, text) ← digits? 2 text
  let text ← expect? '-' text
  let (day, text) ← digits? 2 text
  let text ← expect? 'T' text
  let (hour, text) ← digits? 2 text
  let text ← expect? ':' text
  let (minute, text) ← digits? 2 text
  let text ← expect? ':' text
  let seconds ← seconds? text
  if 1 ≤ month ∧ month ≤ 12 ∧ 1 ≤ day ∧ day ≤ daysInMonth year month ∧ hour < 24 ∧ minute < 60 then
    some ⟨year, month, day, hour, minute, some seconds⟩
  else none

example : datetime? "2026-02-28T09:30:00.5Z".toList =
      some ⟨2026, 2, 28, 9, 30, some (0, ['5'])⟩ ∧
    datetime? "2026-02-28T09:30Z".toList = none ∧
    datetime? "2026-02-29T09:30:00Z".toList = none := by
  decide

theorem digits_injective {left right : List Char} (hleft : ∀ c ∈ left, isDigit c = true)
    (hright : ∀ c ∈ right, isDigit c = true) (hlength : left.length = right.length)
    {value value' : Nat}
    (heq : left.foldl (fun value digit => value * 10 + (digit.toNat - '0'.toNat)) value =
      right.foldl (fun value digit => value * 10 + (digit.toNat - '0'.toNat)) value') :
    value = value' ∧ left = right := by
  induction left generalizing right value value' with
  | nil =>
      rw [List.eq_nil_of_length_eq_zero hlength.symm] at heq ⊢
      exact ⟨heq, rfl⟩
  | cons c left ih =>
      cases right with
      | nil => cases hlength
      | cons d right =>
          have hc := digit_toNat (hleft c List.mem_cons_self)
          have hd := digit_toNat (hright d List.mem_cons_self)
          have hzero : '0'.toNat = 48 := rfl
          obtain ⟨hvalue, hrest⟩ := ih (fun c hc => hleft c (List.mem_cons_of_mem _ hc))
            (fun c hc => hright c (List.mem_cons_of_mem _ hc)) (Nat.succ.inj hlength) heq
          dsimp only at hvalue
          have hsame : c = d := Char.toNat_inj.mp (by omega)
          exact ⟨by omega, by rw [hsame, hrest]⟩

theorem digits_spec {count value : Nat} {text rest : List Char} (hcount : 0 < count)
    (hdigits : digits? count text = some (value, rest)) :
    value < 10 ^ count ∧ text = padded count value ++ rest := by
  rw [digits?] at hdigits
  split at hdigits
  · rename_i hrun
    obtain ⟨hlength, hall⟩ := hrun
    have hdigit : ∀ c ∈ text.take count, isDigit c = true := List.all_eq_true.mp hall
    obtain ⟨hvalue, hrest⟩ := Prod.mk.inj (Option.some.inj hdigits)
    have hlt : value < 10 ^ count := by
      have hbound := (fractionValue_bounds hdigit).2
      rw [DateTime.fractionValue_eq, hvalue, hlength, div_lt_one (by positivity)] at hbound
      exact_mod_cast hbound
    obtain ⟨hwidth, hpadded, hread⟩ := padded_spec hlt hcount
    have hsame := (digits_injective hdigit hpadded (hlength.trans hwidth.symm)
      (hvalue.trans hread.symm : ofDigits 10 _ = ofDigits 10 _)).2
    refine ⟨hlt, ?_⟩
    rw [← hsame, ← hrest, List.take_append_drop]
  · cases hdigits

theorem expect_spec {c : Char} {text rest : List Char} (hexpect : expect? c text = some rest) :
    text = c :: rest := by
  cases text with
  | nil => cases hexpect
  | cons first others =>
      rw [expect?] at hexpect
      split at hexpect
      · rename_i hfirst
        rw [hfirst, Option.some.inj hexpect]
      · cases hexpect

/-- What `seconds?` has read. -/
structure SecondsRead (text : List Char) (seconds : Nat × List Char) : Prop where
  second_lt : seconds.1 < 60
  digits : ∀ c ∈ seconds.2, isDigit c = true
  text_eq : ':' :: text = DateTime.secondsText (some seconds)

theorem seconds_spec {text : List Char} {seconds : Nat × List Char}
    (hseconds : seconds? text = some seconds) : SecondsRead text seconds := by
  rw [seconds?] at hseconds
  cases hdigits : digits? 2 text with
  | none => simp [hdigits] at hseconds
  | some read =>
      obtain ⟨second, rest⟩ := read
      simp only [hdigits] at hseconds
      obtain ⟨-, htext⟩ := digits_spec (by omega) hdigits
      split at hseconds
      · cases hseconds
      · rename_i hsecond
        split at hseconds
        · rename_i hend
          rw [← Option.some.inj hseconds]
          refine ⟨Nat.lt_of_not_le hsecond, fun c hc => absurd hc List.not_mem_nil, ?_⟩
          rw [htext, hend]
          rfl
        · cases hpoint : expect? '.' rest with
          | none => simp [hpoint] at hseconds
          | some fraction =>
              simp only [hpoint] at hseconds
              split at hseconds
              · rename_i hfraction
                obtain ⟨hne, hall, hlast⟩ := hfraction
                rw [← Option.some.inj hseconds]
                refine ⟨Nat.lt_of_not_le hsecond, List.all_eq_true.mp hall, ?_⟩
                rw [htext, expect_spec hpoint, DateTime.secondsText, DateTime.fractionText_eq hne,
                  List.dropLast_append_getLast? 'Z' hlast]
              · cases hseconds

/-- What the schema accepts is the text of a date and time, with a year of four digits. -/
theorem datetime_spec {text : List Char} {time : DateTime} (htime : datetime? text = some time) :
    time.Valid ∧ time.text = text ∧ time.year < 10000 := by
  simp only [datetime?, Option.bind_eq_bind, Option.bind_eq_some_iff, Prod.exists] at htime
  obtain ⟨year, afterYear, hyear, afterDash, hdash, month, afterMonth, hmonth, afterDash',
    hdash', day, afterDay, hday, afterT, hT, hour, afterHour, hhour, afterColon, hcolon, minute,
    afterMinute, hminute, afterColon', hcolon', second, fraction, hseconds, htime⟩ := htime
  obtain ⟨hyearLt, htext⟩ := digits_spec (by omega) hyear
  have hshort : year < 10000 := hyearLt
  obtain ⟨hsecond, hdigits, hend⟩ := seconds_spec hseconds
  split at htime
  · rename_i hranges
    obtain ⟨hmonthPos, hmonthLe, hdayPos, hdayLe, hhourLt, hminuteLt⟩ := hranges
    rw [← Option.some.inj htime]
    refine ⟨⟨by dsimp only; omega, ⟨hmonthPos, hmonthLe, hdayPos, hdayLe⟩, hhourLt, hminuteLt,
      ?_, ?_⟩, ?_, hshort⟩
    · intro pair hpair
      rw [← Option.some.inj hpair]
      exact hsecond
    · intro pair hpair c hc
      rw [← Option.some.inj hpair] at hc
      exact hdigits c hc
    rw [DateTime.text, DateTime.yearText]
    dsimp only
    rw [if_pos hshort, htext, expect_spec hdash, (digits_spec (by omega) hmonth).2,
      expect_spec hdash', (digits_spec (by omega) hday).2, expect_spec hT,
      (digits_spec (by omega) hhour).2, expect_spec hcolon, (digits_spec (by omega) hminute).2,
      expect_spec hcolon', hend]
  · cases htime

/- Stored expiries -/

/-- An expiry that an update may store, or that `create` computes. -/
def Admitted (text : List Char) (time : DateTime) : Prop :=
  datetime? text = some time ∨
    ∃ millis ≤ DateTime.maxMillis, text = isoText millis ∧ time = DateTime.ofMillis millis

theorem Admitted.spec {text : List Char} {time : DateTime} (hadmitted : Admitted text time) :
    time.Valid ∧ time.text = text := by
  rcases hadmitted with haccepted | ⟨millis, hmillis, rfl, rfl⟩
  · obtain ⟨hvalid, htext, -⟩ := datetime_spec haccepted
    exact ⟨hvalid, htext⟩
  · exact ⟨DateTime.ofMillis_valid hmillis, (DateTime.isoText_eq millis).symm⟩

namespace Server

variable {s : Server}

/-- Where neither the connection nor its mailbox is revoked, the texts decide. -/
theorem statusOf_eq_expired_iff {connection : ConnectionRow} {binding : BindingRow}
    {text : List Char} (hexpires : connection.expiresAt = some (String.ofList text)) :
    (s.statusOf connection binding).1 = .expired ↔
      ¬(connection.state = .revoked ∨ binding.state = .revoked) ∧ ¬isoText s.now < text := by
  have hle : String.ofList text ≤ IsoTime.toISOString s.now ↔ ¬isoText s.now < text := by
    have hlt : IsoTime.toISOString s.now < String.ofList text ↔ isoText s.now < text := by
      rw [String.lt_iff, toISOString, String.toList_ofList, String.toList_ofList]
    exact not_congr hlt
  rw [statusOf, hexpires, Option.any_some]
  by_cases hconnection : connection.state = .revoked
  · simp [hconnection]
  · by_cases hbinding : binding.state = .revoked
    · simp [hbinding, hconnection]
    · by_cases htext : isoText s.now < text
      · have hnot : ¬String.ofList text ≤ IsoTime.toISOString s.now :=
          fun h => absurd htext (hle.mp h)
        simp only [hconnection, hbinding, htext, hnot, if_false, decide_false, not_true_eq_false,
          and_false, iff_false, Bool.false_eq_true]
        split_ifs
        all_goals
          intro hstatus
          cases hstatus
      · have hle := hle.mpr htext
        simp [hconnection, hbinding, htext, hle]

/-- The second of the clock's text, with its milliseconds. -/
def clockSecond (s : Server) : Nat × List Char :=
  (s.now % 86400000 / 1000 % 60, padded 3 (s.now % 86400000 % 1000))

/-- The expiry is reported when it is due, but where only one of the years has a sign, or where
the expiry is of the clock's second and its fraction leaves out or adds what the clock does not.
The two instants are compared as texts, in which the letter that ends a text without a fraction
comes after the point that begins one. A revoked connection is never reported as expired. -/
theorem statusOf_expired_iff (hnow : s.now ≤ DateTime.maxMillis) {connection : ConnectionRow}
    (binding : BindingRow) {text : List Char} {time : DateTime} (hadmitted : Admitted text time)
    (hexpires : connection.expiresAt = some (String.ofList text)) :
    ((s.statusOf connection binding).1 = .expired ↔ time.instant ≤ s.now) ↔
      if connection.state = .revoked ∨ binding.state = .revoked then s.now < time.instant
      else (time.year < 10000 ↔ (DateTime.ofMillis s.now).year < 10000) ∧
        ¬(time.SameMinute (DateTime.ofMillis s.now) ∧ Misses time.seconds s.clockSecond) := by
  obtain ⟨hvalid, htext⟩ := hadmitted.spec
  rw [statusOf_eq_expired_iff hexpires]
  by_cases hrevoked : connection.state = .revoked ∨ binding.state = .revoked
  · rw [if_pos hrevoked]
    simp [hrevoked]
  · have hmillis : s.now % 86400000 % 1000 < 1000 := Nat.mod_lt _ (by omega)
    have hclock : (DateTime.ofMillis s.now).seconds = some s.clockSecond := rfl
    have horder := DateTime.text_order_iff hvalid (DateTime.ofMillis_valid hnow) hclock
      (DateTime.millis_spec hmillis).1
    rw [if_neg hrevoked, ← horder, DateTime.isoText_eq, htext, DateTime.instant_ofMillis]
    simp [hrevoked]

end Server

namespace OneConnection

open Server

/-- The first second of 2026, as a postmaster writes it. -/
def secondOnly : List Char := "2026-01-01T00:00:00Z".toList

def newYear : DateTime := ⟨2026, 1, 1, 0, 0, some (0, [])⟩

def expiring : ConnectionRow := { boundConnection with expiresAt := some (String.ofList secondOnly) }

def liveBinding : BindingRow := { staleBinding with state := .active }

def serverAt (millis : Nat) : Server :=
  { (System.initial settings (some "k1") 1000).server with now := millis }

theorem secondOnly_admitted : Admitted secondOnly newYear :=
  Or.inl (by decide)

/-- A second later the connection is reported as expired. -/
theorem nextSecond_expired :
    ((serverAt 1767225601000).statusOf expiring liveBinding).1 = .expired ↔
      newYear.instant ≤ (serverAt 1767225601000).now := by
  refine (statusOf_expired_iff (by decide) liveBinding secondOnly_admitted rfl).mpr ?_
  rw [if_neg (by decide)]
  exact ⟨by decide, fun h => absurd h.2.1 (by decide)⟩

/-- Within its own second it is not, though its instant has passed for half of it. -/
theorem sameSecond_unexpired : ¬∀ (s : Server) (connection : ConnectionRow)
    (binding : BindingRow) (text : List Char) (time : DateTime), s.now ≤ DateTime.maxMillis →
    Admitted text time → connection.expiresAt = some (String.ofList text) →
    connection.state ≠ .revoked → binding.state ≠ .revoked →
    ((s.statusOf connection binding).1 = .expired ↔ time.instant ≤ s.now) := by
  intro hclaim
  have hexpired := hclaim (serverAt 1767225600500) expiring liveBinding secondOnly newYear
    (by decide) secondOnly_admitted rfl (by decide) (by decide)
  have hstatus : ((serverAt 1767225600500).statusOf expiring liveBinding).1 ≠ .expired := by
    decide
  have hdue : newYear.instant ≤ (serverAt 1767225600500).now := by
    decide +kernel
  exact hstatus (hexpired.mpr hdue)

end OneConnection

end Mcp

end MailPanel

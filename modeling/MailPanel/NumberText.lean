import MailPanel.Binary64
import MailPanel.ScriptText
import Mathlib.Data.Nat.Prime.Basic
import Mathlib.Data.Rat.Lemmas
import Mathlib.Algebra.Order.Archimedean.Basic
import Mathlib.Data.Int.Log

/-
Numbers as text, both ways: `Number(text)`, and `String(number)` for positive numbers.
-/

namespace MailPanel

namespace NumberText

open ScriptText Binary64

inductive JsNumber where
  | nan
  | infinity (negative : Bool)
  | finite (value : ℚ)
deriving DecidableEq, Repr

def isDigit (c : Char) : Bool := '0' ≤ c && c ≤ '9'

/- Reading -/

/-- The value of a literal with these digits before and after its point. -/
def decimalValue (whole fraction : List Char) (exponent : ℤ) : ℚ :=
  ofDigits 10 (whole ++ fraction) * 10 ^ (exponent - fraction.length)

/-- The exponent of a literal, from the letter that announces it on. A sign may stand before the
digits, and at least one digit has to. -/
def readExponent : List Char → Option ℤ
  | [] => some 0
  | _ :: '-' :: digits =>
      if !digits.isEmpty && digits.all isDigit then some (-(ofDigits 10 digits : ℤ)) else none
  | _ :: '+' :: digits =>
      if !digits.isEmpty && digits.all isDigit then some (ofDigits 10 digits) else none
  | _ :: digits =>
      if !digits.isEmpty && digits.all isDigit then some (ofDigits 10 digits) else none

def readDecimal (text : List Char) : Option ℚ :=
  let mantissa := text.takeWhile fun c => c ≠ 'e' && c ≠ 'E'
  let whole := mantissa.takeWhile fun c => c ≠ '.'
  let fraction := mantissa.drop (whole.length + 1)
  if whole.all isDigit && fraction.all isDigit && !(whole.isEmpty && fraction.isEmpty) then
    (readExponent (text.drop mantissa.length)).map (decimalValue whole fraction)
  else none

def rounded (negative : Bool) (value : ℚ) : JsNumber :=
  match ofRat value with
  | none => .infinity negative
  | some value => .finite (if negative then -value else value)

def readSigned (negative : Bool) (text : List Char) : JsNumber :=
  if text = "Infinity".toList then .infinity negative
  else
    match readDecimal text with
    | none => .nan
    | some value => rounded negative value

def digitValue (c : Char) : Nat :=
  if isDigit c then c.toNat - '0'.toNat
  else if 'a' ≤ c && c ≤ 'f' then c.toNat - 'a'.toNat + 10
  else if 'A' ≤ c && c ≤ 'F' then c.toNat - 'A'.toNat + 10
  else 16

def readRadix (base : Nat) (digits : List Char) : JsNumber :=
  if !digits.isEmpty && digits.all fun c => digitValue c < base then
    rounded false (digits.foldl (fun value c => value * base + digitValue c) 0 : ℕ)
  else .nan

/-- `Number(text)`; the sign of a zero is left out. Blanks around the text are trimmed, and a
text that is no literal is not a number. -/
def toNumber (text : List Char) : JsNumber :=
  match trim text with
  | [] => .finite 0
  | '-' :: text => readSigned true text
  | '+' :: text => readSigned false text
  | '0' :: marker :: digits =>
      if marker = 'x' ∨ marker = 'X' then readRadix 16 digits
      else if marker = 'o' ∨ marker = 'O' then readRadix 8 digits
      else if marker = 'b' ∨ marker = 'B' then readRadix 2 digits
      else readSigned false ('0' :: marker :: digits)
  | text => readSigned false text

/- Writing -/

/-- A literal from its point on. -/
def fractionPart (fraction : List Char) : List Char :=
  if fraction.isEmpty then [] else '.' :: fraction

/-- A literal from its exponent's letter on. -/
def exponentPart (exponent : ℤ) : List Char :=
  if exponent = 0 then []
  else 'e' :: (if 0 < exponent then '+' else '-') :: Nat.toDigits 10 exponent.natAbs

def spelled (whole fraction : List Char) (exponent : ℤ) : List Char :=
  whole ++ fractionPart fraction ++ exponentPart exponent

/-- The text of `significand * 10 ^ exponent`, by the four forms of the language: an integer, a
decimal, one with zeros in front, and one with an exponent. -/
def layOut (significand : ℕ) (exponent : ℤ) : List Char :=
  let digits := Nat.toDigits 10 significand
  let point := digits.length + exponent
  if digits.length ≤ point ∧ point ≤ 21 then
    spelled (digits ++ List.replicate exponent.toNat '0') [] 0
  else if 0 < point ∧ point ≤ 21 then
    spelled (digits.take point.toNat) (digits.drop point.toNat) 0
  else if -6 < point ∧ point ≤ 0 then
    spelled ['0'] (List.replicate (-point).toNat '0' ++ digits) 0
  else spelled (digits.take 1) (digits.drop 1) (point - 1)

/-- The two numbers of so many digits around a number, the nearer first. -/
def candidates (x : ℚ) (digits : ℕ) : List (ℕ × ℤ) :=
  let exponent := Int.log 10 x + 1 - digits
  let scaled := x / 10 ^ exponent
  let near := (roundHalfEven scaled).toNat
  let other := (2 * ⌊scaled⌋ + 1 - roundHalfEven scaled).toNat
  [near, other].map fun significand =>
    if significand = 10 ^ digits then (10 ^ (digits - 1), exponent + 1)
    else (significand, exponent)

/-- All the digits of a number whose denominator is a power of two. -/
def allDigits (x : ℚ) : ℕ × ℤ :=
  (x.num.toNat * 5 ^ x.den.log2, -x.den.log2)

/-- The fewest digits that are read back as the number; a double takes at most 17. -/
def fewestDigits (x : ℚ) : ℕ × ℤ :=
  (((List.range 17).flatMap fun count => candidates x (count + 1)).find? fun digits =>
    ofRat (digits.1 * 10 ^ digits.2) = (x : WithTop ℚ)).getD (allDigits x)

/-- `String(number)`, for a positive number. -/
def toText (x : ℚ) : List Char := layOut (fewestDigits x).1 (fewestDigits x).2

example : [12, 1 / 2, 10 ^ 21, 1 / 2 ^ 20].map (fun x => String.ofList (toText x)) =
    ["12", "0.5", "1e+21", "9.5367431640625e-7"] := by
  decide +kernel

/- Reading back what was written -/

section Digits

/-- Reading digits from the left adds them to what was read before. -/
theorem foldl_digits (base : ℕ) (digits : List Char) (value : ℕ) :
    digits.foldl (fun value digit => value * base + (digit.toNat - '0'.toNat)) value =
      value * base ^ digits.length + ofDigits base digits := by
  induction digits generalizing value with
  | nil => simp [ofDigits]
  | cons digit digits ih =>
      have hcons : ofDigits base (digit :: digits) =
          (0 * base + (digit.toNat - '0'.toNat)) * base ^ digits.length +
            ofDigits base digits := by
        rw [ofDigits, List.foldl_cons, ih]
      rw [List.foldl_cons, ih, hcons, List.length_cons, pow_succ]
      ring

/-- The value of digits in two parts. -/
theorem ofDigits_append (base : ℕ) (left right : List Char) :
    ofDigits base (left ++ right) =
      ofDigits base left * base ^ right.length + ofDigits base right := by
  rw [ofDigits, List.foldl_append, foldl_digits]
  rfl

theorem ofDigits_zeros (base count : ℕ) : ofDigits base (List.replicate count '0') = 0 := by
  induction count with
  | zero => rfl
  | succ count ih =>
      rw [List.replicate_succ, ofDigits, List.foldl_cons, foldl_digits, ih]
      simp

/-- A number is read back from its digits. -/
theorem ofDigits_toDigits (n : ℕ) : ofDigits 10 (Nat.toDigits 10 n) = n := by
  have hread := Nat.ofDigitChars_ten_toDigits (n := n)
  rw [Nat.ofDigitChars] at hread
  simpa only [ofDigits, Nat.mul_comm] using hread

theorem isDigit_of_mem_toDigits {n : ℕ} {c : Char} (hmem : c ∈ Nat.toDigits 10 n) :
    isDigit c = true := by
  have hdigit := Nat.isDigit_of_mem_toDigits (by decide) (by decide) hmem
  simpa [isDigit, Char.isDigit, Char.le_def] using hdigit

end Digits

section Spelled

variable {whole fraction : List Char} {exponent : ℤ}

/-- An exponent is read back from its text. -/
theorem readExponent_part (exponent : ℤ) : readExponent (exponentPart exponent) = some exponent := by
  have hdigits : (Nat.toDigits 10 exponent.natAbs).all isDigit = true :=
    List.all_eq_true.mpr fun c hc => isDigit_of_mem_toDigits hc
  have hne : (Nat.toDigits 10 exponent.natAbs).isEmpty = false :=
    List.isEmpty_eq_false_iff.mpr Nat.toDigits_ne_nil
  rw [exponentPart]
  by_cases hzero : exponent = 0
  · simp [hzero, readExponent]
  · by_cases hpos : 0 < exponent
    · simp only [hzero, hpos, ↓reduceIte, readExponent, hne, hdigits, Bool.not_false,
        Bool.and_self, ofDigits_toDigits, Option.some.injEq]
      omega
    · simp only [hzero, hpos, ↓reduceIte, readExponent, hne, hdigits, Bool.not_false,
        Bool.and_self, ofDigits_toDigits, Option.some.injEq]
      omega

theorem takeWhile_exponentPart (exponent : ℤ) :
    (exponentPart exponent).takeWhile (fun c => c ≠ 'e' && c ≠ 'E') = [] := by
  rw [exponentPart]
  split
  · rfl
  · rfl

theorem ne_of_isDigit {c : Char} (hdigit : isDigit c = true) {other : Char}
    (hother : isDigit other = false) : c ≠ other := by
  intro heq
  rw [heq, hother] at hdigit
  cases hdigit

theorem mantissa_of_isDigit {c : Char} (hdigit : isDigit c = true) :
    (c ≠ 'e' && c ≠ 'E') = true := by
  simp [ne_of_isDigit hdigit (by decide : isDigit 'e' = false),
    ne_of_isDigit hdigit (by decide : isDigit 'E' = false)]

theorem mantissa_of_mem_fractionPart (hfraction : fraction.all isDigit = true) {c : Char}
    (hc : c ∈ fractionPart fraction) : (c ≠ 'e' && c ≠ 'E') = true := by
  rw [fractionPart] at hc
  split at hc
  · cases hc
  · rcases List.mem_cons.mp hc with rfl | hc
    · decide
    · exact mantissa_of_isDigit (List.all_eq_true.mp hfraction c hc)

theorem takeWhile_fractionPart (fraction : List Char) :
    (fractionPart fraction).takeWhile (fun c => c ≠ '.') = [] := by
  rw [fractionPart]
  split
  · rfl
  · rfl

/-- A decimal in the form of the language is read as the number that it spells. -/
theorem readDecimal_spelled (hne : whole ≠ []) (hwhole : whole.all isDigit = true)
    (hfraction : fraction.all isDigit = true) (exponent : ℤ) :
    readDecimal (spelled whole fraction exponent) =
      some (decimalValue whole fraction exponent) := by
  have hwholeDigits : ∀ c ∈ whole, isDigit c = true := List.all_eq_true.mp hwhole
  have hmantissa : (spelled whole fraction exponent).takeWhile
      (fun c => c ≠ 'e' && c ≠ 'E') = whole ++ fractionPart fraction := by
    rw [spelled, List.takeWhile_append_of_pos, takeWhile_exponentPart, List.append_nil]
    intro c hc
    rcases List.mem_append.mp hc with hc | hc
    · exact mantissa_of_isDigit (hwholeDigits c hc)
    · exact mantissa_of_mem_fractionPart hfraction hc
  have hpoint : (whole ++ fractionPart fraction).takeWhile (fun c => c ≠ '.') = whole := by
    rw [List.takeWhile_append_of_pos, takeWhile_fractionPart, List.append_nil]
    intro c hc
    simpa using ne_of_isDigit (hwholeDigits c hc) (by decide)
  have hafter : (whole ++ fractionPart fraction).drop (whole.length + 1) = fraction := by
    rw [List.drop_append, fractionPart]
    cases fraction with
    | nil => simp
    | cons digit digits => simp
  have hexponent : (spelled whole fraction exponent).drop
      (whole ++ fractionPart fraction).length = exponentPart exponent := by
    rw [spelled, List.drop_left]
  simp only [readDecimal, hmantissa, hpoint, hafter, hexponent, hwhole, hfraction]
  simp [hne, readExponent_part]

end Spelled

section LayOut

variable (significand : ℕ) (exponent : ℤ)

theorem all_isDigit_toDigits : (Nat.toDigits 10 significand).all isDigit = true :=
  List.all_eq_true.mpr fun _ hc => isDigit_of_mem_toDigits hc

theorem all_isDigit_zeros (count : ℕ) : (List.replicate count '0').all isDigit = true := by
  simp [List.all_replicate, isDigit]

/-- Digits of the number, cut at some place, still spell the same number. -/
theorem decimalValue_cut {count : ℕ} (hcount : 0 < count)
    (hle : count ≤ (Nat.toDigits 10 significand).length) {power : ℤ}
    (hpower : power - ((Nat.toDigits 10 significand).length - count : ℕ) = exponent) :
    (Nat.toDigits 10 significand).take count ≠ [] ∧
      ((Nat.toDigits 10 significand).take count).all isDigit = true ∧
      ((Nat.toDigits 10 significand).drop count).all isDigit = true ∧
      decimalValue ((Nat.toDigits 10 significand).take count)
        ((Nat.toDigits 10 significand).drop count) power =
          (significand : ℚ) * 10 ^ exponent := by
  refine ⟨?_, ?_, ?_, ?_⟩
  · intro hnil
    have hzero := congrArg List.length hnil
    rw [List.length_take, List.length_nil] at hzero
    omega
  · exact List.all_eq_true.mpr fun c hc => isDigit_of_mem_toDigits (List.mem_of_mem_take hc)
  · exact List.all_eq_true.mpr fun c hc => isDigit_of_mem_toDigits (List.mem_of_mem_drop hc)
  · rw [decimalValue, List.take_append_drop, ofDigits_toDigits, List.length_drop, hpower]

/-- However its point is set, a written number is a literal of its value that begins with a
digit. -/
theorem layOut_spelled : ∃ whole fraction power,
    layOut significand exponent = spelled whole fraction power ∧ whole ≠ [] ∧
      whole.all isDigit = true ∧ fraction.all isDigit = true ∧
        decimalValue whole fraction power = (significand : ℚ) * 10 ^ exponent := by
  have hdigits := all_isDigit_toDigits significand
  have hvalue := ofDigits_toDigits significand
  have hlength : 0 < (Nat.toDigits 10 significand).length :=
    List.length_pos_iff.mpr Nat.toDigits_ne_nil
  rw [layOut]
  split
  · rename_i hpoint
    have hexponent : (exponent.toNat : ℤ) = exponent := Int.toNat_of_nonneg (by omega)
    refine ⟨_, _, _, rfl, by simp [Nat.toDigits_ne_nil], ?_, rfl, ?_⟩
    · rw [List.all_append, hdigits, all_isDigit_zeros, Bool.and_self]
    · have hpower : (10 : ℚ) ^ exponent = 10 ^ exponent.toNat := by
        rw [← zpow_natCast, hexponent]
      rw [decimalValue, List.append_nil, ofDigits_append, hvalue, ofDigits_zeros,
        List.length_replicate, hpower]
      simp
  · split
    · exact ⟨_, _, _, rfl, decimalValue_cut significand exponent (by omega) (by omega)
        (by omega)⟩
    · split
      · refine ⟨_, _, _, rfl, by simp, by decide, ?_, ?_⟩
        · rw [List.all_append, hdigits, all_isDigit_zeros, Bool.and_self]
        · have hzero : ofDigits 10 ['0'] = 0 := by decide
          rw [decimalValue, ofDigits_append, ofDigits_append, ofDigits_zeros, hvalue, hzero,
            List.length_append, List.length_replicate, Nat.zero_mul, Nat.zero_mul,
            Nat.zero_add, Nat.zero_add]
          congr 2
          omega
      · exact ⟨_, _, _, rfl, decimalValue_cut significand exponent Nat.one_pos hlength
          (by omega)⟩

/-- What the characters of a written number are. -/
def isPlain (c : Char) : Bool := isDigit c || c ∈ ['.', 'e', '+', '-']

theorem isPlain_of_isDigit {c : Char} (hdigit : isDigit c = true) : isPlain c = true := by
  rw [isPlain, hdigit, Bool.true_or]

theorem isPlain_spelled {whole fraction : List Char} (hwhole : whole.all isDigit = true)
    (hfraction : fraction.all isDigit = true) {c : Char}
    (hc : c ∈ spelled whole fraction exponent) : isPlain c = true := by
  rcases List.mem_append.mp hc with hc | hc
  · rcases List.mem_append.mp hc with hc | hc
    · exact isPlain_of_isDigit (List.all_eq_true.mp hwhole c hc)
    · rw [fractionPart] at hc
      split at hc
      · cases hc
      · rcases List.mem_cons.mp hc with rfl | hc
        · decide
        · exact isPlain_of_isDigit (List.all_eq_true.mp hfraction c hc)
  · rw [exponentPart] at hc
    split at hc
    · cases hc
    · rcases List.mem_cons.mp hc with rfl | hc
      · decide
      · rcases List.mem_cons.mp hc with rfl | hc
        · split
          · decide
          · decide
        · exact isPlain_of_isDigit (isDigit_of_mem_toDigits hc)

/-- Wherever the language puts the point, the text spells the same number. -/
theorem readDecimal_layOut :
    readDecimal (layOut significand exponent) =
      some ((significand : ℚ) * 10 ^ exponent) := by
  obtain ⟨whole, fraction, power, hspelled, hne, hwhole, hfraction, hvalue⟩ :=
    layOut_spelled significand exponent
  rw [hspelled, readDecimal_spelled hne hwhole hfraction, hvalue]

theorem isPlain_layOut {c : Char} (hc : c ∈ layOut significand exponent) :
    isPlain c = true := by
  obtain ⟨whole, fraction, power, hspelled, -, hwhole, hfraction, -⟩ :=
    layOut_spelled significand exponent
  rw [hspelled] at hc
  exact isPlain_spelled power hwhole hfraction hc

theorem layOut_head : ∃ c rest, layOut significand exponent = c :: rest ∧ isDigit c = true := by
  obtain ⟨whole, fraction, power, hspelled, hne, hwhole, -⟩ :=
    layOut_spelled significand exponent
  obtain ⟨c, rest, rfl⟩ := List.exists_cons_of_ne_nil hne
  exact ⟨c, _, hspelled, List.all_eq_true.mp hwhole c List.mem_cons_self⟩

end LayOut

section RoundTrip

theorem toNat_le_of_isPlain {c : Char} (hplain : isPlain c = true) : c.toNat ≤ 101 := by
  rw [isPlain, Bool.or_eq_true] at hplain
  rcases hplain with hdigit | hother
  · simp only [isDigit, Bool.and_eq_true, decide_eq_true_eq, Char.le_def] at hdigit
    have hle : c.toNat ≤ '9'.toNat := hdigit.2
    exact Nat.le_trans hle (by decide)
  · simp only [decide_eq_true_eq, List.mem_cons, List.not_mem_nil, or_false] at hother
    rcases hother with rfl | rfl | rfl | rfl
    all_goals decide

theorem isSpace_of_isPlain {c : Char} (hplain : isPlain c = true) : isSpace c = false := by
  have hle := toNat_le_of_isPlain hplain
  by_contra hspace
  rw [Bool.not_eq_false, isSpace, Bool.or_eq_true] at hspace
  rcases hspace with hlisted | hrange
  · have hnone : ∀ d ∈ ['\t', '\n', '\x0b', '\x0c', '\r', ' ', '\u00a0', '\u1680', '\u2028',
        '\u2029', '\u202f', '\u205f', '\u3000', '\ufeff'], isPlain d = false :=
      List.all_iff_forall_prop.mp (by decide)
    rw [hnone c (by simpa using hlisted)] at hplain
    cases hplain
  · rw [Bool.and_eq_true, decide_eq_true_eq, decide_eq_true_eq] at hrange
    omega

/-- A number's text has no blanks around it that could go. -/
theorem trim_of_isPlain {text : List Char} (hplain : ∀ c ∈ text, isPlain c = true) :
    trim text = text := by
  have hkept : ∀ part : List Char, (∀ c ∈ part, isPlain c = true) →
      part.dropWhile isSpace = part := by
    intro part hpart
    cases part with
    | nil => rfl
    | cons c part =>
        rw [List.dropWhile_cons_of_neg]
        rw [isSpace_of_isPlain (hpart c List.mem_cons_self)]
        decide
  rw [trim, hkept text hplain, hkept text.reverse, List.reverse_reverse]
  intro c hc
  exact hplain c (List.mem_reverse.mp hc)

/-- A literal that begins with a digit is read as one, whatever its second character. -/
theorem toNumber_of_isPlain {c : Char} {rest : List Char}
    (hplain : ∀ d ∈ c :: rest, isPlain d = true) (hdigit : isDigit c = true) :
    toNumber (c :: rest) = readSigned false (c :: rest) := by
  have hminus : c ≠ '-' := ne_of_isDigit hdigit (by decide)
  have hplus : c ≠ '+' := ne_of_isDigit hdigit (by decide)
  rw [toNumber, trim_of_isPlain hplain]
  split
  · rename_i heq
    cases heq
  · rename_i heq
    injection heq with heq
    exact absurd heq hminus
  · rename_i heq
    injection heq with heq
    exact absurd heq hplus
  · rename_i marker digits heq
    rw [heq] at hplain
    have hmarker := hplain marker (by simp)
    have hother : ∀ d, isPlain d = false → marker ≠ d := by
      intro d hd hsame
      rw [hsame, hd] at hmarker
      cases hmarker
    rw [if_neg, if_neg, if_neg, heq]
    · simp [hother 'b' (by decide), hother 'B' (by decide)]
    · simp [hother 'o' (by decide), hother 'O' (by decide)]
    · simp [hother 'x' (by decide), hother 'X' (by decide)]
  · rfl

/-- A text in this form is read as the double next to the number that it spells. -/
theorem toNumber_layOut (significand : ℕ) (exponent : ℤ) :
    toNumber (layOut significand exponent) = rounded false (significand * 10 ^ exponent) := by
  obtain ⟨c, rest, hlayOut, hdigit⟩ := layOut_head significand exponent
  have hplain : ∀ d ∈ c :: rest, isPlain d = true := by
    intro d hd
    rw [← hlayOut] at hd
    exact isPlain_layOut significand exponent hd
  have hfinite : c :: rest ≠ "Infinity".toList := by
    intro heq
    have hI := hplain 'I' (by rw [heq]; decide)
    exact absurd hI (by decide)
  rw [hlayOut, toNumber_of_isPlain hplain hdigit, readSigned, if_neg hfinite, ← hlayOut,
    readDecimal_layOut]

/-- The denominator of a double is a power of two, which is why its digits come to an end. -/
theorem den_of_double {x : ℚ} (hdouble : ofRat x = (x : WithTop ℚ)) :
    ∃ places, x.den = 2 ^ places := by
  have hnearest : nearest x = x := by
    simp only [ofRat] at hdouble
    split at hdouble
    · exact WithTop.coe_injective hdouble
    · cases hdouble
  have hquotient : ∃ (count : ℤ) (places : ℕ), x = count / ((2 ^ places : ℤ) : ℚ) := by
    rw [nearest] at hnearest
    refine ⟨roundHalfEven (x / 2 ^ lastExponent x) * 2 ^ (lastExponent x).toNat,
      (-lastExponent x).toNat, ?_⟩
    have hpower : (2 : ℚ) ^ lastExponent x =
        2 ^ (lastExponent x).toNat / 2 ^ (-lastExponent x).toNat := by
      rw [← zpow_natCast, ← zpow_natCast, ← zpow_sub₀ two_ne_zero]
      congr 1
      omega
    push_cast
    rw [mul_div_assoc, ← hpower]
    exact hnearest.symm
  obtain ⟨count, places, hx⟩ := hquotient
  have hdvd : (x.den : ℤ) ∣ 2 ^ places := by
    rw [hx, ← Rat.divInt_eq_div]
    exact Rat.den_dvd count (2 ^ places)
  have hdvd' : x.den ∣ 2 ^ places := by exact_mod_cast hdvd
  obtain ⟨least, -, hden⟩ := (Nat.dvd_prime_pow Nat.prime_two).mp hdvd'
  exact ⟨least, hden⟩

/-- What has a power of two for its denominator has all its digits, so that a double is written
exactly before it is shortened. -/
theorem allDigits_value {x : ℚ} (hpos : 0 < x) (hdouble : ofRat x = (x : WithTop ℚ)) :
    ((allDigits x).1 : ℚ) * 10 ^ (allDigits x).2 = x := by
  obtain ⟨places, hden⟩ := den_of_double hdouble
  have hlog : x.den.log2 = places := by
    rw [hden, Nat.log2_two_pow]
  have hnum : ((x.num.toNat : ℕ) : ℚ) = x.num := by
    rw [← Int.cast_natCast, Int.toNat_of_nonneg (Rat.num_nonneg.mpr hpos.le)]
  rw [allDigits, hlog]
  push_cast
  rw [hnum, zpow_neg, zpow_natCast]
  have hten : (10 : ℚ) ^ places = 5 ^ places * 2 ^ places := by
    rw [← mul_pow]
    norm_num
  have hdiv := Rat.num_div_den x
  rw [hden] at hdiv
  push_cast at hdiv
  calc (x.num : ℚ) * 5 ^ places * (10 ^ places)⁻¹ = x.num / 2 ^ places := by
        rw [hten]
        field_simp
    _ = x := hdiv

/-- The fewest digits are still enough to find the double again. -/
theorem fewestDigits_value {x : ℚ} (hpos : 0 < x) (hdouble : ofRat x = (x : WithTop ℚ)) :
    ofRat ((fewestDigits x).1 * 10 ^ (fewestDigits x).2) = (x : WithTop ℚ) := by
  rw [fewestDigits]
  cases hfind : ((List.range 17).flatMap fun count => candidates x (count + 1)).find?
      fun digits => ofRat (digits.1 * 10 ^ digits.2) = (x : WithTop ℚ) with
  | none =>
      rw [Option.getD_none, allDigits_value hpos hdouble]
      exact hdouble
  | some digits => simpa using List.find?_some hfind

/-- A positive double is read back from its own text, so that writing and reading a setting
changes nothing. -/
theorem toNumber_toText {x : ℚ} (hpos : 0 < x) (hdouble : ofRat x = (x : WithTop ℚ)) :
    toNumber (toText x) = .finite x := by
  rw [toText, toNumber_layOut, rounded, fewestDigits_value hpos hdouble]
  rfl

end RoundTrip

section Doubles

theorem nearest_nonneg {q : ℚ} (hq : 0 ≤ q) : 0 ≤ nearest q := by
  have hle : ((0 : ℤ) : ℚ) * 2 ^ lastExponent q ≤ q := by
    rw [Int.cast_zero, zero_mul]
    exact hq
  have hnearest := le_nearest hle
  rwa [Int.cast_zero, zero_mul] at hnearest

/-- A number that was rounded is a double. Reading its text again therefore gives the number
back. -/
theorem rounded_double {negative : Bool} {q value : ℚ} (hq : 0 ≤ q)
    (hrounded : rounded negative q = .finite value) (hpos : 0 < value) :
    ofRat value = (value : WithTop ℚ) := by
  have hnonneg := nearest_nonneg hq
  rw [rounded] at hrounded
  split at hrounded
  · cases hrounded
  · rename_i near hnear
    have hnear' : ofRat q = (near : WithTop ℚ) := hnear
    have heq : nearest q = near := by
      rw [ofRat] at hnear'
      split at hnear'
      · exact WithTop.coe_injective hnear'
      · cases hnear'
    injection hrounded with hvalue
    rw [heq] at hnonneg
    cases negative with
    | true =>
        rw [if_pos rfl] at hvalue
        linarith
    | false =>
        rw [if_neg Bool.false_ne_true] at hvalue
        rw [hvalue] at hnear' heq
        have hqpos : 0 < q := by
          rcases hq.lt_or_eq with hlt | hzero
          · exact hlt
          · rw [← hzero] at heq
            have hnone : nearest 0 = 0 := by simp [nearest, roundHalfEven]
            rw [hnone] at heq
            linarith
        exact ofRat_coe hqpos hpos hnear'

/-- A positive number that was read in decimal notation is a double. -/
theorem readSigned_double {negative : Bool} {text : List Char} {value : ℚ}
    (hread : readSigned negative text = .finite value) (hpos : 0 < value) :
    ofRat value = (value : WithTop ℚ) := by
  rw [readSigned] at hread
  split at hread
  · cases hread
  · split at hread
    · cases hread
    · rename_i q hdecimal
      have hq : 0 ≤ q := by
        rw [readDecimal] at hdecimal
        split at hdecimal
        · obtain ⟨exponent, -, rfl⟩ := Option.map_eq_some_iff.mp hdecimal
          rw [decimalValue]
          positivity
        · cases hdecimal
      exact rounded_double hq hread hpos

/-- So is one that was read in another base. -/
theorem readRadix_double {base : ℕ} {digits : List Char} {value : ℚ}
    (hread : readRadix base digits = .finite value) (hpos : 0 < value) :
    ofRat value = (value : WithTop ℚ) := by
  rw [readRadix] at hread
  split at hread
  · exact rounded_double (Nat.cast_nonneg _) hread hpos
  · cases hread

/-- A positive number that was read is a double, whatever notation it was written in. -/
theorem toNumber_double {text : List Char} {value : ℚ} (hread : toNumber text = .finite value)
    (hpos : 0 < value) : ofRat value = (value : WithTop ℚ) := by
  rw [toNumber] at hread
  split at hread
  · injection hread with hzero
    rw [← hzero] at hpos
    exact absurd hpos (lt_irrefl 0)
  · exact readSigned_double hread hpos
  · exact readSigned_double hread hpos
  · split at hread
    · exact readRadix_double hread hpos
    · split at hread
      · exact readRadix_double hread hpos
      · split at hread
        · exact readRadix_double hread hpos
        · exact readSigned_double hread hpos
  · exact readSigned_double hread hpos

end Doubles

end NumberText

end MailPanel

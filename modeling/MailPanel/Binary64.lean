import Mathlib.Algebra.Order.Field.Power
import Mathlib.Algebra.Order.Floor.Ring
import Mathlib.Data.Int.Log
import Mathlib.Data.Rat.Floor
import Mathlib.Order.WithBot
import Mathlib.Tactic.GCongr
import Mathlib.Tactic.Linarith
import Mathlib.Tactic.Ring
import Mathlib.Tactic.Positivity
import Mathlib.Tactic.FieldSimp

/-
Non-negative numbers in the binary64 format: a rational number is rounded to the
nearest double, ties to even, and overflows to infinity.
-/

namespace MailPanel

namespace Binary64

/-- The nearest integer, the even one of two. It is the rounding that the standard prescribes,
to whatever digit the exponent makes the last one. -/
def roundHalfEven (q : ℚ) : ℤ :=
  let low := ⌊q⌋
  if q - low < 1 / 2 then low
  else if 1 / 2 < q - low then low + 1
  else if low % 2 = 0 then low
  else low + 1

/-- The exponent of the greatest power of two that a positive number reaches. -/
def exponent (q : ℚ) : ℤ :=
  let guess := (q.num.natAbs.log2 : ℤ) - q.den.log2
  if (2 : ℚ) ^ guess ≤ q then guess else guess - 1

/-- The exponent of the last of the 53 digits; subnormal numbers have fewer. -/
def lastExponent (q : ℚ) : ℤ := max (exponent q - 52) (-1074)

def nearest (q : ℚ) : ℚ :=
  roundHalfEven (q / 2 ^ lastExponent q) * 2 ^ lastExponent q

def ofRat (q : ℚ) : WithTop ℚ :=
  if nearest q < 2 ^ (1024 : ℤ) then nearest q else ⊤

def lift₂ (op : ℚ → ℚ → ℚ) : WithTop ℚ → WithTop ℚ → WithTop ℚ
  | some left, some right => ofRat (op left right)
  | _, _ => ⊤

def add : WithTop ℚ → WithTop ℚ → WithTop ℚ := lift₂ (· + ·)

/-- No factor is zero. -/
def mul : WithTop ℚ → WithTop ℚ → WithTop ℚ := lift₂ (· * ·)

section RoundHalfEven

theorem roundHalfEven_eq_or (q : ℚ) :
    roundHalfEven q = ⌊q⌋ ∨ roundHalfEven q = ⌊q⌋ + 1 := by
  simp only [roundHalfEven]
  split
  · exact Or.inl rfl
  split
  · exact Or.inr rfl
  split
  · exact Or.inl rfl
  · exact Or.inr rfl

theorem roundHalfEven_intCast (n : ℤ) : roundHalfEven n = n := by
  simp [roundHalfEven]

theorem roundHalfEven_mono {p q : ℚ} (hpq : p ≤ q) : roundHalfEven p ≤ roundHalfEven q := by
  have hfloor : ⌊p⌋ ≤ ⌊q⌋ := Int.floor_le_floor hpq
  rcases hfloor.lt_or_eq with hlt | heq
  · rcases roundHalfEven_eq_or p with hp | hp <;> rcases roundHalfEven_eq_or q with hq | hq <;>
      omega
  · simp only [roundHalfEven, heq]
    by_cases hp : p - ⌊q⌋ < 1 / 2
    · rw [if_pos hp]
      split_ifs <;> omega
    · have hq : ¬ q - ⌊q⌋ < 1 / 2 := fun hq => hp (by linarith)
      rw [if_neg hp, if_neg hq]
      by_cases hp' : 1 / 2 < p - ⌊q⌋
      · have hq' : 1 / 2 < q - ⌊q⌋ := by linarith
        rw [if_pos hp', if_pos hq']
      · rw [if_neg hp']
        split_ifs <;> omega

theorem roundHalfEven_le {q : ℚ} {n : ℤ} (hle : q ≤ n) : roundHalfEven q ≤ n := by
  have hmono := roundHalfEven_mono hle
  rwa [roundHalfEven_intCast] at hmono

theorem le_roundHalfEven {q : ℚ} {n : ℤ} (hle : (n : ℚ) ≤ q) : n ≤ roundHalfEven q := by
  have hmono := roundHalfEven_mono hle
  rwa [roundHalfEven_intCast] at hmono

end RoundHalfEven

section Exponent

theorem log2_bounds {n : ℕ} (hn : n ≠ 0) :
    (2 : ℚ) ^ (n.log2 : ℤ) ≤ n ∧ (n : ℚ) < 2 ^ ((n.log2 : ℤ) + 1) := by
  constructor
  · rw [zpow_natCast]
    exact_mod_cast Nat.log2_self_le hn
  · have hlt : n < 2 ^ (n.log2 + 1) := (Nat.log2_lt hn).mp (Nat.lt_succ_self _)
    have hcast : (n : ℚ) < 2 ^ (n.log2 + 1) := by exact_mod_cast hlt
    exact_mod_cast hcast

/-- The digits of a quotient, from those of its parts. The difference of the two logarithms
misses the exponent by one at most, which is what the search for it starts from. -/
theorem quotient_bounds {n d : ℕ} (hn : n ≠ 0) (hd : d ≠ 0) :
    (2 : ℚ) ^ ((n.log2 : ℤ) - d.log2 - 1) ≤ n / d ∧
      (n : ℚ) / d < 2 ^ ((n.log2 : ℤ) - d.log2 + 1) := by
  obtain ⟨hnLow, hnHigh⟩ := log2_bounds hn
  obtain ⟨hdLow, hdHigh⟩ := log2_bounds hd
  have hpos : (0 : ℚ) < d := by exact_mod_cast Nat.pos_of_ne_zero hd
  constructor
  · rw [le_div_iff₀ hpos]
    calc (2 : ℚ) ^ ((n.log2 : ℤ) - d.log2 - 1) * d
        ≤ 2 ^ ((n.log2 : ℤ) - d.log2 - 1) * 2 ^ ((d.log2 : ℤ) + 1) := by gcongr
      _ = 2 ^ (n.log2 : ℤ) := by
          rw [← zpow_add₀ two_ne_zero]
          congr 1
          ring
      _ ≤ n := hnLow
  · rw [div_lt_iff₀ hpos]
    calc (n : ℚ) < 2 ^ ((n.log2 : ℤ) + 1) := hnHigh
      _ = 2 ^ ((n.log2 : ℤ) - d.log2 + 1) * 2 ^ (d.log2 : ℤ) := by
          rw [← zpow_add₀ two_ne_zero]
          congr 1
          ring
      _ ≤ 2 ^ ((n.log2 : ℤ) - d.log2 + 1) * d := by gcongr

theorem exponent_bounds {q : ℚ} (hq : 0 < q) :
    (2 : ℚ) ^ exponent q ≤ q ∧ q < 2 ^ (exponent q + 1) := by
  have hnum : q.num.natAbs ≠ 0 := by
    have hnumPos := Rat.num_pos.mpr hq
    omega
  have hquotient : (q.num.natAbs : ℚ) / q.den = q := by
    have habs : (q.num.natAbs : ℚ) = q.num := by
      rw [← Int.cast_natCast, Int.natAbs_of_nonneg (Rat.num_nonneg.mpr hq.le)]
    rw [habs, Rat.num_div_den]
  obtain ⟨hlow, hhigh⟩ := quotient_bounds hnum q.den_nz
  rw [hquotient] at hlow hhigh
  simp only [exponent]
  split_ifs with hguess
  · exact ⟨hguess, hhigh⟩
  · refine ⟨hlow, ?_⟩
    rw [sub_add_cancel]
    exact not_le.mp hguess

theorem exponent_le_of_lt {q : ℚ} (hq : 0 < q) {e : ℤ} (hlt : q < 2 ^ (e + 1)) :
    exponent q ≤ e := by
  have h := (exponent_bounds hq).1.trans_lt hlt
  have := (zpow_lt_zpow_iff_right₀ (one_lt_two : (1 : ℚ) < 2)).mp h
  omega

end Exponent

section Nearest

/-- A multiple of the last digit's weight is where it was. -/
theorem nearest_mul_zpow {q : ℚ} {n : ℤ} (heq : q = n * 2 ^ lastExponent q) :
    nearest q = q := by
  have hpos : (2 : ℚ) ^ lastExponent q ≠ 0 := (zpow_pos two_pos _).ne'
  have hdiv : q / 2 ^ lastExponent q = n := by
    rw [div_eq_iff hpos]
    exact heq
  rw [nearest, hdiv, roundHalfEven_intCast]
  exact heq.symm

theorem le_nearest {q : ℚ} {n : ℤ} (hle : (n : ℚ) * 2 ^ lastExponent q ≤ q) :
    (n : ℚ) * 2 ^ lastExponent q ≤ nearest q := by
  have hpos : (0 : ℚ) < 2 ^ lastExponent q := zpow_pos two_pos _
  have hround : n ≤ roundHalfEven (q / 2 ^ lastExponent q) :=
    le_roundHalfEven ((le_div_iff₀ hpos).mpr hle)
  have hcast : (n : ℚ) ≤ roundHalfEven (q / 2 ^ lastExponent q) := by exact_mod_cast hround
  rw [nearest]
  gcongr

theorem nearest_le {q : ℚ} {n : ℤ} (hle : q ≤ (n : ℚ) * 2 ^ lastExponent q) :
    nearest q ≤ (n : ℚ) * 2 ^ lastExponent q := by
  have hpos : (0 : ℚ) < 2 ^ lastExponent q := zpow_pos two_pos _
  have hround : roundHalfEven (q / 2 ^ lastExponent q) ≤ n :=
    roundHalfEven_le ((div_le_iff₀ hpos).mpr hle)
  have hcast : (roundHalfEven (q / 2 ^ lastExponent q) : ℚ) ≤ n := by exact_mod_cast hround
  rw [nearest]
  gcongr

/-- A power of two that is not below the last digit's weight is a whole number of them. -/
theorem zpow_eq_mul {k e : ℤ} (hle : k ≤ e) :
    (2 : ℚ) ^ e = ((2 ^ (e - k).toNat : ℤ) : ℚ) * 2 ^ k := by
  have hnat : ((e - k).toNat : ℤ) = e - k := Int.toNat_of_nonneg (by omega)
  push_cast
  rw [← zpow_natCast, hnat, ← zpow_add₀ two_ne_zero, sub_add_cancel]

/-- Zero is a multiple of every digit's weight, so that rounding does not go below it. -/
theorem nearest_nonneg {q : ℚ} (hq : 0 ≤ q) : 0 ≤ nearest q := by
  have hzero : ((0 : ℤ) : ℚ) * 2 ^ lastExponent q ≤ q := by
    rw [Int.cast_zero, zero_mul]
    exact hq
  have hle := le_nearest hzero
  rwa [Int.cast_zero, zero_mul] at hle

/-- Whole numbers of 53 digits are doubles. -/
theorem nearest_natCast {n : ℕ} (hpos : 0 < n) (hn : n < 2 ^ 53) : nearest n = n := by
  have hlt : (n : ℚ) < 2 ^ ((52 : ℤ) + 1) := by
    have hcast : (n : ℚ) < 2 ^ 53 := by exact_mod_cast hn
    exact_mod_cast hcast
  have hexp := exponent_le_of_lt (by exact_mod_cast hpos) hlt
  have hlast : lastExponent n ≤ 0 := by
    simp only [lastExponent]
    omega
  have hunit := zpow_eq_mul hlast
  rw [zpow_zero] at hunit
  apply nearest_mul_zpow (n := n * 2 ^ (0 - lastExponent n).toNat)
  push_cast at hunit ⊢
  rw [mul_assoc, ← hunit, mul_one]

/-- A rounded number stays where it is. So a number that was read once is read the same again,
however it is spelled. -/
theorem nearest_nearest {q : ℚ} (hq : 0 < q) (hpos : 0 < nearest q) :
    nearest (nearest q) = nearest q := by
  by_cases hlast : lastExponent (nearest q) ≤ lastExponent q
  · have hunit := zpow_eq_mul hlast
    apply nearest_mul_zpow (n := roundHalfEven (q / 2 ^ lastExponent q) *
      2 ^ (lastExponent q - lastExponent (nearest q)).toNat)
    push_cast at hunit ⊢
    rw [mul_assoc, ← hunit]
    rfl
  · -- Rounding went up to a power of two.
    have hexp : lastExponent (nearest q) = exponent (nearest q) - 52 := by
      simp only [lastExponent] at hlast ⊢
      omega
    have hlow := (exponent_bounds hpos).1
    have hbelow : ∀ e, lastExponent q ≤ e → q ≤ 2 ^ e → exponent (nearest q) ≤ e := by
      intro e he hle
      rw [zpow_eq_mul he] at hle
      have hrounded := nearest_le hle
      rw [← zpow_eq_mul he] at hrounded
      exact (zpow_le_zpow_iff_right₀ one_lt_two).mp (hlow.trans hrounded)
    have hhigh : q ≤ 2 ^ (exponent q + 1) := (exponent_bounds hq).2.le
    have hmax : q ≤ 2 ^ max (lastExponent q) (exponent q + 1) :=
      hhigh.trans (zpow_le_zpow_right₀ one_le_two (le_max_right _ _))
    have hupper := hbelow _ (le_max_left _ _) hmax
    have hnormal : lastExponent q ≤ exponent q + 1 := by omega
    have heq : exponent (nearest q) = exponent q + 1 := by
      have hlastExponent : exponent q - 52 ≤ lastExponent q := le_max_left _ _
      omega
    have hpower : nearest q = 2 ^ exponent (nearest q) := by
      apply le_antisymm _ hlow
      rw [heq, zpow_eq_mul hnormal]
      rw [zpow_eq_mul hnormal] at hhigh
      exact nearest_le hhigh
    apply nearest_mul_zpow (n := 2 ^ 52)
    have hunit : (2 : ℚ) ^ (52 : ℤ) * 2 ^ (exponent (nearest q) - 52) =
        2 ^ exponent (nearest q) := by
      rw [← zpow_add₀ two_ne_zero]
      congr 1
      omega
    rw [hexp]
    calc nearest q = (2 : ℚ) ^ (52 : ℤ) * 2 ^ (exponent (nearest q) - 52) :=
          hpower.trans hunit.symm
      _ = ((2 ^ 52 : ℤ) : ℚ) * 2 ^ (exponent (nearest q) - 52) := by norm_num

end Nearest

section OfRat

theorem ofRat_natCast {n : ℕ} (hpos : 0 < n) (hn : n < 2 ^ 53) : ofRat n = (n : ℚ) := by
  have hlt : (n : ℚ) < 2 ^ (1024 : ℤ) := by
    have hcast : (n : ℚ) < 2 ^ (53 : ℤ) := by exact_mod_cast hn
    exact hcast.trans_le (zpow_le_zpow_right₀ one_le_two (by norm_num))
  rw [ofRat, nearest_natCast hpos hn, if_pos hlt]

/-- A double is the double nearest to it. -/
theorem ofRat_coe {p q : ℚ} (hp : 0 < p) (hq : 0 < q) (hround : ofRat p = (q : WithTop ℚ)) :
    ofRat q = (q : WithTop ℚ) := by
  simp only [ofRat] at hround
  split at hround
  · rename_i hlt
    have heq : nearest p = q := WithTop.coe_injective hround
    rw [← heq] at hq ⊢
    rw [ofRat, nearest_nearest hp hq, if_pos hlt]
  · cases hround

end OfRat

end Binary64

end MailPanel

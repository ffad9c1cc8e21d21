import Mathlib.Data.Int.Log
import Mathlib.Algebra.Order.Field.Power
import Mathlib.Tactic.FieldSimp
import Mathlib.Tactic.NormNum
import Mathlib.Tactic.Positivity
import OpenWrtCopilot.Verified.PyFloat

/-!
# Rounding to binary64

The double nearest to a rational number, the one with the even last digit of two.  Results that are
too large for a double are not treated here: `nearest` goes on with larger exponents.

## Main results

* `nearest_nearest` — a double is rounded to itself.
* `nearest_mono` — rounding keeps the order.
* `nearest_div_two_pow` — dividing by a power of two and rounding commute, where the quotient is
  not subnormal.
* `nearest_natCast` — integers of 53 bits are doubles.
-/

namespace OpenWrtCopilot.Verified.Binary64

open Verified.PyFloat

/-! ## The nearest double -/

/-- The exponent of the last digit of a double near `q`. -/
def exponent (q : ℚ) : ℤ := max (Int.log 2 |q| - 52) (-1074)

/-- The double nearest to `q`. -/
def nearest (q : ℚ) : ℚ := roundHalfEven (q / 2 ^ exponent q) * 2 ^ exponent q

/-- `round(x, digits)` for a double: the double nearest to the decimal number. -/
def roundTo (digits : ℕ) (x : ℚ) : ℚ := nearest (roundHalfEven (x * 10 ^ digits) / 10 ^ digits)

theorem roundHalfEven_intCast (m : ℤ) : roundHalfEven (m : ℚ) = m := by
  rw [roundHalfEven]
  simp

theorem two_zpow_pos (e : ℤ) : (0 : ℚ) < 2 ^ e := zpow_pos (by norm_num) e

theorem two_zpow_le {d e : ℤ} (h : d ≤ e) : (2 : ℚ) ^ d ≤ 2 ^ e :=
  zpow_le_zpow_right₀ (by norm_num) h

/-- A number has at most 53 digits before the last one. -/
theorem lt_two_zpow {q : ℚ} : q < 2 ^ (53 + exponent q) := by
  have hlog := Int.lt_zpow_succ_log_self (R := ℚ) (b := 2) (by decide) |q|
  rw [Nat.cast_ofNat] at hlog
  refine lt_of_le_of_lt (le_abs_self q) (hlog.trans_le (two_zpow_le ?_))
  rw [exponent]
  omega

/-- A number has 53 digits, unless its last one has the smallest exponent. -/
theorem two_zpow_le_of_exponent {q : ℚ} (hq : 0 < q) (h : -1074 < exponent q) :
    2 ^ (52 + exponent q) ≤ q := by
  have hlog := Int.zpow_log_le_self (R := ℚ) (b := 2) (by decide) hq
  rw [Nat.cast_ofNat] at hlog
  have hexponent : 52 + exponent q = Int.log 2 q := by
    rw [exponent, abs_of_pos hq] at h ⊢
    omega
  rw [hexponent]
  exact hlog

theorem exponent_le {q : ℚ} (hq : 0 < q) {e : ℤ} (he : -1074 ≤ e) (h : q < 2 ^ (53 + e)) :
    exponent q ≤ e := by
  have hlog := (Int.lt_zpow_iff_log_lt (R := ℚ) (b := 2) (by decide) hq (x := 53 + e)).mp
    (by rw [Nat.cast_ofNat]; exact h)
  rw [exponent, abs_of_pos hq]
  omega

theorem exponent_mono {x y : ℚ} (hx : 0 < x) (h : x ≤ y) : exponent x ≤ exponent y := by
  have hlog := Int.log_mono_right (b := 2) hx h
  rw [exponent, exponent, abs_of_pos hx, abs_of_pos (hx.trans_le h)]
  omega

/-! ## Numbers that are doubles -/

/-- A number with a last digit that a double can have is a double. -/
theorem nearest_of_multiple {q : ℚ} {m e : ℤ} (hq : q = m * 2 ^ e) (he : exponent q ≤ e) :
    nearest q = q := by
  have hquotient : q / 2 ^ exponent q = ((m * 2 ^ (e - exponent q).toNat : ℤ) : ℚ) := by
    have hsplit : (2 : ℚ) ^ e = 2 ^ (e - exponent q).toNat * 2 ^ exponent q := by
      rw [← zpow_natCast, ← zpow_add₀ (by norm_num)]
      congr 1
      omega
    rw [div_eq_iff (two_zpow_pos _).ne', Int.cast_mul, Int.cast_pow, Int.cast_ofNat, mul_assoc,
      ← hsplit]
    exact hq
  rw [nearest, hquotient, roundHalfEven_intCast, ← hquotient]
  exact div_mul_cancel₀ q (two_zpow_pos _).ne'

@[simp] theorem nearest_zero : nearest 0 = 0 :=
  nearest_of_multiple (m := 0) (by rw [Int.cast_zero, zero_mul]) le_rfl

/-- Integers of 53 bits are doubles. -/
theorem nearest_natCast {n : ℕ} (h : n ≤ 2 ^ 53) : nearest (n : ℚ) = n := by
  rcases Nat.eq_zero_or_pos n with rfl | hpos
  · rw [Nat.cast_zero, nearest_zero]
  · have hq : (0 : ℚ) < n := Nat.cast_pos.mpr hpos
    rcases h.eq_or_lt with rfl | hlt
    · have hcarry : ((2 ^ 53 : ℕ) : ℚ) = ((2 ^ 52 : ℤ) : ℚ) * 2 ^ (1 : ℤ) := by norm_num
      refine nearest_of_multiple hcarry (exponent_le hq (by decide) ?_)
      norm_num
    · refine nearest_of_multiple (m := n) (e := 0) (by simp) (exponent_le hq (by decide) ?_)
      have hcast : (n : ℚ) < ((2 ^ 53 : ℕ) : ℚ) := Nat.cast_lt.mpr hlt
      exact hcast.trans_le (by norm_num)

/-- The double nearest to an integer is an integer. -/
theorem exists_nearest_natCast (n : ℕ) : ∃ k : ℤ, nearest (n : ℚ) = k := by
  by_cases hsmall : n ≤ 2 ^ 53
  · exact ⟨n, nearest_natCast hsmall⟩
  · have hlog : 53 ≤ Int.log 2 (n : ℚ) := by
      rw [Int.log_natCast]
      exact_mod_cast Nat.le_log_of_pow_le (by decide) (by omega : 2 ^ 53 ≤ n)
    have hexponent : 0 ≤ exponent (n : ℚ) := by
      rw [exponent, Nat.abs_cast]
      omega
    obtain ⟨e, he⟩ := Int.eq_ofNat_of_zero_le hexponent
    refine ⟨roundHalfEven (n / 2 ^ exponent (n : ℚ)) * 2 ^ e, ?_⟩
    rw [nearest, he, zpow_natCast]
    norm_cast

theorem nearest_nonneg {q : ℚ} (h : 0 ≤ q) : 0 ≤ nearest q := by
  refine mul_nonneg (Int.cast_nonneg ?_) (two_zpow_pos _).le
  rw [← roundHalfEven_intCast 0]
  exact roundHalfEven_mono (by rw [Int.cast_zero]; exact div_nonneg h (two_zpow_pos _).le)

theorem round_le {q : ℚ} : roundHalfEven (q / 2 ^ exponent q) ≤ 2 ^ 53 := by
  have hlt : q / 2 ^ exponent q ≤ ((2 ^ 53 : ℤ) : ℚ) := by
    rw [div_le_iff₀ (two_zpow_pos _), Int.cast_pow, Int.cast_ofNat, ← zpow_natCast,
      ← zpow_add₀ (by norm_num)]
    exact lt_two_zpow.le
  calc roundHalfEven (q / 2 ^ exponent q) ≤ roundHalfEven ((2 ^ 53 : ℤ) : ℚ) :=
      roundHalfEven_mono hlt
    _ = 2 ^ 53 := roundHalfEven_intCast _

theorem nearest_le {q : ℚ} : nearest q ≤ 2 ^ (53 + exponent q) := by
  rw [nearest, zpow_add₀ (by norm_num)]
  refine mul_le_mul_of_nonneg_right ?_ (two_zpow_pos _).le
  exact_mod_cast round_le

/-- A double is rounded to itself. -/
theorem nearest_nearest {q : ℚ} (h : 0 ≤ q) : nearest (nearest q) = nearest q := by
  rcases (nearest_nonneg h).eq_or_lt with hzero | hpos
  · rw [← hzero, nearest_zero]
  · have hleast : -1074 ≤ exponent q := le_max_right _ _
    rcases nearest_le.eq_or_lt with heq | hlt
    · -- the carry into one more digit
      have hcarry : nearest q = ((2 ^ 52 : ℤ) : ℚ) * 2 ^ (exponent q + 1) := by
        rw [heq, Int.cast_pow, Int.cast_ofNat, ← zpow_natCast, ← zpow_add₀ (by norm_num)]
        congr 1
        omega
      refine nearest_of_multiple hcarry (exponent_le hpos (by omega) ?_)
      rw [heq]
      exact zpow_lt_zpow_right₀ (by norm_num) (by omega)
    · exact nearest_of_multiple rfl (exponent_le hpos hleast hlt)

/-! ## Order -/

/-- Rounding keeps the order. -/
theorem nearest_mono {x y : ℚ} (hx : 0 ≤ x) (h : x ≤ y) : nearest x ≤ nearest y := by
  rcases hx.eq_or_lt with rfl | hpos
  · rw [nearest_zero]
    exact nearest_nonneg h
  · rcases (exponent_mono hpos h).eq_or_lt with heq | hlt
    · rw [nearest, nearest, heq]
      refine mul_le_mul_of_nonneg_right (Int.cast_le.mpr (roundHalfEven_mono ?_))
        (two_zpow_pos _).le
      exact div_le_div_of_nonneg_right h (two_zpow_pos _).le
    · have hypos := hpos.trans_le h
      have hnormal : -1074 < exponent y := lt_of_le_of_lt (le_max_right _ _) hlt
      have hround : 2 ^ 52 ≤ roundHalfEven (y / 2 ^ exponent y) := by
        rw [← roundHalfEven_intCast (2 ^ 52)]
        refine roundHalfEven_mono ?_
        rw [le_div_iff₀ (two_zpow_pos _), Int.cast_pow, Int.cast_ofNat, ← zpow_natCast,
          ← zpow_add₀ (by norm_num)]
        exact two_zpow_le_of_exponent hypos hnormal
      calc nearest x ≤ 2 ^ (53 + exponent x) := nearest_le
        _ ≤ 2 ^ (52 + exponent y) := two_zpow_le (by omega)
        _ = (2 ^ 52 : ℤ) * 2 ^ exponent y := by
          rw [Int.cast_pow, Int.cast_ofNat, zpow_add₀ (by norm_num), ← zpow_natCast]
          rfl
        _ ≤ nearest y := by
          rw [nearest]
          exact mul_le_mul_of_nonneg_right (Int.cast_le.mpr hround) (two_zpow_pos _).le

theorem roundTo_mono {digits : ℕ} {x y : ℚ} (hx : 0 ≤ x) (h : x ≤ y) :
    roundTo digits x ≤ roundTo digits y := by
  have hdecimal : 0 ≤ roundHalfEven (x * 10 ^ digits) := by
    rw [← roundHalfEven_intCast 0]
    exact roundHalfEven_mono (by rw [Int.cast_zero]; positivity)
  refine nearest_mono (div_nonneg (Int.cast_nonneg hdecimal) (by positivity)) ?_
  refine div_le_div_of_nonneg_right (Int.cast_le.mpr (roundHalfEven_mono ?_)) (by positivity)
  exact mul_le_mul_of_nonneg_right h (by positivity)

/-! ## Scaling -/

/-- Dividing by a power of two and rounding commute. -/
theorem nearest_div_two_pow {q : ℚ} (hq : 0 < q) {k : ℕ} (h : (k : ℤ) - 1022 ≤ Int.log 2 q) :
    nearest (q / 2 ^ k) = nearest q / 2 ^ k := by
  have hquotient : 0 < q / 2 ^ k := by positivity
  have hscale : ∀ e : ℤ, (2 : ℚ) ^ e = 2 ^ (e - k) * 2 ^ k := by
    intro e
    rw [← zpow_natCast, ← zpow_add₀ (by norm_num)]
    congr 1
    omega
  have hlog : Int.log 2 (q / 2 ^ k) = Int.log 2 q - k := by
    have hlow := Int.zpow_log_le_self (R := ℚ) (b := 2) (by decide) hq
    have hhigh := Int.lt_zpow_succ_log_self (R := ℚ) (b := 2) (by decide) q
    rw [Nat.cast_ofNat] at hlow hhigh
    refine le_antisymm (Int.lt_add_one_iff.mp ?_) ?_
    · refine (Int.lt_zpow_iff_log_lt (R := ℚ) (b := 2) (by decide) hquotient).mp ?_
      rw [Nat.cast_ofNat, div_lt_iff₀ (by positivity), ← zpow_natCast, ← zpow_add₀ (by norm_num)]
      convert hhigh using 2
      omega
    · refine (Int.zpow_le_iff_le_log (R := ℚ) (b := 2) (by decide) hquotient).mp ?_
      rw [Nat.cast_ofNat, le_div_iff₀ (by positivity), ← zpow_natCast, ← zpow_add₀ (by norm_num)]
      convert hlow using 2
      omega
  have hexponent : exponent (q / 2 ^ k) = exponent q - k := by
    rw [exponent, exponent, abs_of_pos hq, abs_of_pos hquotient, hlog]
    omega
  rw [nearest, nearest, hexponent, hscale (exponent q)]
  field_simp

end OpenWrtCopilot.Verified.Binary64

import Mathlib.Data.Rat.Floor
import Mathlib.Tactic.Linarith
import OpenWrtCopilot.Verified.PyText

/-!
# Floats and numbers in texts

Python's floats as far as it matters which operations on them raise: a finite float is a
rational number, and the results of operations are not rounded to 53 bits.  The quotient of two
integers raises where it is too large for a float, `int()` where there is no integer, and
`str()` of an integer where it has too many digits.

## Main results

* `roundHalfEven_mono` — rounding keeps the order.
* `trueDiv_eq_ok_iff` — which quotients are floats.
* `strInt_eq_ok_iff` — which integers have a text.
-/

namespace OpenWrtCopilot.Verified

open PyText

inductive PyFloat
  | finite (q : Rat)
  | infinite (negative : Bool)
  | nan
  deriving DecidableEq

namespace PyFloat

/-! ## Floats -/

/-- From here on a number rounds to no finite float. -/
@[irreducible] def limit : Nat := 2 ^ 1024 - 2 ^ 970

/-- A result, which is infinite where it is too large. -/
def ofRat (q : Rat) : PyFloat := if (limit : Rat) ≤ |q| then .infinite (q < 0) else .finite q

/-- The integer nearest to a number, the even one of two. -/
def roundHalfEven (q : Rat) : Int :=
  let below := q.floor
  let rest := q - below
  if rest < 1 / 2 then below
  else if 1 / 2 < rest then below + 1
  else if below % 2 = 0 then below else below + 1

/-- `f"{x:.{digits}f}"`. -/
def fixed (digits : Nat) : PyFloat → Text
  | .finite q =>
      let scaled := (roundHalfEven (|q| * 10 ^ digits)).toNat
      let fraction := natText (scaled % 10 ^ digits)
      (if q < 0 then ['-'] else []) ++ natText (scaled / 10 ^ digits) ++
        '.' :: (List.replicate (digits - fraction.length) '0' ++ fraction)
  | .infinite negative => if negative then "-inf".toList else "inf".toList
  | .nan => "nan".toList

/-- `round(x, 1)`. -/
def round1 : PyFloat → PyFloat
  | .finite q => .finite (roundHalfEven (q * 10) / 10)
  | x => x

/-- `x * 100`. -/
def timesHundred : PyFloat → PyFloat
  | .finite q => ofRat (q * 100)
  | x => x

/-! ## Integers -/

/-- `a / b` for integers. -/
def trueDiv (a b : Int) : Except Text PyFloat :=
  if b = 0 then .error "division by zero".toList
  else if limit * b.natAbs ≤ a.natAbs then
    .error "integer division result too large for a float".toList
  else .ok (.finite (a / b))

/-- `str(n)`. -/
def strInt (n : Int) : Except Text Text :=
  if n.natAbs < 10 ^ maxStrDigits then .ok (intText n)
  else .error "Exceeds the limit (4300 digits) for integer string conversion".toList

/-- A number is rounded to its floor or to the integer above. -/
theorem roundHalfEven_bounds (q : Rat) :
    q.floor ≤ roundHalfEven q ∧ roundHalfEven q ≤ q.floor + 1 := by
  rw [roundHalfEven]
  split
  · omega
  · split
    · omega
    · split <;> omega

/-- Rounding keeps the order. -/
theorem roundHalfEven_mono {x y : Rat} (h : x ≤ y) : roundHalfEven x ≤ roundHalfEven y := by
  obtain hless | hsame := lt_or_eq_of_le (Rat.floor_monotone h)
  · have hx := (roundHalfEven_bounds x).2
    have hy := (roundHalfEven_bounds y).1
    omega
  · have hrest : x - x.floor ≤ y - y.floor := by rw [hsame]; linarith
    have hy := roundHalfEven_bounds y
    rw [roundHalfEven]
    split
    · omega
    · next hlow =>
        have hup : ∀ hxup : (1 : Rat) / 2 < x - x.floor ∨ ¬ x.floor % 2 = 0,
            x.floor + 1 ≤ roundHalfEven y := by
          intro hxup
          rw [roundHalfEven, ← hsame]
          have hnot : ¬ y - (x.floor : Rat) < 1 / 2 := by
            rw [hsame]
            intro hy
            linarith
          rw [if_neg hnot]
          split
          · exact Int.le_refl _
          · next hhigh =>
              obtain hxup | hodd := hxup
              · rw [← hsame] at hrest
                linarith
              · rw [if_neg hodd]
        split
        · next hhigh => exact hup (.inl hhigh)
        · split
          · omega
          · next hodd => exact hup (.inr hodd)

theorem two_pow_le_sub {k m n : Nat} (hk : k ≤ m) (hm : m < n) : 2 ^ k ≤ 2 ^ n - 2 ^ m := by
  have hdouble : 2 ^ m + 2 ^ m ≤ 2 ^ n := by
    rw [← Nat.two_mul, ← Nat.pow_succ']
    exact Nat.pow_le_pow_right (by decide) hm
  exact (Nat.pow_le_pow_right (by decide) hk).trans (Nat.le_sub_of_add_le hdouble)

theorem two_pow_le_limit {k : Nat} (hk : k ≤ 970) : 2 ^ k ≤ limit := by
  unfold limit
  exact two_pow_le_sub hk (by decide)

theorem trueDiv_eq_ok_iff {a b : Int} :
    (∃ x, trueDiv a b = .ok x) ↔ b ≠ 0 ∧ a.natAbs < limit * b.natAbs := by
  rw [trueDiv]
  split
  · next hzero => exact iff_of_false nofun fun h => h.1 hzero
  · next hne =>
      split
      · next hlarge => exact iff_of_false nofun fun h => Nat.not_lt.mpr hlarge h.2
      · next hsmall => exact iff_of_true ⟨_, rfl⟩ ⟨hne, Nat.lt_of_not_le hsmall⟩

theorem strInt_eq_ok_iff {n : Int} :
    (∃ t, strInt n = .ok t) ↔ n.natAbs < 10 ^ maxStrDigits := by
  rw [strInt]
  split
  · next h => exact iff_of_true ⟨_, rfl⟩ h
  · next h => exact iff_of_false nofun h

end PyFloat

end OpenWrtCopilot.Verified

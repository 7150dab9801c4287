import Mathlib
import SvgPage.Scalar

/-!
# Exact numbers

The real numbers as numbers for geometry: every operation is exact, every decimal has its own value,
and there is nothing but finite numbers.
-/

namespace SvgPage

/-- The number that a decimal writes. -/
noncomputable def Decimal.value (d : Decimal) : ℝ :=
  (if d.negative then -1 else 1) * d.mantissa * (10 : ℝ) ^ d.exponent

open Classical in
noncomputable instance : Scalar ℝ where
  add := (· + ·)
  sub := (· - ·)
  mul := (· * ·)
  div := (· / ·)
  neg := (- ·)
  lt := (· < ·)
  le := (· ≤ ·)
  beq a b := decide (a = b)
  ofNat n := n
  ofDecimal := Decimal.value
  decLt a b := inferInstanceAs (Decidable (a < b))
  decLe a b := inferInstanceAs (Decidable (a ≤ b))
  pi := Real.pi
  abs a := |a|
  sqrt := Real.sqrt
  sin := Real.sin
  cos := Real.cos
  tan := Real.tan
  atan2 y x := Complex.arg ⟨x, y⟩
  ceilNat a := ⌈a⌉₊
  isFinite _ := true

namespace Scalar

-- The numerals of a formula are whole numbers that have been converted, and its functions are those
-- of analysis.

@[simp]
theorem numeral_zero : (@OfNat.ofNat ℝ 0 (instOfNat 0)) = 0 := Nat.cast_zero

@[simp]
theorem numeral_one : (@OfNat.ofNat ℝ 1 (instOfNat 1)) = 1 := Nat.cast_one

@[simp]
theorem pi_real : (pi : ℝ) = Real.pi := rfl

@[simp]
theorem abs_real (a : ℝ) : abs a = |a| := rfl

@[simp]
theorem sqrt_real (a : ℝ) : sqrt a = Real.sqrt a := rfl

@[simp]
theorem sin_real (a : ℝ) : sin a = Real.sin a := rfl

@[simp]
theorem cos_real (a : ℝ) : cos a = Real.cos a := rfl

theorem minimum_eq_min (a b : ℝ) : minimum a b = min a b := by
  have cases : minimum a b = if (decide (b < a) || !decide (a = a)) = true then b else a := rfl
  rw [cases]
  rcases lt_or_ge b a with h | h
  · simp [h, min_eq_right h.le]
  · simp [h.not_gt, min_eq_left h]

theorem maximum_eq_max (a b : ℝ) : maximum a b = max a b := by
  have cases : maximum a b = if (decide (a < b) || !decide (a = a)) = true then b else a := rfl
  rw [cases]
  rcases lt_or_ge a b with h | h
  · simp [h, max_eq_right h.le]
  · simp [h.not_gt, max_eq_left h]

theorem clamp_eq_self {low high a : ℝ} (within : a ∈ Set.Icc low high) : clamp low high a = a := by
  have cases : clamp low high a = if a < low then low else if high < a then high else a := rfl
  rw [cases, if_neg (not_lt.mpr within.1), if_neg (not_lt.mpr within.2)]

/-- The bounds are written as whole numbers of a formula, which are those of the real numbers. -/
theorem clamp_unit {a : ℝ} (within : a ∈ Set.Icc 0 1) : clamp (ofNat 0) (ofNat 1) a = a := by
  have zero : (ofNat 0 : ℝ) = 0 := Nat.cast_zero
  have one : (ofNat 1 : ℝ) = 1 := Nat.cast_one
  rw [zero, one]
  exact clamp_eq_self within

end Scalar

end SvgPage

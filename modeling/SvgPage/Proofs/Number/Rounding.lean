import Mathlib
import SvgPage.Number.Shortest

/-!
# Rounding to single precision

A number in single precision stands for an interval of values, those that are nearest to it; a value
half way between two numbers belongs to the one whose significand is even. Intervals of
different numbers are apart, so a value is rounded to at most one number.
-/

namespace SvgPage

namespace Ratio

def value (r : Ratio) : ℚ := r.num / r.den

theorem value_ofBinary (n : ℕ) (e : ℤ) : (ofBinary n e).value = n * 2 ^ e := by
  unfold ofBinary
  split_ifs with negative
  · obtain ⟨k, rfl⟩ := Int.exists_eq_neg_ofNat negative.le
    simp [value, div_eq_mul_inv]
  · obtain ⟨k, rfl⟩ := Int.eq_ofNat_of_zero_le (not_lt.mp negative)
    simp [value]

theorem value_scaleTen (r : Ratio) (e : ℤ) : (r.scaleTen e).value = r.value * 10 ^ e := by
  unfold scaleTen
  split_ifs with negative
  · obtain ⟨k, rfl⟩ := Int.exists_eq_neg_ofNat negative.le
    simp [value, div_eq_mul_inv, mul_assoc, mul_comm]
  · obtain ⟨k, rfl⟩ := Int.eq_ofNat_of_zero_le (not_lt.mp negative)
    simp [value]
    ring

theorem num_ofBinary_pos {n : ℕ} (e : ℤ) (positive : 0 < n) : 0 < (ofBinary n e).num := by
  unfold ofBinary
  split_ifs
  · exact positive
  · exact Nat.mul_pos positive (by simp)

theorem den_ofBinary_pos (n : ℕ) (e : ℤ) : 0 < (ofBinary n e).den := by
  unfold ofBinary
  split_ifs <;> simp

theorem den_scaleTen_pos {r : Ratio} (positive : 0 < r.den) (e : ℤ) : 0 < (r.scaleTen e).den := by
  unfold scaleTen
  split_ifs
  · exact Nat.mul_pos positive (by simp)
  · exact positive

section

variable {r u : Ratio} (hr : 0 < r.den) (hu : 0 < u.den) (n : ℕ)
include hr hu

theorem mul_le_value_iff : n * (r.den * u.num) ≤ r.num * u.den ↔ n * u.value ≤ r.value := by
  have reordered : n * (r.den * u.num) = n * u.num * r.den := by ring
  rw [value, value, mul_div_assoc', div_le_div_iff₀ (by positivity) (by positivity), reordered]
  exact_mod_cast Iff.rfl

theorem value_le_mul_iff : r.num * u.den ≤ n * (r.den * u.num) ↔ r.value ≤ n * u.value := by
  have reordered : n * (r.den * u.num) = n * u.num * r.den := by ring
  rw [value, value, mul_div_assoc', div_le_div_iff₀ (by positivity) (by positivity), reordered]
  exact_mod_cast Iff.rfl

end

theorem floor_le_lt {r : Ratio} (positive : 0 < r.den) :
    r.floor ≤ r.value ∧ r.value < (r.floor + 1 : ℕ) := by
  have den : (0 : ℚ) < r.den := by exact_mod_cast positive
  constructor
  · exact Nat.cast_div_le
  · rw [value, div_lt_iff₀ den]
    exact_mod_cast (Nat.lt_mul_div_succ r.num positive).trans_eq (Nat.mul_comm ..)

theorem ten_pow_length_toDigits_le {n : ℕ} (positive : 0 < n) :
    10 ^ ((Nat.toDigits 10 n).length - 1) ≤ n := by
  by_contra fewer
  by_cases single : (Nat.toDigits 10 n).length - 1 = 0
  · exact fewer (by rw [single, pow_zero]; exact positive)
  · have short := (Nat.length_toDigits_le_iff (by decide) (Nat.pos_of_ne_zero single)).mpr
      (not_le.mp fewer)
    omega

theorem ten_zpow_decade_le {r : Ratio} (filled : 0 < r.num) (positive : 0 < r.den) :
    (10 : ℚ) ^ (r.decade - 1) ≤ r.value := by
  let shift := (Nat.toDigits 10 r.den).length
  let scaled := r.num * 10 ^ shift / r.den
  have visible : 0 < scaled := by
    have above : r.den < 10 ^ shift :=
      (Nat.length_toDigits_le_iff (by decide) Nat.length_toDigits_pos).mp le_rfl
    exact Nat.div_pos (above.le.trans (Nat.le_mul_of_pos_left _ filled)) positive
  have digits := ten_pow_length_toDigits_le visible
  have decade : r.decade - 1 = ((Nat.toDigits 10 scaled).length - 1 : ℕ) - (shift : ℤ) := by
    have := Nat.length_toDigits_pos (b := 10) (n := scaled)
    show ((Nat.toDigits 10 scaled).length : ℤ) - shift - 1 = _
    omega
  rw [decade, zpow_sub₀ (by norm_num), zpow_natCast, zpow_natCast, value,
    div_le_div_iff₀ (by positivity) (by positivity)]
  have := (Nat.mul_le_mul_right r.den digits).trans (Nat.div_mul_le_self _ _)
  exact_mod_cast this

end Ratio

namespace Digits

def value (d : Digits) : ℚ := d.digits * 10 ^ d.exponent

namespace Interval

/-- The values in an interval; an open one lacks its ends. -/
structure Holds (i : Interval) (v : ℚ) : Prop where
  low : i.low * 2 ^ i.quantum ≤ v
  high : v ≤ i.high * 2 ^ i.quantum
  inner : i.closed = false → i.low * 2 ^ i.quantum < v ∧ v < i.high * 2 ^ i.quantum

theorem contains_iff (i : Interval) (d : Digits) : i.contains d = true ↔ i.Holds d.value := by
  have denominator : 0 < ((Ratio.mk d.digits 1).scaleTen d.exponent).den :=
    Ratio.den_scaleTen_pos Nat.one_pos _
  have unit := Ratio.den_ofBinary_pos 1 i.quantum
  have low := Ratio.mul_le_value_iff denominator unit i.low
  have high := Ratio.value_le_mul_iff denominator unit i.high
  have low' := Ratio.value_le_mul_iff denominator unit i.low
  have high' := Ratio.mul_le_value_iff denominator unit i.high
  have value : ((Ratio.mk d.digits 1).scaleTen d.exponent).value = d.value := by
    rw [Ratio.value_scaleTen]
    simp [Ratio.value, Digits.value]
  rw [Ratio.value_ofBinary, Nat.cast_one, one_mul, value] at low high low' high'
  have below := not_congr low'
  have above := not_congr high'
  rw [not_le, not_le] at below above
  cases closed : i.closed with
  | true =>
    simp only [contains, closed, if_true, Bool.and_eq_true, decide_eq_true_eq, low, high]
    exact ⟨fun h => ⟨h.1, h.2, by simp [closed]⟩, fun h => ⟨h.low, h.high⟩⟩
  | false =>
    simp only [contains, closed, Bool.false_eq_true, if_false, Bool.and_eq_true, decide_eq_true_eq,
      below, above]
    exact ⟨fun h => ⟨h.1.le, h.2.le, fun _ => h⟩, fun h => h.inner closed⟩

/-- The interval of values that round to a number. -/
def rounding (significand : ℕ) (exponent : ℤ) : Interval :=
  .of significand exponent (significand == 8388608 && -149 < exponent)

variable {s : ℕ} {e : ℤ}

theorem low_rounding_ge : 4 * s - 2 ≤ (rounding s e).low := by
  simp only [rounding, of]
  split_ifs <;> omega

/-- Numbers with all their digits reach no farther down than to a quarter of the last one. -/
theorem low_rounding_of_normal (normal : 2 ^ 23 ≤ s) (inner : -149 < e) :
    2 ^ 25 - 1 ≤ (rounding s e).low := by
  simp only [rounding, of, inner, decide_true, Bool.and_true, beq_iff_eq]
  split_ifs <;> omega

theorem Holds.le_high {v : ℚ} (h : (rounding s e).Holds v) :
    v ≤ ((4 * s + 2 : ℕ) : ℚ) * 2 ^ (e - 2) := h.high

theorem Holds.inner_of_odd {v : ℚ} (h : (rounding s e).Holds v) (odd : s % 2 = 1) :
    (rounding s e).low * (2 : ℚ) ^ (e - 2) < v ∧ v < ((4 * s + 2 : ℕ) : ℚ) * 2 ^ (e - 2) :=
  h.inner (by simp [rounding, of, odd])

end Interval

end Digits

namespace Binary

/-- The significand and the exponent of a finite number. -/
structure IsSingle (significand : ℕ) (exponent : ℤ) : Prop where
  bounded : significand < 2 ^ 24
  least : -149 ≤ exponent
  normal : 2 ^ 23 ≤ significand ∨ exponent = -149

end Binary

namespace Digits.Interval

open Binary

variable {s s' : ℕ} {e e' : ℤ} {v w : ℚ}

theorem Holds.lt_of_lt_exponent (n : IsSingle s e) (n' : IsSingle s' e') (before : e < e')
    (h : (rounding s e).Holds v) (h' : (rounding s' e').Holds w) : v < w := by
  have inner : -149 < e' := n.least.trans_lt before
  have normal : 2 ^ 23 ≤ s' := n'.normal.resolve_right inner.ne'
  have unit : (0 : ℚ) < 2 ^ (e - 2) := by positivity
  have below : v < ((2 ^ 26 - 2 : ℕ) : ℚ) * 2 ^ (e - 2) := by
    by_cases last : s = 2 ^ 24 - 1
    · subst last
      exact (h.inner_of_odd (by decide)).2
    · have fewer : 4 * s + 2 < 2 ^ 26 - 2 := by have := n.bounded; omega
      exact h.le_high.trans_lt (mul_lt_mul_of_pos_right (by exact_mod_cast fewer) unit)
  have above : ((2 ^ 25 - 1 : ℕ) : ℚ) * 2 ^ (e' - 2) ≤ w :=
    (mul_le_mul_of_nonneg_right (by exact_mod_cast low_rounding_of_normal normal inner)
      (by positivity)).trans h'.low
  have step : (2 : ℚ) ^ (e - 2) * 2 ≤ 2 ^ (e' - 2) := by
    rw [← zpow_add_one₀ (by norm_num)]
    exact zpow_le_zpow_right₀ (by norm_num) (by omega)
  calc
    v < ((2 ^ 26 - 2 : ℕ) : ℚ) * 2 ^ (e - 2) := below
    _ = ((2 ^ 25 - 1 : ℕ) : ℚ) * (2 ^ (e - 2) * 2) := by push_cast; ring
    _ ≤ ((2 ^ 25 - 1 : ℕ) : ℚ) * 2 ^ (e' - 2) := by gcongr
    _ ≤ w := above

theorem Holds.lt_of_lt_significand (before : s < s') (h : (rounding s e).Holds v)
    (h' : (rounding s' e).Holds w) : v < w := by
  have unit : (0 : ℚ) < 2 ^ (e - 2) := by positivity
  have reach : 4 * s + 2 ≤ (rounding s' e).low := by
    have : 4 * s' - 2 ≤ (rounding s' e).low := low_rounding_ge
    omega
  have meet : ((4 * s + 2 : ℕ) : ℚ) * 2 ^ (e - 2) ≤ (rounding s' e).low * 2 ^ (e - 2) :=
    mul_le_mul_of_nonneg_right (by exact_mod_cast reach) unit.le
  -- Where two intervals meet, one of the significands is odd and its interval lacks the end.
  by_cases odd : s % 2 = 1
  · exact (h.inner_of_odd odd).2.trans_le (meet.trans h'.low)
  by_cases odd' : s' % 2 = 1
  · exact (h.le_high.trans meet).trans_lt (h'.inner_of_odd odd').1
  have apart : 4 * s + 2 < (rounding s' e).low := by
    have : 4 * s' - 2 ≤ (rounding s' e).low := low_rounding_ge
    omega
  exact h.le_high.trans_lt ((mul_lt_mul_of_pos_right (by exact_mod_cast apart) unit).trans_le h'.low)

theorem Holds.lt (n : IsSingle s e) (n' : IsSingle s' e') (before : e < e' ∨ e = e' ∧ s < s')
    (h : (rounding s e).Holds v) (h' : (rounding s' e').Holds w) : v < w := by
  rcases before with before | ⟨rfl, before⟩
  · exact h.lt_of_lt_exponent n n' before h'
  · exact h.lt_of_lt_significand before h'

/-- A value is rounded to at most one number. -/
theorem Holds.unique (n : IsSingle s e) (n' : IsSingle s' e') (h : (rounding s e).Holds v)
    (h' : (rounding s' e').Holds v) : s = s' ∧ e = e' := by
  by_contra different
  have order : (e < e' ∨ e = e' ∧ s < s') ∨ (e' < e ∨ e' = e ∧ s' < s) := by omega
  rcases order with before | after
  · exact lt_irrefl v (h.lt n n' before h')
  · exact lt_irrefl v (h'.lt n' n after h)

end Digits.Interval

namespace Binary

open Float.Model

theorem ofPattern_single (n : ℕ) : ofPattern 8 23 n =
    if n / 8388608 % 256 = 255 then
      if n % 8388608 = 0 then .infinite (n / 2147483648 % 2 == 1) else .notANumber
    else if n / 8388608 % 256 = 0 then .finite (n / 2147483648 % 2 == 1) (n % 8388608) (-149)
    else .finite (n / 2147483648 % 2 == 1) (8388608 + n % 8388608)
      ((n / 8388608 % 256 : ℕ) - 150) := by
  simp [ofPattern]

theorem isSingle_of_ofSingle {x : Float32} {negative : Bool} {s : ℕ} {e : ℤ}
    (h : ofSingle x = .finite negative s e) : IsSingle s e := by
  have range := x.toBits.toNat_lt
  rw [ofSingle, ofPattern_single] at h
  split_ifs at h
  · cases h
    exact ⟨by omega, by omega, .inr rfl⟩
  · cases h
    exact ⟨by omega, by omega, .inl (by omega)⟩

theorem ofPattern_inj {m n : ℕ} (hm : m < 2 ^ 32) (hn : n < 2 ^ 32)
    (h : ofPattern 8 23 m = ofPattern 8 23 n) (number : ofPattern 8 23 n ≠ .notANumber) : m = n := by
  have sign (a b : ℕ) : ((a % 2 == 1) = (b % 2 == 1)) ↔ a % 2 = b % 2 := by
    rw [Bool.eq_iff_iff, beq_iff_eq, beq_iff_eq]
    omega
  rw [ofPattern_single] at number
  rw [ofPattern_single, ofPattern_single] at h
  split_ifs at h number <;>
    simp only [finite.injEq, infinite.injEq, reduceCtorEq, ne_eq, not_true_eq_false, sign] at h number <;>
    omega

theorem toBits_of_notANumber {x : Float32} (h : ofSingle x = .notANumber) :
    x.toBits = 0x7fc00000 := by
  rw [ofSingle, ofPattern_single] at h
  split_ifs at h with field fraction
  have exponent : @UnpackedFloat.unpackExponent .binary32 x.toBits.toBitVec = -1#8 := by
    apply BitVec.eq_of_toNat_eq
    simpa [UnpackedFloat.unpackExponent, BitVec.extractLsb_toNat, Nat.shiftRight_eq_div_pow]
      using field
  have mantissa : @UnpackedFloat.unpackMantissa .binary32 x.toBits.toBitVec ≠ 0#23 := by
    intro zero
    have none := congrArg BitVec.toNat zero
    simp only [UnpackedFloat.unpackMantissa, BitVec.toNat_cast, BitVec.extractLsb_toNat] at none
    exact fraction none
  -- Only one pattern is left for what is not a number.
  exact UInt32.toBitVec_inj.mp (x.toModel.valid.eq_packedNaN exponent mantissa)

theorem ofSingle_injective : Function.Injective ofSingle := by
  intro x y h
  have same : x.toBits = y.toBits := by
    by_cases number : ofSingle y = .notANumber
    · rw [toBits_of_notANumber number, toBits_of_notANumber (h.trans number)]
    · exact UInt32.toNat_inj.mp (ofPattern_inj x.toBits.toNat_lt y.toBits.toNat_lt h number)
  obtain ⟨⟨bits, valid⟩⟩ := x
  obtain ⟨⟨bits', valid'⟩⟩ := y
  cases (show bits = bits' from same)
  rfl

end Binary

end SvgPage

import SvgPage.Proofs.Number.Arithmetic
import SvgPage.Proofs.Number.Shortest

/-!
# Reading decimals

A decimal is read as the double that is nearest to its value. Its mantissa and a power of ten are
multiplied or divided, and where both are doubles already that is one operation on doubles.
-/

namespace SvgPage

namespace Double

open Float.Model Binary
open Ratio (Rounds)

variable {a b : Float} {m n : ℕ} {e f : ℤ}

theorem unpack_of_finite (hm : 0 < m) (ha : ofDouble a = .finite false m e) :
    a.toModel.unpack = .finite .positive m e hm := by
  rw [unpack_eq, ha]
  exact unpacked_finite hm false e

theorem isNearest_mul (ha : ofDouble a = .finite false m e) (hb : ofDouble b = .finite false n f)
    (hm : 2 ^ 52 ≤ m) (hn : 2 ^ 52 ≤ n) :
    IsNearest false (m * 2 ^ e * (n * 2 ^ f)) (a * b) := by
  have pm : 0 < m := by omega
  have pn : 0 < n := by omega
  have product : a * b = ⟨Float.Model.pack (UnpackedFloat.mul .binary64 a.toModel.unpack
      b.toModel.unpack)⟩ := rfl
  rw [product, unpack_of_finite pm ha, unpack_of_finite pn hb]
  refine mul_isNearest pm pn (le_max_of_le_left ?_)
  have digits : 104 ≤ (m * n).log2 := by
    rw [Nat.le_log2 (Nat.mul_pos pm pn).ne', (by norm_num : 2 ^ 104 = 2 ^ 52 * 2 ^ 52)]
    exact Nat.mul_le_mul hm hn
  rw [totalExponent]
  change e + f ≤ ((m * n).log2 : ℤ) + 1 + (e + f) - 53
  omega

theorem isNearest_div (ha : ofDouble a = .finite false m e) (hb : ofDouble b = .finite false n f)
    (hm : 0 < m) (hn : 0 < n) : IsNearest false (m * 2 ^ e / (n * 2 ^ f)) (a / b) := by
  have quotient : a / b = ⟨Float.Model.pack (UnpackedFloat.div .binary64 a.toModel.unpack
      b.toModel.unpack)⟩ := rfl
  rw [quotient, unpack_of_finite hm ha, unpack_of_finite hn hb]
  exact div_isNearest hm hn

theorem toFloat_eq (small : m < 2 ^ 64) : m.toUInt64.toFloat =
    ⟨Float.Model.pack (UnpackedFloat.normalize .binary64 m 0 .positive)⟩ := by
  have same : m.toUInt64.toNat = m := Nat.mod_eq_of_lt small
  change (⟨Float.Model.pack
    (UnpackedFloat.normalize .binary64 m.toUInt64.toNat 0 .positive)⟩ : Float) = _
  rw [same]

theorem exists_ofDouble_toFloat (positive : 0 < m) (small : m < 2 ^ 53) :
    ∃ s e, ofDouble m.toUInt64.toFloat = .finite false s e ∧ 2 ^ 52 ≤ s ∧ (s : ℚ) * 2 ^ e = m := by
  have short : m.log2 < 53 := (Nat.log2_lt positive.ne').mpr small
  obtain ⟨k, digits⟩ := Nat.exists_eq_add_of_le (Nat.le_of_lt_succ short)
  have large : 2 ^ 52 ≤ m * 2 ^ k := by
    calc
      2 ^ 52 = 2 ^ m.log2 * 2 ^ k := by rw [← Nat.pow_add, ← digits]
      _ ≤ m * 2 ^ k := Nat.mul_le_mul_right _ (Nat.log2_self_le positive.ne')
  have few : m * 2 ^ k < 2 ^ 53 := by
    calc
      m * 2 ^ k < 2 ^ (m.log2 + 1) * 2 ^ k :=
        Nat.mul_lt_mul_of_pos_right Nat.lt_log2_self (by positivity)
      _ = 2 ^ 53 := by rw [← Nat.pow_add, Nat.add_right_comm, ← digits]
  have double : IsDouble (m * 2 ^ k) (-k) := ⟨few, by omega, .inl large⟩
  have rounded : UnpackedFloat.normalize .binary64 m 0 .positive =
      UnpackedFloat.roundWithAccuracy .binary64 .positive (m * 2 ^ k) (-k) .exact := by
    have above : compare (m : ℤ) 0 = .gt := Int.compare_eq_gt.mpr (by omega)
    have amount : (0 - Format.binary64.targetExponent (totalExponent m 0)).toNat = k := by
      rw [targetExponent_eq, totalExponent]
      omega
    unfold UnpackedFloat.normalize UnpackedFloat.round UnpackedFloat.decreaseExponent
    rw [above]
    dsimp only [Int.toNat_natCast]
    rw [amount, Nat.shiftLeft_eq, zero_sub]
  refine ⟨m * 2 ^ k, -k, ?_, large, ?_⟩
  · rw [toFloat_eq (by omega), rounded]
    have kept := roundWithAccuracy_of_isDouble double false
    change ofDouble ⟨Float.Model.pack (UnpackedFloat.roundWithAccuracy .binary64 (sign false)
      (m * 2 ^ k) (-k) .exact)⟩ = _
    rw [kept, ofDouble_pack double, if_pos (by omega)]
  · rw [zpow_neg, zpow_natCast]
    push_cast
    field_simp

/-- Whether a double is a whole number with as many digits as a double takes. -/
def isWhole (n : ℕ) : Binary → Bool
  | .finite false s e => 2 ^ 52 ≤ s && (Ratio.ofBinary s e).num == n * (Ratio.ofBinary s e).den
  | _ => false

theorem exists_of_isWhole {x : Binary} (h : isWhole n x = true) :
    ∃ s e, x = .finite false s e ∧ 2 ^ 52 ≤ s ∧ (s : ℚ) * 2 ^ e = n := by
  unfold isWhole at h
  split at h
  · next s e =>
    rw [Bool.and_eq_true, decide_eq_true_eq, beq_iff_eq] at h
    have den : ((Ratio.ofBinary s e).den : ℚ) ≠ 0 := by
      exact_mod_cast (Ratio.den_ofBinary_pos s e).ne'
    refine ⟨s, e, rfl, h.1, ?_⟩
    rw [← Ratio.value_ofBinary, Ratio.value, div_eq_iff den]
    exact_mod_cast h.2
  · cases h

theorem exists_ofDouble_powerOfTen {i : ℕ} (h : i < 23) :
    ∃ s e, ofDouble (Float.exactlyRepresentablePowersOfTen[i]) = .finite false s e ∧
      2 ^ 52 ≤ s ∧ (s : ℚ) * 2 ^ e = 10 ^ i := by
  have table : ∀ i : Fin 23,
      isWhole (10 ^ i.val) (ofDouble (Float.exactlyRepresentablePowersOfTen[i])) := by
    decide +kernel
  exact_mod_cast exists_of_isWhole (table ⟨i, h⟩)

variable {i : ℕ}

/-- A mantissa is scaled up by a power of ten to the nearest double. -/
theorem isNearest_ofScientific_mul (positive : 0 < m) (inside : i ≤ 2048) :
    IsNearest false (m * 10 ^ i) (Float.ofScientific m false i) := by
  rw [Float.ofScientific]
  by_cases fast : m < 2 ^ 53 ∧ i ≤ 22
  · rw [dif_pos fast]
    obtain ⟨s, e, whole, hs, value⟩ := exists_ofDouble_toFloat positive fast.1
    obtain ⟨t, f, power, ht, value'⟩ := exists_ofDouble_powerOfTen (Nat.lt_succ_of_le fast.2)
    rw [← value, ← value']
    exact isNearest_mul whole power hs ht
  · rw [dif_neg fast]
    have up : 0 < m <<< 53 := by
      rw [Nat.shiftLeft_eq]
      positivity
    have tens : 0 < 10 ^ i := by positivity
    have scaled : UnpackedFloat.ofScientific .binary64 m (Int.ofNat i) =
        UnpackedFloat.mul .binary64 (.finite .positive (m <<< 53) (-53) up)
          (.finite .positive (10 ^ i) 0 tens) := by
      rw [UnpackedFloat.ofScientific, dif_neg positive.ne', if_neg, if_neg, if_pos]
      · rfl
      · exact Int.natCast_nonneg i
      · change ¬(i : ℤ) < -(2 ^ 11 + (m.log2 : ℤ))
        omega
      · change ¬(i : ℤ) > 2 ^ 11
        omega
    have digits : 53 ≤ (m <<< 53 * 10 ^ i).log2 := by
      rw [Nat.le_log2 (Nat.mul_pos up tens).ne', Nat.shiftLeft_eq]
      calc
        2 ^ 53 ≤ m * 2 ^ 53 := Nat.le_mul_of_pos_left _ positive
        _ ≤ m * 2 ^ 53 * 10 ^ i := Nat.le_mul_of_pos_right _ tens
    have nearest := mul_isNearest up tens (e := -53) (f := 0) (by
      rw [targetExponent_eq, totalExponent]
      omega)
    have value : (m : ℚ) * 10 ^ i =
        (m <<< 53 : ℕ) * 2 ^ (-53 : ℤ) * ((10 ^ i : ℕ) * 2 ^ (0 : ℤ)) := by
      rw [Nat.shiftLeft_eq, zpow_neg, zpow_zero]
      push_cast
      field_simp
    rw [← value, ← scaled] at nearest
    exact nearest

/-- A mantissa is scaled down by a power of ten to the nearest double. -/
theorem isNearest_ofScientific_div (positive : 0 < m) (some : 0 < i) (inside : i ≤ 2048 + m.log2) :
    IsNearest false (m / 10 ^ i) (Float.ofScientific m true i) := by
  rw [Float.ofScientific]
  by_cases fast : m < 2 ^ 53 ∧ i ≤ 22
  · rw [dif_pos fast]
    obtain ⟨s, e, whole, hs, value⟩ := exists_ofDouble_toFloat positive fast.1
    obtain ⟨t, f, power, ht, value'⟩ := exists_ofDouble_powerOfTen (Nat.lt_succ_of_le fast.2)
    rw [← value, ← value']
    exact isNearest_div whole power (by omega) (by omega)
  · rw [dif_neg fast]
    have tens : 0 < 10 ^ i := by positivity
    have scaled : UnpackedFloat.ofScientific .binary64 m (Int.negOfNat i) =
        UnpackedFloat.div .binary64 (.finite .positive m 0 positive)
          (.finite .positive (10 ^ i) 0 tens) := by
      have negative : Int.negOfNat i = -(i : ℤ) := Int.negOfNat_eq
      have amount : (-Int.negOfNat i).toNat = i := by omega
      rw [UnpackedFloat.ofScientific, dif_neg positive.ne', if_neg, if_neg, if_neg]
      · simp only [amount]
      · omega
      · change ¬Int.negOfNat i < -(2 ^ 11 + (m.log2 : ℤ))
        omega
      · change ¬Int.negOfNat i > 2 ^ 11
        omega
    have nearest := div_isNearest positive tens (e := 0) (f := 0)
    rw [← scaled, zpow_zero, mul_one, mul_one] at nearest
    exact_mod_cast nearest

variable {v : ℚ}

/-- What is less than half of the least double is read as zero. -/
theorem isNearest_zero (nonneg : 0 ≤ v) (small : v < 2 ^ (-1075 : ℤ)) : IsNearest false v 0.0 := by
  have places : v / 2 ^ (-1074 : ℤ) < 1 / 2 := by
    rw [div_lt_iff₀ (by positivity)]
    calc
      v < 2 ^ (-1075 : ℤ) := small
      _ = 1 / 2 * 2 ^ (-1074 : ℤ) := by
        rw [(by norm_num : (-1074 : ℤ) = -1075 + 1), zpow_add_one₀ two_ne_zero]
        ring
  have unit : IsUnit v (-1074) := by
    refine ⟨le_rfl, ?_, .inr rfl⟩
    rw [← div_lt_iff₀ (by positivity)]
    linarith
  have rounds : Rounds (v / 2 ^ (-1074 : ℤ)) 0 := by
    left
    rw [Nat.cast_zero, sub_zero, abs_of_nonneg (by positivity)]
    exact places
  exact isNearest_pack unit rounds

theorem isNearest_infinity (beyond : (2 : ℚ) ^ (1024 : ℤ) ≤ v) : IsNearest false v (1.0 / 0.0) := by
  have reached : limit ≤ v := by
    calc
      limit ≤ 2 ^ 54 * 2 ^ (970 : ℤ) := by
        rw [limit]
        gcongr
        norm_num
      _ = 2 ^ (54 + 970 : ℤ) := by
        rw [zpow_add₀ two_ne_zero]
        norm_num
      _ ≤ v := beyond
  exact .infinite (by decide +kernel) reached

theorem IsNearest.signed {x : Float} (h : IsNearest false v x) (negative : Bool) :
    IsNearest negative v (if negative then -x else x) := by
  cases negative with
  | false => exact h
  | true => exact h.neg

end Double

namespace Decimal

variable {d : Decimal}

theorem magnitude_lt (d : Decimal) :
    d.magnitude < 10 ^ ((digitCount d.mantissa : ℤ) + d.exponent) := by
  have digits : d.mantissa < 10 ^ digitCount d.mantissa :=
    (Nat.length_toDigits_le_iff (by decide) Nat.length_toDigits_pos).mp le_rfl
  rw [magnitude, zpow_add₀ (by norm_num), zpow_natCast]
  gcongr
  exact_mod_cast digits

theorem le_magnitude (positive : 0 < d.mantissa) :
    10 ^ ((digitCount d.mantissa : ℤ) + d.exponent - 1) ≤ d.magnitude := by
  have digits := Ratio.ten_pow_length_toDigits_le positive
  have size : ((digitCount d.mantissa - 1 : ℕ) : ℤ) = digitCount d.mantissa - 1 := by
    have := Nat.length_toDigits_pos (b := 10) (n := d.mantissa)
    rw [digitCount]
    omega
  rw [magnitude, add_sub_right_comm, zpow_add₀ (by norm_num), ← size, zpow_natCast]
  gcongr
  exact_mod_cast digits

theorem digitCount_le (n : ℕ) : digitCount n ≤ n.log2 + 1 := by
  have small : n < 10 ^ (n.log2 + 1) :=
    Nat.lt_log2_self.trans_le (Nat.pow_le_pow_left (by decide) _)
  exact (Nat.length_toDigits_le_iff (by decide) (Nat.succ_pos _)).mpr small

open Double

/-- A decimal is read as the double of its sign that is nearest to its magnitude. -/
theorem isNearest_toFloat (d : Decimal) : IsNearest d.negative d.magnitude d.toFloat := by
  refine .signed ?_ d.negative
  dsimp only
  by_cases none : d.mantissa = 0
  · rw [if_pos none, magnitude, none, Nat.cast_zero, zero_mul]
    exact isNearest_zero le_rfl (by positivity)
  have positive := Nat.pos_of_ne_zero none
  have digits := digitCount_le d.mantissa
  rw [if_neg none]
  split_ifs with huge tiny down
  · apply isNearest_infinity
    calc
      (2 : ℚ) ^ (1024 : ℤ) ≤ (2 ^ 3) ^ (400 : ℤ) := by
        rw [← zpow_natCast, ← zpow_mul]
        exact two_zpow_le (by norm_num)
      _ ≤ 10 ^ (400 : ℤ) := zpow_le_zpow_left₀ (by norm_num) (by norm_num) (by norm_num)
      _ ≤ 10 ^ ((digitCount d.mantissa : ℤ) + d.exponent - 1) :=
        zpow_le_zpow_right₀ (by norm_num) (by omega)
      _ ≤ d.magnitude := le_magnitude positive
  · apply isNearest_zero
    · unfold magnitude
      positivity
    calc
      d.magnitude < 10 ^ ((digitCount d.mantissa : ℤ) + d.exponent) := magnitude_lt d
      _ ≤ 10 ^ (-401 : ℤ) := zpow_le_zpow_right₀ (by norm_num) (by omega)
      _ ≤ (2 ^ 3) ^ (-401 : ℤ) := by
        rw [zpow_neg, zpow_neg]
        exact inv_anti₀ (by positivity)
          (zpow_le_zpow_left₀ (by norm_num) (by norm_num) (by norm_num))
      _ ≤ 2 ^ (-1075 : ℤ) := by
        rw [← zpow_natCast, ← zpow_mul]
        exact two_zpow_le (by norm_num)
  · obtain ⟨i, exponent⟩ := Int.exists_eq_neg_ofNat down.le
    have amount : d.exponent.natAbs = i := by omega
    rw [magnitude, exponent, ← exponent, amount, exponent, zpow_neg, zpow_natCast, ← div_eq_mul_inv]
    exact isNearest_ofScientific_div positive (by omega) (by omega)
  · obtain ⟨i, exponent⟩ := Int.eq_ofNat_of_zero_le (not_lt.mp down)
    have amount : d.exponent.toNat = i := by omega
    rw [magnitude, amount, exponent, zpow_natCast]
    exact isNearest_ofScientific_mul positive (by omega)

end Decimal

end SvgPage

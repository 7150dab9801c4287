import SvgPage.Proofs.Number.Nearest

/-!
# Doubles are rounded to the nearest

A product or a quotient is computed in full and then cut down to the units of a double. Two bits say
where the number stands between the mantissa that is left and the next one, and each digit that is
dropped goes into them, so the mantissa is rounded as the whole number would be.
-/

namespace SvgPage.Double

open Float.Model UnpackedFloat Binary
open Ratio (Rounds)

/-- A mantissa with residual bits that tell where a number stands above it. -/
inductive Tracks : ExtendedMantissa → ℚ → Prop
  | exact {m : ℕ} : Tracks ⟨m, false, false⟩ m
  | below {m : ℕ} {w : ℚ} : m < w → w < m + 1 / 2 → Tracks ⟨m, false, true⟩ w
  | half {m : ℕ} : Tracks ⟨m, true, false⟩ (m + 1 / 2)
  | above {m : ℕ} {w : ℚ} : m + 1 / 2 < w → w < m + 1 → Tracks ⟨m, true, true⟩ w

namespace Tracks

variable {em : ExtendedMantissa} {w : ℚ}

theorem bounds (h : Tracks em w) : em.mantissa ≤ w ∧ w < em.mantissa + 1 := by
  cases h with
  | exact => exact ⟨le_rfl, lt_add_one _⟩
  | below least few => exact ⟨least.le, by linarith⟩
  | half => constructor <;> linarith
  | above least few => exact ⟨by linarith, few⟩

theorem shiftRightOne (h : Tracks em w) : Tracks em.shiftRightOne (w / 2) := by
  obtain ⟨m, roundBit, stickyBit⟩ := em
  obtain ⟨n, rfl | rfl⟩ := Nat.even_or_odd' m
  · have half : 2 * n / 2 = n := by omega
    have last : (2 * n % 2 != 0) = false := by simp
    rw [ExtendedMantissa.shiftRightOne, half, last]
    cases h with
    | exact =>
      have value : ((2 * n : ℕ) : ℚ) / 2 = n := by
        push_cast
        ring
      rw [value]
      exact .exact
    | below | half | above =>
      push_cast at *
      exact .below (by linarith) (by linarith)
  · have half : (2 * n + 1) / 2 = n := by omega
    have last : ((2 * n + 1) % 2 != 0) = true := by
      rw [Nat.mul_add_mod]
      rfl
    rw [ExtendedMantissa.shiftRightOne, half, last]
    cases h with
    | exact =>
      have value : ((2 * n + 1 : ℕ) : ℚ) / 2 = n + 1 / 2 := by
        push_cast
        ring
      rw [value]
      exact .half
    | below | half | above =>
      push_cast at *
      exact .above (by linarith) (by linarith)

theorem shiftRight (h : Tracks em w) (n : ℕ) : Tracks (em >>> n) (w / 2 ^ n) := by
  induction n with
  | zero =>
    rw [pow_zero, div_one]
    exact h
  | succ n ih =>
    rw [pow_succ, ← div_div]
    exact ih.shiftRightOne

theorem rounds (h : Tracks em w) : Rounds w em.roundedMantissa := by
  cases h with
  | exact => exact Ratio.rounds_natCast _
  | @below m w least few =>
    refine .inl (abs_lt.mpr ?_)
    change -(1 / 2) < w - m ∧ w - m < 1 / 2
    constructor <;> linarith
  | @half m =>
    change Rounds (m + 1 / 2) (m + m % 2)
    right
    rcases Nat.mod_two_eq_zero_or_one m with even | odd
    · rw [even]
      exact ⟨by norm_num, even⟩
    · rw [odd]
      push_cast
      exact ⟨by norm_num, by omega⟩
  | @above m w least few =>
    refine .inl (abs_lt.mpr ?_)
    change -(1 / 2) < w - (m + 1 : ℕ) ∧ w - (m + 1 : ℕ) < 1 / 2
    push_cast
    constructor <;> linarith

theorem ofMantissa (m : ℕ) : Tracks (.ofMantissaAndAccuracy m .exact) m := exact

theorem ofFraction (a : ℕ) {b : ℕ} (positive : 0 < b) :
    Tracks (.ofMantissaAndAccuracy (a / b) (accuracyOfFraction (a % b) b)) (a / b) := by
  have small := Ratio.cast_mod_div_lt_one a positive
  rw [Ratio.cast_div_eq a positive]
  unfold accuracyOfFraction
  by_cases whole : a % b = 0
  · rw [if_pos whole, whole, Nat.cast_zero, zero_div, add_zero]
    exact exact
  have some : 0 < ((a % b : ℕ) : ℚ) / b := by
    have := Nat.pos_of_ne_zero whole
    positivity
  rw [if_neg whole]
  rcases Ratio.half_cases (a % b) positive with ⟨less, part⟩ | ⟨tie, part⟩ | ⟨more, part⟩
  · rw [Nat.compare_eq_lt.mpr less]
    exact below (by linarith) (by linarith)
  · rw [Nat.compare_eq_eq.mpr tie, part]
    exact half
  · rw [Nat.compare_eq_gt.mpr more]
    exact above (by linarith) (by linarith)

end Tracks

theorem targetExponent_eq (t : ℤ) :
    Format.binary64.targetExponent t = max (t - 53) (-1074) := rfl

section

variable {m : ℕ} {e : ℤ} {accuracy : Accuracy} {w : ℚ}

/-- The exponent that a mantissa is shifted to is that of the units around the number. -/
theorem isUnit_targetExponent (tracks : Tracks (.ofMantissaAndAccuracy m accuracy) w)
    (reach : e ≤ Format.binary64.targetExponent (totalExponent m e)) :
    IsUnit (w * 2 ^ e) (Format.binary64.targetExponent (totalExponent m e)) := by
  have mantissa : (ExtendedMantissa.ofMantissaAndAccuracy m accuracy).mantissa = m := by
    unfold ExtendedMantissa.ofMantissaAndAccuracy
    split <;> rfl
  obtain ⟨least, few⟩ := tracks.bounds
  rw [mantissa] at least few
  rw [targetExponent_eq, totalExponent] at reach ⊢
  generalize target : max ((m.log2 : ℤ) + 1 + e - 53) (-1074) = q at reach ⊢
  refine ⟨by omega, ?_, ?_⟩
  · calc
      w * 2 ^ e < (m + 1) * 2 ^ e := by gcongr
      _ ≤ 2 ^ ((m.log2 : ℤ) + 1) * 2 ^ e := by
        gcongr
        exact_mod_cast Nat.lt_log2_self (n := m)
      _ = 2 ^ ((m.log2 : ℤ) + 1 + e) := (zpow_add₀ two_ne_zero _ _).symm
      _ ≤ 2 ^ (53 + q) := two_zpow_le (by omega)
      _ = 2 ^ 53 * 2 ^ q := by
        rw [zpow_add₀ two_ne_zero]
        norm_num
  · by_cases last : q = -1074
    · exact .inr last
    · have positive : 0 < m := by
        by_contra none
        rw [Nat.eq_zero_of_not_pos none, Nat.log2_zero] at target
        omega
      refine .inl ?_
      calc
        2 ^ 52 * (2 : ℚ) ^ q = 2 ^ (52 + q) := by
          rw [zpow_add₀ two_ne_zero]
          norm_num
        _ ≤ 2 ^ ((m.log2 : ℤ) + e) := two_zpow_le (by omega)
        _ ≤ m * 2 ^ e := Single.le_value positive e
        _ ≤ w * 2 ^ e := by gcongr

theorem shiftToTargetExponent_eq (accuracy : Accuracy)
    (reach : e ≤ Format.binary64.targetExponent (totalExponent m e)) :
    shiftToTargetExponent .binary64 m e accuracy =
      (ExtendedMantissa.ofMantissaAndAccuracy m accuracy >>>
        (Format.binary64.targetExponent (totalExponent m e) - e).toNat,
        Format.binary64.targetExponent (totalExponent m e)) := by
  have shifted : e + (Format.binary64.targetExponent (totalExponent m e) - e).toNat =
      Format.binary64.targetExponent (totalExponent m e) := by omega
  unfold shiftToTargetExponent shiftToExponent
  dsimp only
  rw [shifted]

/-- Rounded units have as many digits as a double takes, or are full and lose their last one. -/
theorem shiftToTargetExponent_rounded {k : ℕ} {q : ℤ} (all : k ≤ 2 ^ 53) (least : -1074 ≤ q) :
    shiftToTargetExponent .binary64 k q .exact =
      (⟨(carry k q).1, false, false⟩, (carry k q).2) := by
  unfold shiftToTargetExponent shiftToExponent carry
  rw [targetExponent_eq, totalExponent]
  dsimp only
  split_ifs with full
  · have target : max (((2 ^ 53 : ℕ).log2 : ℤ) + 1 + q - 53) (-1074) - q = 1 := by
      rw [Nat.log2_two_pow]
      omega
    rw [full, target]
    rfl
  · have short : k.log2 < 53 := by
      rcases Nat.eq_zero_or_pos k with rfl | positive
      · decide
      · exact (Nat.log2_lt positive.ne').mpr (by omega)
    have target : (max ((k.log2 : ℤ) + 1 + q - 53) (-1074) - q).toNat = 0 := by omega
    rw [target]
    exact Prod.ext rfl (Int.add_zero q)

theorem roundWithAccuracy_eq {em : ExtendedMantissa} {q : ℤ} (negative : Bool)
    (shifted : shiftToTargetExponent .binary64 m e accuracy = (em, q))
    (all : em.roundedMantissa ≤ 2 ^ 53) (least : -1074 ≤ q) :
    roundWithAccuracy .binary64 (sign negative) m e accuracy =
      unpacked
        (.finite negative (carry em.roundedMantissa q).1 (carry em.roundedMantissa q).2) := by
  unfold roundWithAccuracy
  rw [shifted]
  dsimp only
  rw [shiftToTargetExponent_rounded all least]
  by_cases none : (carry em.roundedMantissa q).1 = 0
  · rw [dif_pos none, unpacked, dif_neg (by omega)]
  · rw [dif_neg none, unpacked_finite (Nat.pos_of_ne_zero none)]

theorem roundWithAccuracy_of_isDouble (double : IsDouble m e) (negative : Bool) :
    roundWithAccuracy .binary64 (sign negative) m e .exact = unpacked (.finite negative m e) := by
  have kept : carry m e = (m, e) := if_neg double.bounded.ne
  have shifted := shiftToTargetExponent_rounded double.bounded.le double.least
  rw [kept] at shifted
  rw [roundWithAccuracy_eq negative shifted double.bounded.le double.least]
  exact congrArg (fun p => unpacked (.finite negative p.1 p.2)) kept

/-- What is kept exactly up to a mantissa is rounded to the nearest double. -/
theorem roundWithAccuracy_isNearest (negative : Bool)
    (tracks : Tracks (.ofMantissaAndAccuracy m accuracy) w)
    (reach : e ≤ Format.binary64.targetExponent (totalExponent m e)) :
    IsNearest negative (w * 2 ^ e)
      ⟨Float.Model.pack (roundWithAccuracy .binary64 (sign negative) m e accuracy)⟩ := by
  have unit := isUnit_targetExponent tracks reach
  have shifted := shiftToTargetExponent_eq accuracy reach
  generalize Format.binary64.targetExponent (totalExponent m e) = q at *
  obtain ⟨n, rfl⟩ := Int.le.dest reach
  have amount : (e + n - e).toNat = n := by omega
  have units : w * 2 ^ e / 2 ^ (e + n) = w / 2 ^ n := by
    rw [zpow_add₀ two_ne_zero, zpow_natCast]
    field_simp
  rw [amount] at shifted
  have rounds := (tracks.shiftRight n).rounds
  rw [← units] at rounds
  rw [roundWithAccuracy_eq negative shifted (rounds_le unit rounds) unit.least]
  exact isNearest_pack unit rounds

end

section

variable {m n : ℕ} {e f : ℤ} (hm : 0 < m) (hn : 0 < n)
include hm hn

theorem mul_isNearest
    (reach : e + f ≤ Format.binary64.targetExponent (totalExponent (m * n) (e + f))) :
    IsNearest false (m * 2 ^ e * (n * 2 ^ f)) ⟨Float.Model.pack (UnpackedFloat.mul .binary64
      (.finite .positive m e hm) (.finite .positive n f hn))⟩ := by
  have value : (m : ℚ) * 2 ^ e * (n * 2 ^ f) = (m * n : ℕ) * 2 ^ (e + f) := by
    rw [zpow_add₀ two_ne_zero]
    push_cast
    ring
  rw [value]
  exact roundWithAccuracy_isNearest false (.ofMantissa (m * n)) reach

theorem divCore_reach :
    (divCore .binary64 m e n f).2.1 ≤ Format.binary64.targetExponent
      (totalExponent (divCore .binary64 m e n f).1 (divCore .binary64 m e n f).2.1) := by
  unfold divCore
  rw [targetExponent_eq, targetExponent_eq]
  simp only [totalExponent]
  generalize target : min (e - f) _ = t
  rcases le_or_gt t (-1074) with last | inner
  · exact last.trans (le_max_right ..)
  have shift : 53 + n.log2 ≤ m.log2 + (e - f - t).toNat := by omega
  have many : 2 ^ 52 ≤ m <<< (e - f - t).toNat / n := by
    rw [Nat.le_div_iff_mul_le hn, Nat.shiftLeft_eq]
    calc
      2 ^ 52 * n ≤ 2 ^ 52 * 2 ^ (n.log2 + 1) := by
        gcongr
        exact (Nat.lt_log2_self (n := n)).le
      _ = 2 ^ (53 + n.log2) := by ring
      _ ≤ 2 ^ (m.log2 + (e - f - t).toNat) := Nat.pow_le_pow_right two_pos shift
      _ = 2 ^ m.log2 * 2 ^ (e - f - t).toNat := Nat.pow_add ..
      _ ≤ m * 2 ^ (e - f - t).toNat := by
        gcongr
        exact Nat.log2_self_le hm.ne'
  have digits : 52 ≤ (m <<< (e - f - t).toNat / n).log2 := (Nat.le_log2 (by omega)).mpr many
  omega

theorem div_isNearest :
    IsNearest false (m * 2 ^ e / (n * 2 ^ f)) ⟨Float.Model.pack (UnpackedFloat.div .binary64
      (.finite .positive m e hm) (.finite .positive n f hn))⟩ := by
  have reach := divCore_reach (e := e) (f := f) hm hn
  have nearest := roundWithAccuracy_isNearest false
    (.ofFraction (m <<< (e - f - (divCore .binary64 m e n f).2.1).toNat) hn) reach
  have value : (m : ℚ) * 2 ^ e / (n * 2 ^ f) =
      (m <<< (e - f - (divCore .binary64 m e n f).2.1).toNat : ℕ) / n *
        2 ^ (divCore .binary64 m e n f).2.1 := by
    have below : (divCore .binary64 m e n f).2.1 ≤ e - f := min_le_left ..
    generalize (divCore .binary64 m e n f).2.1 = t at below ⊢
    obtain ⟨k, split⟩ := Int.le.dest below
    have amount : (e - f - t).toNat = k := by omega
    have exponent : e = t + k + f := by omega
    rw [amount, Nat.shiftLeft_eq, exponent, zpow_add₀ two_ne_zero, zpow_add₀ two_ne_zero,
      zpow_natCast]
    push_cast
    field_simp
  rw [value]
  exact nearest

end

end SvgPage.Double

import SvgPage.Number.Single
import SvgPage.Proofs.Number.Patterns

/-!
# Narrowing rounds and keeps the order

A double is rounded to a single. The whole number of last places that is nearest grows with the
value, and where the last place grows the numbers of places meet. So of two doubles the larger one
does not become the smaller single, and each becomes the single whose interval it is in.
-/

namespace SvgPage

namespace Ratio

/-- A whole number that is nearest to a number, and even if it is half way to the next. -/
def Rounds (w : ℚ) (k : ℕ) : Prop := |w - k| < 1 / 2 ∨ |w - k| = 1 / 2 ∧ k % 2 = 0

theorem rounds_natCast (k : ℕ) : Rounds k k := .inl (by norm_num)

namespace Rounds

variable {v w : ℚ} {j k : ℕ}

theorem close (h : Rounds w k) : |w - k| ≤ 1 / 2 := h.elim le_of_lt fun tie => tie.1.le

theorem mono (hv : Rounds v j) (hw : Rounds w k) (h : v ≤ w) : j ≤ k := by
  by_contra! after
  have apart : (k : ℚ) + 1 ≤ j := by exact_mod_cast after
  -- Both would be half way from one value, and the two neighbours of it even.
  rcases hv with near | ⟨far, even⟩
  · have := abs_lt.mp near
    have := abs_le.mp hw.close
    linarith
  · have := abs_le.mp far.le
    rcases hw with near' | ⟨far', even'⟩
    · have := abs_lt.mp near'
      linarith
    · have := abs_le.mp far'.le
      have meet : j = k + 1 := by exact_mod_cast (by linarith : (j : ℚ) = k + 1)
      omega

theorem le_of_le (h : Rounds w k) (above : j ≤ w) : j ≤ k := (rounds_natCast j).mono h above

theorem le_of_ge (h : Rounds w k) (below : w ≤ j) : k ≤ j := h.mono (rounds_natCast j) below

theorem nearest (h : Rounds w k) (j : ℕ) :
    |w - k| < |w - j| ∨ |w - k| = |w - j| ∧ (k = j ∨ k % 2 = 0) := by
  rcases eq_or_ne k j with rfl | different
  · exact .inr ⟨rfl, .inl rfl⟩
  have apart : (1 : ℚ) ≤ |(k : ℚ) - j| := by
    have : (1 : ℤ) ≤ |(k : ℤ) - j| := Int.one_le_abs (by omega)
    exact_mod_cast this
  have triangle : |(k : ℚ) - j| ≤ |w - k| + |w - j| := by
    rw [abs_sub_comm w k]
    exact abs_sub_le _ _ _
  rcases h with near | ⟨far, even⟩
  · exact .inl (by linarith)
  · rcases (by linarith : |w - k| ≤ |w - j|).lt_or_eq with nearer | tie
    · exact .inl nearer
    · exact .inr ⟨tie, .inr even⟩

end Rounds

section

variable (a : ℕ) {b : ℕ} (positive : 0 < b)
include positive

theorem cast_div_eq : (a : ℚ) / b = (a / b : ℕ) + (a % b : ℕ) / b := by
  have den : (b : ℚ) ≠ 0 := by exact_mod_cast positive.ne'
  rw [div_eq_iff den, add_mul, div_mul_cancel₀ _ den]
  exact_mod_cast (Nat.div_add_mod' a b).symm

theorem cast_mod_div_lt_one : ((a % b : ℕ) : ℚ) / b < 1 := by
  rw [div_lt_one (by exact_mod_cast positive)]
  exact_mod_cast Nat.mod_lt a positive

theorem half_cases : 2 * a < b ∧ (a : ℚ) / b < 1 / 2 ∨ 2 * a = b ∧ (a : ℚ) / b = 1 / 2 ∨
    b < 2 * a ∧ 1 / 2 < (a : ℚ) / b := by
  have den : (0 : ℚ) < b := by exact_mod_cast positive
  rw [div_lt_div_iff₀ den two_pos, div_eq_div_iff den.ne' two_ne_zero, div_lt_div_iff₀ two_pos den]
  norm_cast
  omega

end

variable {r u : Ratio} {k : ℕ}

theorem rounds_round (positive : 0 < r.den) : Rounds r.value r.round := by
  have least : 0 ≤ ((r.num % r.den : ℕ) : ℚ) / r.den := by positivity
  have small := cast_mod_div_lt_one r.num positive
  rw [value, cast_div_eq r.num positive]
  rcases half_cases (r.num % r.den) positive with ⟨below, part⟩ | ⟨tie, part⟩ | ⟨above, part⟩
  · left
    rw [round, if_pos below, add_sub_cancel_left, abs_of_nonneg least]
    exact part
  · right
    rw [round, if_neg tie.not_lt, if_neg tie.not_gt, part]
    split_ifs with even
    · exact ⟨by norm_num, even⟩
    · push_cast
      exact ⟨by norm_num, by omega⟩
  · left
    rw [round, if_neg above.not_gt, if_pos above, abs_lt]
    push_cast
    constructor <;> linarith

end Ratio

namespace Single

variable {n m : ℕ} {e f : ℤ}

theorem le_value (positive : 0 < n) (e : ℤ) : (2 : ℚ) ^ (n.log2 + e) ≤ n * 2 ^ e := by
  rw [zpow_add₀ two_ne_zero, zpow_natCast]
  gcongr
  exact_mod_cast Nat.log2_self_le positive.ne'

theorem value_lt (n : ℕ) (e : ℤ) : (n : ℚ) * 2 ^ e < 2 ^ (n.log2 + 1 + e) := by
  rw [zpow_add₀ two_ne_zero]
  gcongr
  exact_mod_cast Nat.lt_log2_self

theorem count_lt (n : ℕ) (e : ℤ) : (n : ℚ) * 2 ^ (e - quantum n e) < 2 ^ 24 := by
  have room : (n.log2 : ℤ) + 1 + (e - quantum n e) ≤ 24 := by
    unfold quantum
    omega
  calc
    (n : ℚ) * 2 ^ (e - quantum n e) < 2 ^ ((n.log2 : ℤ) + 1 + (e - quantum n e)) := value_lt n _
    _ ≤ 2 ^ (24 : ℤ) := zpow_le_zpow_right₀ one_le_two room
    _ = 2 ^ 24 := by norm_num

theorem le_count (positive : 0 < n) (inner : -149 < quantum n e) :
    (2 : ℚ) ^ 23 ≤ n * 2 ^ (e - quantum n e) := by
  have room : 23 = (n.log2 : ℤ) + (e - quantum n e) := by
    unfold quantum at *
    omega
  calc
    (2 : ℚ) ^ 23 = 2 ^ (23 : ℤ) := by norm_num
    _ = 2 ^ ((n.log2 : ℤ) + (e - quantum n e)) := by rw [← room]
    _ ≤ n * 2 ^ (e - quantum n e) := le_value positive _

theorem count_mul (n : ℕ) (e q : ℤ) : (n : ℚ) * 2 ^ (e - q) * 2 ^ q = n * 2 ^ e := by
  rw [mul_assoc, ← zpow_add₀ two_ne_zero, sub_add_cancel]

theorem quantum_mono (positive : 0 < n) (h : (n : ℚ) * 2 ^ e ≤ m * 2 ^ f) :
    quantum n e ≤ quantum m f := by
  have size := ((le_value positive e).trans h).trans_lt (value_lt m f)
  rw [zpow_lt_zpow_iff_right₀ one_lt_two] at size
  unfold quantum
  omega

/-- The number of last places in a value. -/
def places (n : ℕ) (e : ℤ) : ℕ := (Ratio.ofBinary n (e - quantum n e)).round

theorem magnitude_eq (positive : 0 < n) (e : ℤ) :
    magnitude n e = min ((quantum n e + 149).toNat * 2 ^ 23 + places n e) infinity :=
  if_neg positive.ne'

theorem rounds_places (n : ℕ) (e : ℤ) :
    Ratio.Rounds (n * 2 ^ (e - quantum n e)) (places n e) := by
  have rounds := Ratio.rounds_round (Ratio.den_ofBinary_pos n (e - quantum n e))
  rwa [Ratio.value_ofBinary] at rounds

theorem places_le (n : ℕ) (e : ℤ) : places n e ≤ 2 ^ 24 := by
  apply (rounds_places n e).le_of_ge
  exact_mod_cast (count_lt n e).le

theorem le_places (positive : 0 < n) (inner : -149 < quantum n e) : 2 ^ 23 ≤ places n e := by
  apply (rounds_places n e).le_of_le
  exact_mod_cast le_count positive inner

theorem magnitude_mono (h : (n : ℚ) * 2 ^ e ≤ m * 2 ^ f) : magnitude n e ≤ magnitude m f := by
  rcases Nat.eq_zero_or_pos n with rfl | positive
  · exact Nat.zero_le _
  have positive' : 0 < m := by
    by_contra! zero
    rw [Nat.le_zero.mp zero, Nat.cast_zero, zero_mul] at h
    exact absurd h (not_le.mpr (by positivity))
  have least : -149 ≤ quantum n e := le_max_right ..
  rw [magnitude_eq positive, magnitude_eq positive']
  apply min_le_min_right
  rcases (quantum_mono positive h).eq_or_lt with same | below
  · have order : places n e ≤ places m f := by
      apply (rounds_places n e).mono (rounds_places m f)
      rw [same, zpow_sub₀ two_ne_zero, zpow_sub₀ two_ne_zero, mul_div_assoc', mul_div_assoc']
      gcongr
    rw [same]
    exact Nat.add_le_add_left order _
  · have all := places_le n e
    have many := le_places positive' (least.trans_lt below)
    omega

open Binary

/-- The pattern of the single without its sign. -/
def extent : Binary → ℕ
  | .notANumber => 0
  | .infinite _ => infinity
  | .finite _ n e => magnitude n e

theorem extent_le_top (x : Binary) : extent x ≤ top 8 23 := by
  cases x with
  | notANumber => exact Nat.zero_le _
  | infinite negative => exact le_rfl
  | finite negative n e =>
    rw [extent, magnitude]
    split_ifs
    · exact Nat.zero_le _
    · exact min_le_right ..

theorem value_le_value_of_double (twice : n ≤ 2 * m) (below : e + 1 ≤ f) :
    (n : ℚ) * 2 ^ e ≤ m * 2 ^ f := by
  calc
    (n : ℚ) * 2 ^ e ≤ (2 * m : ℕ) * 2 ^ e := by gcongr
    _ = m * 2 ^ (e + 1) := by
      rw [zpow_add_one₀ two_ne_zero]
      push_cast
      ring
    _ ≤ m * 2 ^ f := by
      gcongr
      exact one_le_two

theorem extent_mono {p q : ℕ} (h : p ≤ q) (hq : q ≤ top 11 52) :
    extent (ofPattern 11 52 p) ≤ extent (ofPattern 11 52 q) := by
  have order := (le_iff_fields (Nat.two_pow_pos 52) p q).mp h
  have below := Nat.mod_lt p (Nat.two_pow_pos 52)
  have bounded := le_top_iff.mp hq
  rw [ofPattern_of_le_top hq]
  by_cases infinite : q / 2 ^ 52 = 2 ^ 11 - 1
  · rw [if_pos infinite]
    exact extent_le_top _
  rw [if_neg infinite, ofPattern_of_le_top (h.trans hq), if_neg (by omega)]
  by_cases first : p / 2 ^ 52 = 0
  · rw [if_pos first]
    by_cases first' : q / 2 ^ 52 = 0
    · rw [if_pos first']
      apply magnitude_mono
      gcongr
      omega
    · rw [if_neg first']
      apply magnitude_mono
      gcongr ?_ * _ ^ ?_
      · exact_mod_cast below.le.trans (Nat.le_add_right ..)
      · exact one_le_two
      · omega
  · rw [if_neg first, if_neg (by omega)]
    apply magnitude_mono
    rcases order with before | ⟨same, fraction⟩
    · exact value_le_value_of_double (by omega) (by omega)
    · rw [same]
      gcongr

theorem ofDouble_eq {a : Float} {negative : Bool} {p : ℕ} (h : p ≤ top 11 52)
    (ha : a.toBits.toNat = signed 63 negative p) :
    Single.ofDouble a = ofMagnitude negative (extent (ofPattern 11 52 p)) := by
  rw [Single.ofDouble, Binary.ofDouble, ha, ofPattern_signed negative h, ofPattern_of_le_top h]
  split_ifs <;> rfl

theorem ofMagnitude_le_iff {negative negative' : Bool} {p q : ℕ} (hp : p ≤ top 8 23)
    (hq : q ≤ top 8 23) : ofMagnitude negative p ≤ ofMagnitude negative' q ↔
      rank negative p ≤ rank negative' q :=
  le_iff_rank hp hq (toNat_toBits_ofBits hp) (toNat_toBits_ofBits hq)

theorem ofSingle_ofMagnitude (negative : Bool) {p : ℕ} (h : p ≤ top 8 23) :
    Binary.ofSingle (ofMagnitude negative p) = ofPattern 8 23 (signed 31 negative p) :=
  congrArg (ofPattern 8 23) (toNat_toBits_ofBits h)

theorem isNaN_ofDouble (a : Float) : (Single.ofDouble a).isNaN = a.isNaN := by
  cases number : a.isNaN with
  | true =>
    rw [Single.ofDouble, Double.isNaN_iff.mp number]
    rfl
  | false =>
    obtain ⟨negative, p, hp, ha⟩ := Double.exists_signed number
    apply Bool.eq_false_of_not_eq_true
    rw [Single.isNaN_iff, ofDouble_eq hp ha, ofSingle_ofMagnitude negative (extent_le_top _)]
    exact ofPattern_signed_ne_notANumber negative (extent_le_top _)

/-- Of two doubles the larger one does not become the smaller single. -/
theorem ofDouble_le_ofDouble {a b : Float} (h : a ≤ b) :
    Single.ofDouble a ≤ Single.ofDouble b := by
  obtain ⟨number, number'⟩ := Double.isNaN_eq_false_of_le h
  obtain ⟨negative, p, hp, ha⟩ := Double.exists_signed number
  obtain ⟨negative', q, hq, hb⟩ := Double.exists_signed number'
  rw [Double.le_iff_rank hp hq ha hb] at h
  rw [ofDouble_eq hp ha, ofDouble_eq hq hb, ofMagnitude_le_iff (extent_le_top _) (extent_le_top _)]
  cases negative with
  | false =>
    cases negative' with
    | false =>
      have := extent_mono (Int.ofNat_le.mp h) hq
      exact Int.ofNat_le.mpr this
    | true =>
      obtain ⟨rfl, rfl⟩ : p = 0 ∧ q = 0 := by
        rw [rank_false, rank_true] at h
        omega
      exact le_rfl
  | true =>
    cases negative' with
    | false =>
      rw [rank_true, rank_false]
      omega
    | true =>
      have := extent_mono (Int.ofNat_le.mp (neg_le_neg_iff.mp h)) hp
      exact neg_le_neg (Int.ofNat_le.mpr this)

open Digits.Interval (rounding)

/-- The values near a number of last places are those that round to it, from below a power of two
only as far as the finer grid there. -/
theorem holds_rounding {k : ℕ} {q : ℤ} {w : ℚ} (nonneg : 0 ≤ w) (rounds : Ratio.Rounds w k)
    (fine : k = 2 ^ 23 → -149 < q → (k : ℚ) ≤ w + 1 / 4) : (rounding k q).Holds (w * 2 ^ q) := by
  have quarters : w * (2 : ℚ) ^ q = 4 * w * 2 ^ (q - 2) := by
    rw [zpow_sub₀ two_ne_zero]
    ring
  have unit : (0 : ℚ) < 2 ^ (q - 2) := by positivity
  obtain ⟨below, above⟩ := abs_le.mp rounds.close
  have low : ((rounding k q).low : ℚ) ≤ 4 * w := by
    simp only [rounding, Digits.Interval.of, Bool.and_eq_true, beq_iff_eq, decide_eq_true_eq]
    split_ifs with power
    · have := fine power.1 power.2
      rw [Nat.cast_sub (by omega)]
      push_cast
      linarith
    · rcases Nat.eq_zero_or_pos k with rfl | positive
      · simpa using nonneg
      · rw [Nat.cast_sub (by omega)]
        push_cast
        linarith
  refine ⟨?_, ?_, fun opened => ?_⟩
  · rw [quarters]
    exact mul_le_mul_of_nonneg_right low unit.le
  · rw [quarters]
    refine mul_le_mul_of_nonneg_right ?_ unit.le
    simp only [rounding, Digits.Interval.of]
    push_cast
    linarith
  · have odd : k % 2 = 1 := by simpa [rounding, Digits.Interval.of] using opened
    obtain ⟨below, above⟩ := abs_lt.mp (rounds.resolve_right fun tie => by omega)
    have ordinary : ¬k = 8388608 := by omega
    have lowest : (rounding k q).low = 4 * k - 2 := by
      simp [rounding, Digits.Interval.of, ordinary]
    rw [quarters]
    constructor
    · refine mul_lt_mul_of_pos_right ?_ unit
      rw [lowest, Nat.cast_sub (by omega)]
      push_cast
      linarith
    · refine mul_lt_mul_of_pos_right ?_ unit
      simp only [rounding, Digits.Interval.of]
      push_cast
      linarith

theorem holds_places (positive : 0 < n) (e : ℤ) :
    (rounding (places n e) (quantum n e)).Holds (n * 2 ^ e) := by
  rw [← count_mul n e (quantum n e)]
  refine holds_rounding (by positivity) (rounds_places n e) fun power inner => ?_
  have := le_count positive inner
  rw [power]
  push_cast
  linarith

theorem le_count_of_full (full : places n e = 2 ^ 24) :
    (2 : ℚ) ^ 24 - 1 / 2 ≤ n * 2 ^ (e - quantum n e) := by
  have close := (rounds_places n e).close
  rw [full] at close
  have := abs_le.mp close
  push_cast at this
  linarith

/-- With all places taken the value is rounded to the power of two after them. -/
theorem holds_carry (full : places n e = 2 ^ 24) :
    (rounding (2 ^ 23) (quantum n e + 1)).Holds (n * 2 ^ e) := by
  have below := count_lt n e
  have above := le_count_of_full full
  have halved : (n : ℚ) * 2 ^ e = n * 2 ^ (e - quantum n e) / 2 * 2 ^ (quantum n e + 1) := by
    rw [← count_mul n e (quantum n e), zpow_add_one₀ two_ne_zero]
    ring
  rw [halved]
  refine holds_rounding (by positivity) (.inl (abs_lt.mpr ⟨?_, ?_⟩)) fun _ _ => ?_
  all_goals push_cast; linarith

theorem ofPattern_of_isSingle {k : ℕ} {q : ℤ} (single : IsSingle k q) (negative : Bool)
    (h : (q + 149).toNat * 2 ^ 23 + k < infinity) :
    ofPattern 8 23 (signed 31 negative ((q + 149).toNat * 2 ^ 23 + k)) = .finite negative k q := by
  have least := single.least
  have few := single.bounded
  have bounded : (q + 149).toNat * 2 ^ 23 + k ≤ top 8 23 := h.le
  rw [ofPattern_signed negative bounded]
  rw [infinity, Nat.pow_eq] at h
  rcases Nat.lt_or_ge k (2 ^ 23) with small | large
  · obtain rfl := single.normal.resolve_left small.not_ge
    rw [if_neg (by omega), if_pos (by omega)]
    congr 1
    omega
  · rw [if_neg (by omega), if_neg (by omega)]
    congr 1 <;> omega

theorem isSingle_places (positive : 0 < n) (few : places n e < 2 ^ 24) :
    IsSingle (places n e) (quantum n e) where
  bounded := few
  least := le_max_right ..
  normal := by
    rcases (le_max_right _ _ : -149 ≤ quantum n e).eq_or_lt with least | inner
    · exact .inr least.symm
    · exact .inl (le_places positive inner)

theorem le_of_infinite (positive : 0 < n)
    (beyond : infinity ≤ (quantum n e + 149).toNat * 2 ^ 23 + places n e) :
    ((2 : ℚ) ^ 24 - 1 / 2) * 2 ^ 104 ≤ n * 2 ^ e := by
  have all := places_le n e
  rw [infinity, Nat.pow_eq] at beyond
  rw [← count_mul n e (quantum n e)]
  have large : 104 ≤ quantum n e := by omega
  rcases large.eq_or_lt with last | larger
  · have full : places n e = 2 ^ 24 := by omega
    have := le_count_of_full full
    rw [← last] at this ⊢
    exact mul_le_mul_of_nonneg_right this (by positivity)
  · have many : (2 : ℚ) ^ 23 ≤ n * 2 ^ (e - quantum n e) := le_count positive (by omega)
    calc
      ((2 : ℚ) ^ 24 - 1 / 2) * 2 ^ 104 ≤ 2 ^ 23 * (2 : ℚ) ^ (105 : ℤ) := by norm_num
      _ ≤ (n : ℚ) * 2 ^ (e - quantum n e) * 2 ^ quantum n e := by
        gcongr
        · exact one_le_two
        · omega

/-- A finite number becomes the single that it rounds to, or infinity from half a place after the
largest single on. -/
theorem ofSingle_ofDouble {a : Float} {negative : Bool}
    (finite : Binary.ofDouble a = .finite negative n e) :
    (∃ k q, Binary.ofSingle (Single.ofDouble a) = .finite negative k q ∧
      (rounding k q).Holds (n * 2 ^ e)) ∨
    Binary.ofSingle (Single.ofDouble a) = .infinite negative ∧
      ((2 : ℚ) ^ 24 - 1 / 2) * 2 ^ 104 ≤ n * 2 ^ e := by
  have bounded : magnitude n e ≤ top 8 23 := extent_le_top (.finite negative n e)
  have decoded : Binary.ofSingle (Single.ofDouble a) =
      ofPattern 8 23 (signed 31 negative (magnitude n e)) := by
    rw [Single.ofDouble, finite]
    exact ofSingle_ofMagnitude negative bounded
  rcases Nat.eq_zero_or_pos n with rfl | positive
  · refine .inl ⟨0, -149, ?_, ?_⟩
    · have zero : IsSingle 0 (-149) := ⟨by decide, le_rfl, .inr rfl⟩
      exact decoded.trans (ofPattern_of_isSingle zero negative (by decide))
    · have none : (rounding 0 (-149)).Holds (0 * 2 ^ (-149 : ℤ)) :=
        holds_rounding le_rfl (.inl (by norm_num)) nofun
      rwa [zero_mul, ← zero_mul ((2 : ℚ) ^ e), ← Nat.cast_zero] at none
  rcases Nat.lt_or_ge ((quantum n e + 149).toNat * 2 ^ 23 + places n e) infinity
    with inside | beyond
  · left
    rw [magnitude_eq positive, min_eq_left inside.le] at decoded
    rcases (places_le n e).eq_or_lt with full | few
    · refine ⟨_, _, ?_, holds_carry full⟩
      have least : -149 ≤ quantum n e := le_max_right ..
      have carried : (quantum n e + 149).toNat * 2 ^ 23 + places n e =
          (quantum n e + 1 + 149).toNat * 2 ^ 23 + 2 ^ 23 := by
        omega
      rw [carried] at decoded inside
      have single : IsSingle (2 ^ 23) (quantum n e + 1) := ⟨by decide, by omega, .inl le_rfl⟩
      exact decoded.trans (ofPattern_of_isSingle single negative inside)
    · exact ⟨_, _, decoded.trans (ofPattern_of_isSingle (isSingle_places positive few) negative
        inside), holds_places positive e⟩
  · refine .inr ⟨?_, le_of_infinite positive beyond⟩
    rw [decoded, magnitude_eq positive, min_eq_right beyond]
    exact ofPattern_signed negative le_rfl

end Single

end SvgPage

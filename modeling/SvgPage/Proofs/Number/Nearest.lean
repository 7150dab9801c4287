import SvgPage.Proofs.Number.Narrowing

/-!
# The nearest double

A number is measured in units of the last place of the doubles around it. Rounded to whole units it
is the nearest double, and of two that are as near the one with the even significand. From half a
unit past the largest double on, it is infinite.
-/

namespace SvgPage

namespace Binary

/-- The significand and the exponent of a finite double, if exponents went on without an end. -/
structure IsDouble (significand : ℕ) (exponent : ℤ) : Prop where
  bounded : significand < 2 ^ 53
  least : -1074 ≤ exponent
  normal : 2 ^ 52 ≤ significand ∨ exponent = -1074

theorem ofPattern_double (n : ℕ) : ofPattern 11 52 n =
    if n / 4503599627370496 % 2048 = 2047 then
      if n % 4503599627370496 = 0 then .infinite (n / 9223372036854775808 % 2 == 1)
      else .notANumber
    else if n / 4503599627370496 % 2048 = 0 then
      .finite (n / 9223372036854775808 % 2 == 1) (n % 4503599627370496) (-1074)
    else .finite (n / 9223372036854775808 % 2 == 1)
      (4503599627370496 + n % 4503599627370496) ((n / 4503599627370496 % 2048 : ℕ) - 1075) := by
  simp [ofPattern]

theorem isDouble_of_ofDouble {x : Float} {negative : Bool} {s : ℕ} {e : ℤ}
    (h : ofDouble x = .finite negative s e) : IsDouble s e ∧ e ≤ 971 := by
  rw [ofDouble, ofPattern_double] at h
  split_ifs at h
  · cases h
    exact ⟨⟨by omega, by omega, .inr rfl⟩, by omega⟩
  · cases h
    exact ⟨⟨by omega, by omega, .inl (by omega)⟩, by omega⟩

theorem ofPattern_of_isDouble {s : ℕ} {e : ℤ} (double : IsDouble s e) (inside : e ≤ 971)
    (negative : Bool) :
    (e + 1074).toNat * 2 ^ 52 + s ≤ top 11 52 ∧
      ofPattern 11 52 (signed 63 negative ((e + 1074).toNat * 2 ^ 52 + s)) =
        .finite negative s e := by
  have least := double.least
  have few := double.bounded
  have bounded : (e + 1074).toNat * 2 ^ 52 + s ≤ top 11 52 := by
    rw [top]
    omega
  refine ⟨bounded, ?_⟩
  rw [ofPattern_signed negative bounded]
  rcases Nat.lt_or_ge s (2 ^ 52) with small | large
  · obtain rfl := double.normal.resolve_left small.not_ge
    rw [if_neg (by omega), if_pos (by omega)]
    congr 1
    omega
  · rw [if_neg (by omega), if_neg (by omega)]
    congr 1 <;> omega

end Binary

namespace Double

open Float.Model Binary
open Ratio (Rounds)

/-- The exponent of the last place of the doubles around a number. -/
structure IsUnit (v : ℚ) (q : ℤ) : Prop where
  least : -1074 ≤ q
  few : v < 2 ^ 53 * 2 ^ q
  many : 2 ^ 52 * (2 : ℚ) ^ q ≤ v ∨ q = -1074

/-- Where numbers become infinite: half a unit past the largest double. -/
def limit : ℚ := (2 ^ 54 - 1) * 2 ^ (970 : ℤ)

/-- The double of a sign that is nearest to a number above zero. -/
inductive IsNearest (negative : Bool) (v : ℚ) (x : Float) : Prop
  | finite {s e} : ofDouble x = .finite negative s e → v < limit →
      (∀ y negative' t f, ofDouble y = .finite negative' t f →
        |v - s * 2 ^ e| < |v - t * 2 ^ f| ∨
          |v - s * 2 ^ e| = |v - t * 2 ^ f| ∧ (s * (2 : ℚ) ^ e = t * 2 ^ f ∨ s % 2 = 0)) →
      IsNearest negative v x
  | infinite : ofDouble x = .infinite negative → limit ≤ v → IsNearest negative v x

section

variable {v : ℚ} {q : ℤ} {k : ℕ}

theorem IsUnit.lt_pow (unit : IsUnit v q) : v / 2 ^ q < 2 ^ 53 := by
  rw [div_lt_iff₀ (by positivity)]
  exact unit.few

theorem rounds_le (unit : IsUnit v q) (rounds : Rounds (v / 2 ^ q) k) : k ≤ 2 ^ 53 :=
  rounds.le_of_ge (by exact_mod_cast unit.lt_pow.le)

theorem le_rounds (unit : IsUnit v q) (rounds : Rounds (v / 2 ^ q) k) (inner : q ≠ -1074) :
    2 ^ 52 ≤ k := by
  apply rounds.le_of_le
  rw [le_div_iff₀ (by positivity)]
  exact_mod_cast unit.many.resolve_right inner

theorem distance (v : ℚ) (q : ℤ) (k : ℚ) : |v - k * 2 ^ q| = |v / 2 ^ q - k| * 2 ^ q := by
  have positive : (0 : ℚ) < 2 ^ q := by positivity
  rw [← abs_of_pos positive, ← abs_mul, abs_of_pos positive, sub_mul,
    div_mul_cancel₀ _ positive.ne']

/-- Rounded to whole units a number is nearest to itself among all that have a significand. What is
on a finer grid is below the first double of this one. -/
theorem nearest_double (rounds : Rounds (v / 2 ^ q) k) (unit : IsUnit v q) {t : ℕ} {f : ℤ}
    (bounded : t < 2 ^ 53) (least : -1074 ≤ f) :
    |v - k * 2 ^ q| < |v - t * 2 ^ f| ∨
      |v - k * 2 ^ q| = |v - t * 2 ^ f| ∧ (k * (2 : ℚ) ^ q = t * 2 ^ f ∨ k % 2 = 0) := by
  have positive : (0 : ℚ) < 2 ^ q := by positivity
  rcases le_or_gt q f with coarse | fine
  · obtain ⟨n, rfl⟩ := Int.le.dest coarse
    have whole : (t : ℚ) * 2 ^ (q + n) = (t * 2 ^ n : ℕ) * 2 ^ q := by
      rw [zpow_add₀ two_ne_zero, zpow_natCast]
      push_cast
      ring
    rw [whole, distance, distance]
    rcases rounds.nearest (t * 2 ^ n) with nearer | ⟨tie, rfl | even⟩
    · exact .inl (mul_lt_mul_of_pos_right nearer positive)
    · exact .inr ⟨rfl, .inl rfl⟩
    · exact .inr ⟨by rw [tie], .inr even⟩
  · have first : 2 ^ 52 * (2 : ℚ) ^ q ≤ v := unit.many.resolve_right (by omega)
    have below : (t : ℚ) * 2 ^ f < 2 ^ 52 * 2 ^ q := by
      calc
        (t : ℚ) * 2 ^ f < 2 ^ 53 * 2 ^ f := by
          gcongr
          exact_mod_cast bounded
        _ = 2 ^ 52 * 2 ^ (f + 1) := by
          rw [zpow_add_one₀ two_ne_zero]
          ring
        _ ≤ 2 ^ 52 * 2 ^ q := by
          gcongr ?_ * ?_
          exact zpow_le_zpow_right₀ one_le_two (by omega)
    left
    have toFirst : |v - k * 2 ^ q| ≤ v - 2 ^ 52 * 2 ^ q := by
      have near := (rounds.nearest (2 ^ 52)).elim le_of_lt fun tie => tie.1.le
      have := mul_le_mul_of_nonneg_right near positive.le
      have power : ((2 ^ 52 : ℕ) : ℚ) = 2 ^ 52 := Nat.cast_pow 2 52
      rwa [← distance, ← distance, power, abs_of_nonneg (sub_nonneg.mpr first)] at this
    rw [abs_of_nonneg (by linarith : 0 ≤ v - t * 2 ^ f)]
    linarith

/-- Units as the significand and the exponent of a double: a full one is the first of the next
exponent. -/
def carry (k : ℕ) (q : ℤ) : ℕ × ℤ := if k = 2 ^ 53 then (2 ^ 52, q + 1) else (k, q)

theorem carry_value (k : ℕ) (q : ℤ) : ((carry k q).1 : ℚ) * 2 ^ (carry k q).2 = k * 2 ^ q := by
  unfold carry
  split_ifs with full
  · rw [full, zpow_add_one₀ two_ne_zero]
    push_cast
    ring
  · rfl

theorem carry_even (even : k % 2 = 0) : (carry k q).1 % 2 = 0 := by
  unfold carry
  split_ifs
  · norm_num
  · exact even

theorem isDouble_carry (unit : IsUnit v q) (rounds : Rounds (v / 2 ^ q) k) :
    IsDouble (carry k q).1 (carry k q).2 := by
  have least := unit.least
  have all := rounds_le unit rounds
  unfold carry
  split_ifs with full
  · exact ⟨by norm_num, by omega, .inl le_rfl⟩
  · refine ⟨by omega, least, ?_⟩
    by_cases last : q = -1074
    · exact .inr last
    · exact .inl (le_rounds unit rounds last)

theorem two_zpow_le {a b : ℤ} (h : a ≤ b) : (2 : ℚ) ^ a ≤ 2 ^ b := zpow_le_zpow_right₀ one_le_two h

theorem limit_eq : limit = ((2 : ℚ) ^ 53 - 1 / 2) * 2 ^ (971 : ℤ) := by
  rw [limit, (by norm_num : (971 : ℤ) = 970 + 1), zpow_add_one₀ two_ne_zero]
  ring

/-- In the units of the largest double a number reaches the limit just if it fills them up. -/
theorem rounds_full_iff (unit : IsUnit v 971) (rounds : Rounds (v / 2 ^ (971 : ℤ)) k) :
    k = 2 ^ 53 ↔ limit ≤ v := by
  have all := rounds_le unit rounds
  rw [limit_eq, ← le_div_iff₀ (by positivity)]
  generalize v / 2 ^ (971 : ℤ) = w at rounds ⊢
  constructor
  · rintro rfl
    have := (abs_le.mp rounds.close).1
    push_cast at this
    linarith
  · intro above
    by_contra fewer
    have step : (k : ℚ) + 1 ≤ 2 ^ 53 := by exact_mod_cast (by omega : k + 1 ≤ 2 ^ 53)
    -- Half a unit below the next exponent is as near to it, and the unit before is odd.
    rcases rounds with near | ⟨far, even⟩
    · have := (abs_lt.mp near).2
      linarith
    · have := (abs_le.mp far.le).2
      have last : k + 1 = 2 ^ 53 := by exact_mod_cast (by linarith : (k : ℚ) + 1 = 2 ^ 53)
      omega

/-- The units go past the largest double just if the number reaches the limit. -/
theorem le_carry_iff (unit : IsUnit v q) (rounds : Rounds (v / 2 ^ q) k) :
    972 ≤ (carry k q).2 ↔ limit ≤ v := by
  rcases lt_trichotomy q 971 with lower | rfl | higher
  · refine iff_of_false ?_ (not_le.mpr ?_)
    · unfold carry
      split_ifs <;> omega
    · calc
        v < 2 ^ 53 * 2 ^ q := unit.few
        _ ≤ 2 ^ 53 * 2 ^ (970 : ℤ) := by
          gcongr ?_ * ?_
          exact two_zpow_le (by omega)
        _ ≤ limit := by
          rw [limit]
          gcongr
          norm_num
  · rw [← rounds_full_iff unit rounds]
    unfold carry
    split_ifs with full
    · exact iff_of_true le_rfl full
    · exact iff_of_false (by norm_num) full
  · refine iff_of_true ?_ ?_
    · unfold carry
      split_ifs
      · change 972 ≤ q + 1
        omega
      · exact higher
    · calc
        limit ≤ 2 ^ 53 * 2 ^ (971 : ℤ) := by
          rw [limit_eq]
          gcongr
          norm_num
        _ = 2 ^ 52 * 2 ^ (971 + 1 : ℤ) := by
          rw [zpow_add_one₀ two_ne_zero]
          ring
        _ ≤ 2 ^ 52 * 2 ^ q := by
          gcongr ?_ * ?_
          exact two_zpow_le (by omega)
        _ ≤ v := unit.many.resolve_right (by omega)

end

/-- What is packed is read back; an exponent past the last one is infinity. -/
theorem ofDouble_pack {s : ℕ} {e : ℤ} (double : IsDouble s e) (negative : Bool) :
    ofDouble ⟨Float.Model.pack (unpacked (.finite negative s e))⟩ =
      if e ≤ 971 then .finite negative s e else .infinite negative := by
  have bits (u : UnpackedFloat) : ofDouble ⟨Float.Model.pack u⟩ =
      ofPattern 11 52 (UnpackedFloat.pack .binary64 u).toNat := rfl
  rw [bits]
  split_ifs with inside
  · obtain ⟨bounded, pattern⟩ := ofPattern_of_isDouble double inside negative
    rw [← pattern]
    exact congrArg _ (toNat_pack_signed (by decide) negative bounded)
  · have positive : 0 < s := by
      have := double.normal.resolve_right (by omega)
      omega
    have beyond : 2 ^ Format.binary64.exponentBits ≤
        (e + Format.binary64.exponentBias + Format.binary64.mantissaBitsWithoutImplicit).toNat +
          1 := by
      change 2 ^ 11 ≤ (e + (1023 : ℕ) + (52 : ℕ)).toNat + 1
      omega
    rw [unpacked_finite positive, UnpackedFloat.pack, if_pos beyond]
    cases negative <;> decide

section

variable {v : ℚ} {q : ℤ} {k : ℕ} {negative : Bool}

/-- A number rounded to whole units is packed as the double that is nearest to it. -/
theorem isNearest_pack (unit : IsUnit v q) (rounds : Rounds (v / 2 ^ q) k) :
    IsNearest negative v
      ⟨Float.Model.pack (unpacked (.finite negative (carry k q).1 (carry k q).2))⟩ := by
  have double := isDouble_carry unit rounds
  have packed := ofDouble_pack double negative
  have inside := le_carry_iff unit rounds
  split_ifs at packed with reach
  · have below : v < limit := not_le.mp fun above => by
      have := inside.mpr above
      omega
    refine .finite packed below fun y negative' t f competitor => ?_
    obtain ⟨⟨bounded, least, -⟩, -⟩ := isDouble_of_ofDouble competitor
    rw [carry_value]
    exact (nearest_double rounds unit bounded least).imp_right
      (And.imp_right (Or.imp_right carry_even))
  · exact .infinite packed (inside.mp (by omega))

theorem IsNearest.neg {x : Float} (h : IsNearest false v x) : IsNearest true v (-x) := by
  have negated : ofDouble (-x) = ofDouble ⟨Float.Model.pack (ofDouble x).unpacked.neg⟩ := by
    rw [← unpack_eq]
    rfl
  cases h with
  | @finite s e decoded below nearest =>
    obtain ⟨double, inside⟩ := isDouble_of_ofDouble decoded
    have flipped : (unpacked (.finite false s e)).neg = unpacked (.finite true s e) := by
      by_cases positive : 0 < s
      · rw [unpacked_finite positive, unpacked_finite positive]
        rfl
      · rw [unpacked, unpacked, dif_neg positive, dif_neg positive]
        rfl
    rw [decoded, flipped, ofDouble_pack double, if_pos inside] at negated
    exact .finite negated below nearest
  | infinite decoded above =>
    rw [decoded] at negated
    exact .infinite (negated.trans (by decide)) above

end

end Double

end SvgPage

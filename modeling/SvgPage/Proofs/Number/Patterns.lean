import SvgPage.Proofs.Number.Order
import SvgPage.Proofs.Number.Rounding

/-!
# The order of patterns

The pattern of a number is its sign, its exponent and its fraction side by side. Without the sign it
is a whole number that grows with the number, so numbers are in the order of their signed patterns.
-/

namespace SvgPage.Binary

open Float.Model Float.Model.UnpackedFloat

def sign (negative : Bool) : Sign := if negative then .negative else .positive

/-- A value as the arithmetic of numbers takes it, which has a sort of its own for zero. -/
def unpacked : Binary → UnpackedFloat
  | .notANumber => .notANumber
  | .infinite negative => .infinity (sign negative)
  | .finite negative n e =>
    if h : 0 < n then .finite (sign negative) n e h else .zero (sign negative)

theorem unpacked_finite {n : ℕ} (positive : 0 < n) (negative : Bool) (e : ℤ) :
    unpacked (finite negative n e) = .finite (sign negative) n e positive :=
  dif_pos positive

section Fields

variable {format : Format} (b : BitVec format.numBits)

theorem toNat_unpackMantissa :
    (unpackMantissa b).toNat = b.toNat % 2 ^ format.mantissaBitsWithoutImplicit := by
  have width : format.mantissaBitsWithoutImplicit - 1 - 0 + 1 =
      format.mantissaBitsWithoutImplicit := by
    have := format.hm
    omega
  rw [unpackMantissa, BitVec.toNat_cast, BitVec.extractLsb_toNat, width, Nat.shiftRight_zero]

theorem toNat_unpackExponent : (unpackExponent b).toNat =
    b.toNat / 2 ^ format.mantissaBitsWithoutImplicit % 2 ^ format.exponentBits := by
  have width : format.mantissaBitsWithoutImplicit + format.exponentBits - 1 -
      format.mantissaBitsWithoutImplicit + 1 = format.exponentBits := by
    have := format.he
    omega
  rw [unpackExponent, BitVec.toNat_cast, BitVec.extractLsb_toNat, width,
    Nat.shiftRight_eq_div_pow]

theorem toNat_unpackSign : (unpackSign b).toNat =
    b.toNat / 2 ^ (format.mantissaBitsWithoutImplicit + format.exponentBits) % 2 := by
  rw [unpackSign, BitVec.toNat_cast, BitVec.extractLsb_toNat, Nat.shiftRight_eq_div_pow]
  simp

theorem ofBitVec_unpackSign : Sign.ofBitVec (unpackSign b) =
    sign (b.toNat / 2 ^ (format.mantissaBitsWithoutImplicit + format.exponentBits) % 2 == 1) := by
  rw [← toNat_unpackSign]
  obtain none | set : unpackSign b = 0#1 ∨ unpackSign b = 1#1 := BitVec.eq_zero_or_eq_one _
  · rw [none]; rfl
  · rw [set]; rfl

theorem toNat_append_implicit {k : ℕ} (m : BitVec k) : (1#1 ++ m).toNat = 2 ^ k + m.toNat := by
  rw [BitVec.toNat_append, ← Nat.shiftLeft_add_eq_or_of_lt m.isLt]
  simp [Nat.shiftLeft_eq]

theorem cast_exponentBias (format : Format) :
    (format.exponentBias : ℤ) = 2 ^ (format.exponentBits - 1) - 1 := by
  rw [Format.exponentBias, Nat.cast_sub Nat.one_le_two_pow]
  simp

theorem unpack_eq : unpack format b =
    unpacked (ofPattern format.exponentBits format.mantissaBitsWithoutImplicit b.toNat) := by
  have full : unpackExponent b = -1#_ ↔ b.toNat / 2 ^ format.mantissaBitsWithoutImplicit %
      2 ^ format.exponentBits = 2 ^ format.exponentBits - 1 := by
    rw [← BitVec.toNat_inj, toNat_unpackExponent]
    simp [BitVec.neg_one_eq_allOnes]
  have none : unpackExponent b = 0#_ ↔ b.toNat / 2 ^ format.mantissaBitsWithoutImplicit %
      2 ^ format.exponentBits = 0 := by
    rw [← BitVec.toNat_inj, toNat_unpackExponent, BitVec.toNat_zero]
  have whole : unpackMantissa b = 0#_ ↔
      b.toNat % 2 ^ format.mantissaBitsWithoutImplicit = 0 := by
    rw [← BitVec.toNat_inj, toNat_unpackMantissa, BitVec.toNat_zero]
  simp only [UnpackedFloat.unpack, ofPattern, full, none, whole, ofBitVec_unpackSign,
    toNat_append_implicit, toNat_unpackMantissa, toNat_unpackExponent, cast_exponentBias,
    Nat.pow_eq]
  split_ifs with last infinite first zero
  · rfl
  · rfl
  · rw [unpacked, dif_neg (by omega)]
  · rw [unpacked_finite (Nat.pos_of_ne_zero zero), first]
    congr 1
    push_cast
    ring
  · rw [unpacked_finite (by positivity)]
    simp

end Fields

section Signed

open Double (place)

variable (exponentBits fractionBits : ℕ)

/-- The pattern of infinity; none of a number is above it. -/
def top : ℕ := (2 ^ exponentBits - 1) * 2 ^ fractionBits

/-- A pattern with a sign in front. -/
def signed (width : ℕ) (negative : Bool) (p : ℕ) : ℕ := if negative then 2 ^ width + p else p

/-- The pattern as a whole number on either side of zero. -/
def rank (negative : Bool) (p : ℕ) : ℤ := if negative then -p else p

variable {exponentBits fractionBits} {p q : ℕ}

@[simp]
theorem rank_false (p : ℕ) : rank false p = p := rfl

@[simp]
theorem rank_true (p : ℕ) : rank true p = -p := rfl

theorem place_finite (n : ℕ) (e : ℤ) : place (unpacked (.finite false n e)) =
    if 0 < n then toLex (1, toLex (e, (n : ℤ))) else 0 := by
  by_cases positive : 0 < n
  · rw [unpacked_finite positive, if_pos positive]; rfl
  · rw [unpacked, dif_neg positive, if_neg positive]; rfl

theorem place_negative (n : ℕ) (e : ℤ) :
    place (unpacked (.finite true n e)) = -place (unpacked (.finite false n e)) := by
  by_cases positive : 0 < n
  · rw [unpacked_finite positive, unpacked_finite positive]; rfl
  · rw [unpacked, unpacked, dif_neg positive, dif_neg positive]; rfl

theorem lt_of_le_top (h : p ≤ top exponentBits fractionBits) :
    p < 2 ^ (fractionBits + exponentBits) := by
  have filled : 0 < 2 ^ exponentBits * 2 ^ fractionBits := by positivity
  have := Nat.two_pow_pos fractionBits
  rw [top, Nat.sub_mul] at h
  rw [Nat.add_comm, Nat.pow_add]
  omega

theorem fields_signed (negative : Bool) (h : p < 2 ^ (fractionBits + exponentBits)) :
    signed (fractionBits + exponentBits) negative p % 2 ^ fractionBits = p % 2 ^ fractionBits ∧
      signed (fractionBits + exponentBits) negative p / 2 ^ fractionBits % 2 ^ exponentBits =
        p / 2 ^ fractionBits ∧
      (signed (fractionBits + exponentBits) negative p / 2 ^ (fractionBits + exponentBits) % 2
        == 1) = negative := by
  have field : p / 2 ^ fractionBits < 2 ^ exponentBits :=
    Nat.div_lt_of_lt_mul (by rwa [← Nat.pow_add])
  cases negative with
  | false =>
    refine ⟨rfl, Nat.mod_eq_of_lt field, ?_⟩
    simp [signed, Nat.div_eq_of_lt h]
  | true =>
    refine ⟨?_, ?_, ?_⟩
    · simp [signed, Nat.pow_add]
    · simp [signed, Nat.pow_add, Nat.mul_add_div, Nat.mod_eq_of_lt field]
    · simp [signed, Nat.add_div_left, Nat.div_eq_of_lt h]

theorem ofPattern_signed (negative : Bool) (h : p ≤ top exponentBits fractionBits) :
    ofPattern exponentBits fractionBits
        (signed (fractionBits + exponentBits) negative p) =
      if p / 2 ^ fractionBits = 2 ^ exponentBits - 1 then .infinite negative
      else if p / 2 ^ fractionBits = 0 then
        .finite negative (p % 2 ^ fractionBits) (1 - (2 ^ (exponentBits - 1) - 1 + fractionBits))
      else
        .finite negative (2 ^ fractionBits + p % 2 ^ fractionBits)
          ((p / 2 ^ fractionBits : ℕ) - (2 ^ (exponentBits - 1) - 1 + fractionBits)) := by
  obtain ⟨fraction, field, bit⟩ := fields_signed negative (lt_of_le_top h)
  have split := Nat.div_add_mod p (2 ^ fractionBits)
  simp only [ofPattern, Nat.pow_eq, fraction, field, bit, Nat.cast_pow, Nat.cast_ofNat]
  split_ifs with last infinite first
  · rfl
  · rw [top, Nat.mul_comm] at h
    rw [last] at split
    omega
  · rfl
  · rfl

theorem ofPattern_of_le_top (h : p ≤ top exponentBits fractionBits) :
    ofPattern exponentBits fractionBits p =
      if p / 2 ^ fractionBits = 2 ^ exponentBits - 1 then .infinite false
      else if p / 2 ^ fractionBits = 0 then
        .finite false (p % 2 ^ fractionBits) (1 - (2 ^ (exponentBits - 1) - 1 + fractionBits))
      else
        .finite false (2 ^ fractionBits + p % 2 ^ fractionBits)
          ((p / 2 ^ fractionBits : ℕ) - (2 ^ (exponentBits - 1) - 1 + fractionBits)) :=
  ofPattern_signed false h

theorem place_signed (negative : Bool) (h : p ≤ top exponentBits fractionBits) :
    place (unpacked (ofPattern exponentBits fractionBits
        (signed (fractionBits + exponentBits) negative p))) =
      if negative then -place (unpacked (ofPattern exponentBits fractionBits p))
      else place (unpacked (ofPattern exponentBits fractionBits p)) := by
  cases negative with
  | false => rfl
  | true =>
    rw [if_pos rfl, ofPattern_signed true h, ofPattern_of_le_top h]
    split_ifs
    · rfl
    · exact place_negative _ _
    · exact place_negative _ _

theorem le_iff_fields {m : ℕ} (positive : 0 < m) (p q : ℕ) :
    p ≤ q ↔ p / m < q / m ∨ p / m = q / m ∧ p % m ≤ q % m := by
  have split := Nat.div_add_mod p m
  have split' := Nat.div_add_mod q m
  have below := Nat.mod_lt p positive
  have below' := Nat.mod_lt q positive
  rcases lt_trichotomy (p / m) (q / m) with before | same | after
  · have := Nat.mul_le_mul_left m before
    rw [Nat.mul_succ] at this
    omega
  · rw [same] at split
    omega
  · have := Nat.mul_le_mul_left m after
    rw [Nat.mul_succ] at this
    omega

theorem le_top_iff : p ≤ top exponentBits fractionBits ↔
    p / 2 ^ fractionBits < 2 ^ exponentBits - 1 ∨
      p / 2 ^ fractionBits = 2 ^ exponentBits - 1 ∧ p % 2 ^ fractionBits = 0 := by
  have whole := Nat.two_pow_pos fractionBits
  rw [le_iff_fields whole, top, Nat.mul_div_cancel _ whole, Nat.mul_mod_left, Nat.le_zero]

theorem place_ofPattern (h : p ≤ top exponentBits fractionBits) :
    place (unpacked (ofPattern exponentBits fractionBits p)) =
      if p / 2 ^ fractionBits = 2 ^ exponentBits - 1 then toLex (2, toLex (0, 0))
      else if p / 2 ^ fractionBits = 0 then
        if 0 < p % 2 ^ fractionBits then
          toLex (1, toLex (1 - (2 ^ (exponentBits - 1) - 1 + fractionBits : ℤ),
            ((p % 2 ^ fractionBits : ℕ) : ℤ)))
        else toLex (0, toLex (0, 0))
      else
        toLex (1, toLex ((p / 2 ^ fractionBits : ℕ) - (2 ^ (exponentBits - 1) - 1 + fractionBits),
          ((2 ^ fractionBits + p % 2 ^ fractionBits : ℕ) : ℤ))) := by
  rw [ofPattern_of_le_top h]
  split_ifs with last first positive
  · rfl
  · rw [place_finite, if_pos positive]
  · rw [place_finite, if_neg positive]; rfl
  · rw [place_finite, if_pos (by positivity)]

theorem place_le_place_iff (hp : p ≤ top exponentBits fractionBits)
    (hq : q ≤ top exponentBits fractionBits) :
    place (unpacked (ofPattern exponentBits fractionBits p)) ≤
      place (unpacked (ofPattern exponentBits fractionBits q)) ↔ p ≤ q := by
  have whole := Nat.two_pow_pos fractionBits
  have below := Nat.mod_lt p whole
  have below' := Nat.mod_lt q whole
  have bounded := le_top_iff.mp hp
  have bounded' := le_top_iff.mp hq
  rw [place_ofPattern hp, place_ofPattern hq, le_iff_fields whole]
  generalize p / 2 ^ fractionBits = f, p % 2 ^ fractionBits = r at *
  generalize q / 2 ^ fractionBits = g, q % 2 ^ fractionBits = s at *
  split_ifs <;> simp only [Prod.Lex.toLex_le_toLex, true_and] <;> omega

theorem place_zero (some : 0 < exponentBits) :
    place (unpacked (ofPattern exponentBits fractionBits 0)) = 0 := by
  have room : 2 ≤ 2 ^ exponentBits := Nat.le_self_pow some.ne' 2
  rw [place_ofPattern (Nat.zero_le _), Nat.zero_div, Nat.zero_mod, if_neg (by omega), if_pos rfl,
    if_neg (lt_irrefl 0)]
  rfl

/-- Numbers are in the order of their signed patterns, in which both zeros are one. -/
theorem place_signed_le_iff (some : 0 < exponentBits) (hp : p ≤ top exponentBits fractionBits)
    (hq : q ≤ top exponentBits fractionBits) (negative negative' : Bool) :
    place (unpacked (ofPattern exponentBits fractionBits
        (signed (fractionBits + exponentBits) negative p))) ≤
      place (unpacked (ofPattern exponentBits fractionBits
        (signed (fractionBits + exponentBits) negative' q))) ↔
      rank negative p ≤ rank negative' q := by
  rw [place_signed negative hp, place_signed negative' hq]
  have zero : place (unpacked (ofPattern exponentBits fractionBits 0)) = 0 := place_zero some
  have least := Nat.zero_le (top exponentBits fractionBits)
  have nonneg := (place_le_place_iff least hp).mpr p.zero_le
  have nonneg' := (place_le_place_iff least hq).mpr q.zero_le
  rw [zero] at nonneg nonneg'
  cases negative with
  | false =>
    cases negative' with
    | false => simpa using place_le_place_iff hp hq
    | true =>
      simp only [rank_false, rank_true, if_true, Bool.false_eq_true, if_false]
      constructor
      · intro below
        have hp0 := (place_le_place_iff hp least).mp (zero ▸ below.trans (neg_nonpos.mpr nonneg'))
        have hq0 := (place_le_place_iff hq least).mp
          (zero ▸ (le_neg.mp below).trans (neg_nonpos.mpr nonneg))
        omega
      · intro below
        obtain ⟨rfl, rfl⟩ : p = 0 ∧ q = 0 := by omega
        rw [zero, neg_zero]
  | true =>
    cases negative' with
    | false =>
      simp only [rank_false, rank_true, if_true, Bool.false_eq_true, if_false]
      exact iff_of_true ((neg_nonpos.mpr nonneg).trans nonneg') (by omega)
    | true => simpa using place_le_place_iff hq hp

theorem signed_of_lt {width bits : ℕ} (h : bits < 2 ^ (width + 1)) :
    signed width (bits / 2 ^ width % 2 == 1) (bits % 2 ^ width) = bits := by
  have sides : bits / 2 ^ width ≤ 1 :=
    Nat.lt_succ_iff.mp (Nat.div_lt_of_lt_mul (by rwa [← Nat.pow_succ]))
  have split := Nat.div_add_mod bits (2 ^ width)
  unfold signed
  rcases Nat.le_one_iff_eq_zero_or_eq_one.mp sides with zero | one
  · rw [zero] at split ⊢
    simpa using split
  · rw [one] at split ⊢
    simpa using split

theorem le_top_of_ne_notANumber {bits : ℕ}
    (number : ofPattern exponentBits fractionBits bits ≠ .notANumber) :
    bits % 2 ^ (fractionBits + exponentBits) ≤ top exponentBits fractionBits := by
  have field : bits / 2 ^ fractionBits % 2 ^ exponentBits < 2 ^ exponentBits :=
    Nat.mod_lt _ (Nat.two_pow_pos _)
  rw [le_top_iff, Nat.pow_add, Nat.mod_mul_right_div_self, Nat.mod_mul_right_mod]
  simp only [ofPattern, Nat.pow_eq] at number
  split_ifs at number <;> first | omega | exact absurd rfl number

theorem toNat_packComponents {format : Format} (negative : Bool)
    (e : BitVec format.exponentBits) (m : BitVec format.mantissaBitsWithoutImplicit) :
    (packComponents format (sign negative) e m).toNat =
      signed (format.mantissaBitsWithoutImplicit + format.exponentBits) negative
        (e.toNat * 2 ^ format.mantissaBitsWithoutImplicit + m.toNat) := by
  rw [packComponents, BitVec.toNat_append, BitVec.toNat_append,
    ← Nat.shiftLeft_add_eq_or_of_lt m.isLt, ← Nat.shiftLeft_add_eq_or_of_lt e.isLt,
    Nat.shiftLeft_eq, Nat.shiftLeft_eq, signed]
  cases negative with
  | false =>
    have bit : (sign false).toBitVec.toNat = 0 := rfl
    rw [bit, if_neg Bool.false_ne_true]
    ring
  | true =>
    have bit : (sign true).toBitVec.toNat = 1 := rfl
    rw [bit, if_pos rfl]
    ring

theorem toNat_packComponents_of_fields {format : Format} (negative : Bool)
    {e : BitVec format.exponentBits} {m : BitVec format.mantissaBitsWithoutImplicit}
    (field : e.toNat = p / 2 ^ format.mantissaBitsWithoutImplicit)
    (fraction : m.toNat = p % 2 ^ format.mantissaBitsWithoutImplicit) :
    (packComponents format (sign negative) e m).toNat =
      signed (format.mantissaBitsWithoutImplicit + format.exponentBits) negative p := by
  rw [toNat_packComponents, field, fraction, Nat.div_add_mod']

theorem toNat_pack_subnormal {format : Format} (wide : 1 < format.exponentBits) (negative : Bool)
    (first : p / 2 ^ format.mantissaBitsWithoutImplicit = 0)
    (positive : 0 < p % 2 ^ format.mantissaBitsWithoutImplicit) :
    (UnpackedFloat.pack format (.finite (sign negative)
        (p % 2 ^ format.mantissaBitsWithoutImplicit)
        (1 - (2 ^ (format.exponentBits - 1) - 1 + format.mantissaBitsWithoutImplicit))
        positive)).toNat =
      signed (format.mantissaBitsWithoutImplicit + format.exponentBits) negative p := by
  have room : 2 ^ 2 ≤ 2 ^ format.exponentBits := Nat.pow_le_pow_right (by decide) wide
  have exponent : (1 - (2 ^ (format.exponentBits - 1) - 1 +
      (format.mantissaBitsWithoutImplicit : ℤ)) + format.exponentBias +
      format.mantissaBitsWithoutImplicit).toNat = 1 := by
    rw [cast_exponentBias]
    ring_nf
    rfl
  have short : (p % 2 ^ format.mantissaBitsWithoutImplicit).log2 <
      format.mantissaBitsWithoutImplicit :=
    (Nat.log2_lt positive.ne').mpr (Nat.mod_lt p (Nat.two_pow_pos _))
  have subnormal : ¬(p % 2 ^ format.mantissaBitsWithoutImplicit).log2 + 1 =
      format.mantissaBits := by
    rw [Format.mantissaBits]
    omega
  rw [UnpackedFloat.pack]
  simp only [exponent, subnormal, if_false]
  rw [if_neg (by omega)]
  exact toNat_packComponents_of_fields negative (by simp [first]) (by simp)

theorem toNat_pack_normal {format : Format} (negative : Bool)
    (bounded : p / 2 ^ format.mantissaBitsWithoutImplicit + 1 < 2 ^ format.exponentBits)
    (positive : 0 < 2 ^ format.mantissaBitsWithoutImplicit +
      p % 2 ^ format.mantissaBitsWithoutImplicit) :
    (UnpackedFloat.pack format (.finite (sign negative)
        (2 ^ format.mantissaBitsWithoutImplicit + p % 2 ^ format.mantissaBitsWithoutImplicit)
        ((p / 2 ^ format.mantissaBitsWithoutImplicit : ℕ) -
          (2 ^ (format.exponentBits - 1) - 1 + format.mantissaBitsWithoutImplicit))
        positive)).toNat =
      signed (format.mantissaBitsWithoutImplicit + format.exponentBits) negative p := by
  have below := Nat.mod_lt p (Nat.two_pow_pos format.mantissaBitsWithoutImplicit)
  have exponent : ((p / 2 ^ format.mantissaBitsWithoutImplicit : ℕ) -
      (2 ^ (format.exponentBits - 1) - 1 + (format.mantissaBitsWithoutImplicit : ℤ)) +
      format.exponentBias + format.mantissaBitsWithoutImplicit).toNat =
      p / 2 ^ format.mantissaBitsWithoutImplicit := by
    rw [cast_exponentBias]
    ring_nf
    exact Int.toNat_natCast _
  have length : (2 ^ format.mantissaBitsWithoutImplicit +
      p % 2 ^ format.mantissaBitsWithoutImplicit).log2 = format.mantissaBitsWithoutImplicit := by
    rw [Nat.log2_eq_iff positive.ne', Nat.pow_succ]
    omega
  have normal : (2 ^ format.mantissaBitsWithoutImplicit +
      p % 2 ^ format.mantissaBitsWithoutImplicit).log2 + 1 = format.mantissaBits := by
    rw [length, Format.mantissaBits, Nat.add_comm]
  rw [UnpackedFloat.pack]
  simp only [exponent, normal, if_true]
  rw [if_neg (by omega)]
  refine toNat_packComponents_of_fields negative ?_ ?_
  · exact Nat.mod_eq_of_lt (by omega)
  · simp

/-- A number is packed as its pattern. -/
theorem toNat_pack_signed {format : Format} (wide : 1 < format.exponentBits) (negative : Bool)
    (h : p ≤ top format.exponentBits format.mantissaBitsWithoutImplicit) :
    (UnpackedFloat.pack format (unpacked (ofPattern format.exponentBits
        format.mantissaBitsWithoutImplicit
        (signed (format.mantissaBitsWithoutImplicit + format.exponentBits) negative p)))).toNat =
      signed (format.mantissaBitsWithoutImplicit + format.exponentBits) negative p := by
  have bounded := le_top_iff.mp h
  rw [ofPattern_signed negative h]
  split_ifs with last first
  · have whole := (bounded.resolve_left (by omega)).2
    exact toNat_packComponents_of_fields negative (by simp [BitVec.neg_one_eq_allOnes, last])
      (by simp [whole])
  · by_cases positive : 0 < p % 2 ^ format.mantissaBitsWithoutImplicit
    · rw [unpacked_finite positive]
      exact toNat_pack_subnormal wide negative first positive
    · rw [unpacked, dif_neg positive]
      exact toNat_packComponents_of_fields negative (by simp [first])
        (Nat.eq_zero_of_not_pos positive).symm
  · rw [unpacked_finite (by positivity)]
    have inner := bounded.resolve_right fun infinite => last infinite.1
    exact toNat_pack_normal negative (Nat.add_lt_of_lt_sub inner) _

end Signed

end SvgPage.Binary

namespace SvgPage

open Float.Model Binary

theorem Binary.isNaN_unpacked {x : Binary} : x.unpacked.isNaN = true ↔ x = .notANumber := by
  cases x with
  | notANumber => exact iff_of_true rfl rfl
  | infinite negative => exact iff_of_false Bool.false_ne_true nofun
  | finite negative n e =>
    refine iff_of_false ?_ nofun
    by_cases positive : 0 < n
    · rw [unpacked_finite positive]; exact Bool.false_ne_true
    · rw [unpacked, dif_neg positive]; exact Bool.false_ne_true

theorem Binary.ofPattern_signed_ne_notANumber {exponentBits fractionBits p : ℕ} (negative : Bool)
    (h : p ≤ top exponentBits fractionBits) :
    ofPattern exponentBits fractionBits (signed (fractionBits + exponentBits) negative p) ≠
      .notANumber := by
  rw [ofPattern_signed negative h]
  split_ifs <;> nofun

/-- Patterns of one format are compared by their ranks. -/
theorem Binary.le_unpacked_iff {exponentBits fractionBits p q : ℕ} {negative negative' : Bool}
    (some : 0 < exponentBits) (hp : p ≤ top exponentBits fractionBits)
    (hq : q ≤ top exponentBits fractionBits) :
    (ofPattern exponentBits fractionBits
        (signed (fractionBits + exponentBits) negative p)).unpacked.le
      (ofPattern exponentBits fractionBits
        (signed (fractionBits + exponentBits) negative' q)).unpacked = true ↔
      rank negative p ≤ rank negative' q := by
  have number := mt isNaN_unpacked.mp (ofPattern_signed_ne_notANumber negative hp)
  have number' := mt isNaN_unpacked.mp (ofPattern_signed_ne_notANumber negative' hq)
  rw [UnpackedFloat.le, Double.compare_eq_compare_place (Bool.eq_false_of_not_eq_true number)
    (Bool.eq_false_of_not_eq_true number'), Option.any_some, Ordering.isLE_iff_ne_gt,
    ← place_signed_le_iff some hp hq]
  exact compare_le_iff_le

namespace Double

variable {a b : Float}

theorem unpack_eq (a : Float) : a.toModel.unpack = (ofDouble a).unpacked := Binary.unpack_eq _

theorem isNaN_iff : a.isNaN = true ↔ ofDouble a = .notANumber := by
  have same : a.isNaN = (ofDouble a).unpacked.isNaN := congrArg _ (unpack_eq a)
  rw [same, isNaN_unpacked]

theorem exists_signed (number : a.isNaN = false) :
    ∃ negative p, p ≤ top 11 52 ∧ a.toBits.toNat = signed 63 negative p := by
  refine ⟨_, _, le_top_of_ne_notANumber fun absurd => ?_, (signed_of_lt a.toBits.toNat_lt).symm⟩
  rw [isNaN_iff.mpr absurd] at number
  cases number

theorem le_iff_rank {negative negative' : Bool} {p q : ℕ} (hp : p ≤ top 11 52)
    (hq : q ≤ top 11 52) (ha : a.toBits.toNat = signed 63 negative p)
    (hb : b.toBits.toNat = signed 63 negative' q) :
    a ≤ b ↔ rank negative p ≤ rank negative' q := by
  have order : a ≤ b ↔ a.toModel.unpack.le b.toModel.unpack = true := decide_eq_true_iff
  rw [order, unpack_eq, unpack_eq, ofDouble, ofDouble, ha, hb]
  exact le_unpacked_iff (by decide) hp hq

end Double

namespace Single

variable {x y : Float32}

theorem unpack_eq (x : Float32) : x.toModel.unpack = (ofSingle x).unpacked := Binary.unpack_eq _

theorem isNaN_iff : x.isNaN = true ↔ ofSingle x = .notANumber := by
  have same : x.isNaN = (ofSingle x).unpacked.isNaN := congrArg _ (unpack_eq x)
  rw [same, isNaN_unpacked]

theorem le_iff_rank {negative negative' : Bool} {p q : ℕ} (hp : p ≤ top 8 23)
    (hq : q ≤ top 8 23) (hx : x.toBits.toNat = signed 31 negative p)
    (hy : y.toBits.toNat = signed 31 negative' q) :
    x ≤ y ↔ rank negative p ≤ rank negative' q := by
  have order : x ≤ y ↔ x.toModel.unpack.le y.toModel.unpack = true := decide_eq_true_iff
  rw [order, unpack_eq, unpack_eq, ofSingle, ofSingle, hx, hy]
  exact le_unpacked_iff (by decide) hp hq

theorem isNaN_eq_false_of_le (h : x ≤ y) : x.isNaN = false := by
  have order : x.toModel.unpack.le y.toModel.unpack = true := decide_eq_true_iff.mp h
  change x.toModel.unpack.isNaN = false
  generalize x.toModel.unpack = u at order ⊢
  cases u with
  | notANumber => cases order
  | infinity | zero | finite => rfl

theorem toNat_toBits_ofBits {negative : Bool} {p : ℕ} (h : p ≤ top 8 23) :
    (Float32.ofBits (UInt32.ofNat (signed 31 negative p))).toBits.toNat = signed 31 negative p := by
  have small : signed 31 negative p < 2 ^ 32 := by
    have := lt_of_le_top h
    unfold signed
    split_ifs <;> omega
  have pattern : (UInt32.ofNat (signed 31 negative p)).toBitVec.toNat = signed 31 negative p :=
    Nat.mod_eq_of_lt small
  change (UnpackedFloat.pack .binary32 (UnpackedFloat.unpack .binary32
    (UInt32.ofNat (signed 31 negative p)).toBitVec)).toNat = signed 31 negative p
  rw [Binary.unpack_eq, pattern]
  exact toNat_pack_signed (by decide) negative h

end Single

end SvgPage

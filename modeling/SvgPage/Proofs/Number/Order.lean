import Mathlib
import SvgPage.Scalar

/-!
# The order of doubles

Doubles that are numbers are ordered totally, with both zeros in the same place. What is not a
number stands in no order to anything. A whole number is never below zero.
-/

namespace SvgPage.Double

open Float.Model Float.Model.UnpackedFloat

/-- The place of a number among all numbers: its sort, then exponent and mantissa. -/
def place : UnpackedFloat → Int ×ₗ Int ×ₗ Int
  | .infinity .negative => toLex (-2, toLex (0, 0))
  | .finite .negative m e _ => toLex (-1, toLex (-e, -m))
  | .notANumber | .zero _ => toLex (0, toLex (0, 0))
  | .finite .positive m e _ => toLex (1, toLex (e, m))
  | .infinity .positive => toLex (2, toLex (0, 0))

theorem compare_toLex (s e f m n : Int) :
    compare (toLex (s, toLex (e, m))) (toLex (s, toLex (f, n))) =
      (compare e f).then (compare m n) := by
  simp [Prod.Lex.compare_def, compareLex, compareOn]

theorem compare_cast (m n : Nat) : compare (m : Int) (n : Int) = compare m n := by
  simp [Nat.compare_eq_ite_lt, Int.compare_eq_ite_lt]

theorem compare_neg (e f : Int) : compare (-e) (-f) = (compare e f).swap := by
  rw [Int.compare_swap]
  simp [Int.compare_eq_ite_lt]

theorem compare_eq_compare_place {a b : UnpackedFloat} (ha : a.isNaN = false)
    (hb : b.isNaN = false) : a.compare b = some (compare (place a) (place b)) := by
  rcases a with ⟨_ | _⟩ | _ | _ | ⟨_ | _, m, e, _⟩ <;>
    rcases b with ⟨_ | _⟩ | _ | _ | ⟨_ | _, n, f, _⟩ <;>
      first | exact absurd ha (by decide) | exact absurd hb (by decide) | rfl | skip
  -- Two finite numbers of the same sign are left.
  · change some _ = some (compare (toLex _) (toLex _))
    rw [compare_toLex, compare_neg, compare_neg, compare_cast, Ordering.swap_then]
  · change some _ = some (compare (toLex _) (toLex _))
    rw [compare_toLex, compare_cast]

variable {a b c : Float}

/-- The place of a double. -/
def key (a : Float) : Int ×ₗ Int ×ₗ Int := place a.toModel.unpack

theorem isNaN_eq_false_of_isFinite (h : a.isFinite = true) : a.isNaN = false := by
  change a.toModel.unpack.isFinite = true at h
  change a.toModel.unpack.isNaN = false
  cases number : a.toModel.unpack <;> rw [number] at h <;> first | rfl | cases h

theorem lt_iff_compare :
    a < b ↔ a.toModel.unpack.compare b.toModel.unpack = some .lt :=
  Iff.trans (b := a.toModel.unpack.lt b.toModel.unpack = true) decide_eq_true_iff beq_iff_eq

theorem le_iff_compare :
    a ≤ b ↔ ∃ o, a.toModel.unpack.compare b.toModel.unpack = some o ∧ o.isLE = true := by
  refine Iff.trans (b := a.toModel.unpack.le b.toModel.unpack = true) decide_eq_true_iff ?_
  rw [UnpackedFloat.le, Option.any_eq_true]

theorem beq_iff_compare :
    (a == b) = true ↔ a.toModel.unpack.compare b.toModel.unpack = some .eq :=
  beq_iff_eq (a := a.toModel.unpack.compare b.toModel.unpack)

theorem isNaN_eq_false_of_le (h : a ≤ b) : a.isNaN = false ∧ b.isNaN = false := by
  obtain ⟨o, comparison, -⟩ := le_iff_compare.1 h
  change a.toModel.unpack.isNaN = false ∧ b.toModel.unpack.isNaN = false
  generalize a.toModel.unpack = x at comparison ⊢
  generalize b.toModel.unpack = y at comparison ⊢
  cases x <;> cases y <;> first | exact ⟨rfl, rfl⟩ | simp [UnpackedFloat.compare] at comparison

theorem isNaN_eq_false_of_lt (h : a < b) : a.isNaN = false ∧ b.isNaN = false := by
  have comparison := lt_iff_compare.1 h
  exact isNaN_eq_false_of_le (le_iff_compare.2 ⟨.lt, comparison, rfl⟩)

theorem lt_iff_key (ha : a.isNaN = false) (hb : b.isNaN = false) : a < b ↔ key a < key b := by
  rw [lt_iff_compare, compare_eq_compare_place ha hb, Option.some_inj, compare_lt_iff_lt]
  rfl

theorem le_iff_key (ha : a.isNaN = false) (hb : b.isNaN = false) : a ≤ b ↔ key a ≤ key b := by
  simp only [le_iff_compare, compare_eq_compare_place ha hb, Option.some_inj, exists_eq_left',
    Ordering.isLE_iff_ne_gt]
  exact compare_le_iff_le

theorem beq_self (ha : a.isNaN = false) : (a == a) = true := by
  rw [beq_iff_compare, compare_eq_compare_place ha ha, compare_eq_iff_eq.2 rfl]

theorem le_refl (ha : a.isNaN = false) : a ≤ a :=
  (le_iff_key ha ha).2 le_rfl

theorem le_trans (first : a ≤ b) (second : b ≤ c) : a ≤ c := by
  obtain ⟨ha, hb⟩ := isNaN_eq_false_of_le first
  obtain ⟨-, hc⟩ := isNaN_eq_false_of_le second
  rw [le_iff_key ha hb] at first
  rw [le_iff_key hb hc] at second
  exact (le_iff_key ha hc).2 (first.trans second)

theorem not_lt_iff (ha : a.isNaN = false) (hb : b.isNaN = false) : ¬a < b ↔ b ≤ a := by
  rw [lt_iff_key ha hb, le_iff_key hb ha, not_lt]

theorem maximum_cases (ha : a.isNaN = false) (hb : b.isNaN = false) :
    (a < b ∧ Scalar.maximum a b = b) ∨ (b ≤ a ∧ Scalar.maximum a b = a) := by
  have same : (a != a) = false := by simp [bne, beq_self ha]
  by_cases below : a < b
  · exact .inl ⟨below, by simp [Scalar.maximum, below]⟩
  · exact .inr ⟨(not_lt_iff ha hb).1 below, by simp [Scalar.maximum, below, same]⟩

/-- Not marked as below zero. -/
def Unsigned : UnpackedFloat → Prop
  | .infinity s | .zero s | .finite s _ _ _ => s = .positive
  | .notANumber => True

theorem unsigned_finite {m : Nat} {e : Int} {h : 0 < m} : Unsigned (.finite .positive m e h) :=
  rfl

theorem unsigned_roundWithAccuracy (format : Format) (m : Nat) (e : Int) (accuracy : Accuracy) :
    Unsigned (roundWithAccuracy format .positive m e accuracy) := by
  unfold roundWithAccuracy
  dsimp only
  split <;> rfl

theorem unsigned_normalize (format : Format) (n : Nat) :
    Unsigned (UnpackedFloat.normalize format n 0 .positive) := by
  unfold UnpackedFloat.normalize
  split
  · next below => simp [compare_lt_iff_lt] at below; omega
  · rfl
  · exact unsigned_roundWithAccuracy ..

theorem unsigned_mul (format : Format) {x y : UnpackedFloat} (hx : Unsigned x) (hy : Unsigned y) :
    Unsigned (mul format x y) := by
  cases x <;> cases y <;> first | exact trivial | (cases hx; cases hy)
  all_goals first | rfl | exact unsigned_roundWithAccuracy ..

theorem unsigned_ofScientific (format : Format) (n : Nat) :
    Unsigned (UnpackedFloat.ofScientific format n 0) := by
  unfold UnpackedFloat.ofScientific
  split
  · rfl
  split
  · rfl
  split
  · rfl
  · rw [if_pos le_rfl]
    exact unsigned_mul format unsigned_finite unsigned_finite

theorem unpackSign_packComponents {format : Format} (s : Sign)
    (e : BitVec format.exponentBits) (m : BitVec format.mantissaBitsWithoutImplicit) :
    unpackSign (packComponents format s e m) = s.toBitVec := by
  ext i hi
  have place : ¬format.mantissaBitsWithoutImplicit + format.exponentBits + i -
      format.mantissaBitsWithoutImplicit < format.exponentBits := by omega
  have bit : format.mantissaBitsWithoutImplicit + format.exponentBits + i -
      format.mantissaBitsWithoutImplicit - format.exponentBits = i := by omega
  have outside : ¬format.mantissaBitsWithoutImplicit + format.exponentBits + i <
      format.mantissaBitsWithoutImplicit := by omega
  simp [unpackSign, packComponents, BitVec.getLsbD_append, place, bit, outside,
    BitVec.getLsbD_eq_getElem hi]

theorem exists_pack_eq {format : Format} {x : UnpackedFloat} (h : Unsigned x) :
    ∃ e m, UnpackedFloat.pack format x = packComponents format .positive e m := by
  unfold UnpackedFloat.pack
  split
  · exact ⟨_, _, rfl⟩
  · cases h; exact ⟨_, _, rfl⟩
  · cases h; exact ⟨_, _, rfl⟩
  · cases h
    dsimp only
    split
    · exact ⟨_, _, rfl⟩
    split <;> exact ⟨_, _, rfl⟩

theorem unsigned_unpack_pack {format : Format} {x : UnpackedFloat} (h : Unsigned x) :
    Unsigned (UnpackedFloat.unpack format (UnpackedFloat.pack format x)) := by
  obtain ⟨e, m, packed⟩ := exists_pack_eq h
  rw [packed]
  unfold UnpackedFloat.unpack
  rw [unpackSign_packComponents]
  dsimp only
  split
  · split
    · rfl
    · trivial
  split
  · split <;> rfl
  · rfl

theorem not_lt_zero_of_unsigned {a : Float} (h : Unsigned a.toModel.unpack) : ¬a < 0 := by
  rw [lt_iff_compare]
  have zero : (0 : Float).toModel.unpack = .zero .positive := by rfl
  rw [zero]
  cases number : a.toModel.unpack <;> rw [number] at h <;>
    cases h <;> simp [UnpackedFloat.compare]

theorem unsigned_natCast (n : Nat) : Unsigned (n.toFloat).toModel.unpack := by
  change Unsigned (Float.ofScientific n false 0).toModel.unpack
  unfold Float.ofScientific
  split
  · refine unsigned_unpack_pack (unsigned_mul _ (unsigned_unpack_pack ?_) ?_)
    · exact unsigned_normalize ..
    · have one : Float.exactlyRepresentablePowersOfTen[0].toModel.unpack =
          .finite .positive (2 ^ 52) (-52) (by decide) := by rfl
      exact one ▸ unsigned_finite
  · exact unsigned_unpack_pack (unsigned_ofScientific ..)

theorem not_natCast_lt_zero (n : Nat) : ¬n.toFloat < 0 :=
  not_lt_zero_of_unsigned (unsigned_natCast n)

end SvgPage.Double

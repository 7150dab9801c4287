import Mathlib
import SvgPage.Geometry.Arc
import SvgPage.Proofs.Number.Exact

/-!
# Turns

The angle between two points of the unit circle is at most a half turn. Brought into the requested
direction it still leads from one to the other, and it is more than a half turn where the shorter
way goes against the direction.
-/

namespace SvgPage

namespace Point

def OnUnitCircle (u : Point ℝ) : Prop := u.x ^ 2 + u.y ^ 2 = 1

def dot (u v : Point ℝ) : ℝ := u.x * v.x + u.y * v.y

/-- Positive where the shorter way from one vector to the other goes in the positive direction. -/
def cross (u v : Point ℝ) : ℝ := u.x * v.y - u.y * v.x

end Point

namespace Arc.Endpoint

open Point

section

variable {u v : Point ℝ}

theorem angleBetween_eq (u v : Point ℝ) : angleBetween u v = Complex.arg ⟨dot u v, cross u v⟩ := rfl

theorem norm_dot_cross (hu : u.OnUnitCircle) (hv : v.OnUnitCircle) :
    ‖(⟨dot u v, cross u v⟩ : ℂ)‖ = 1 := by
  have square : dot u v ^ 2 + cross u v ^ 2 = 1 := by
    unfold OnUnitCircle at hu hv
    calc dot u v ^ 2 + cross u v ^ 2 = (u.x ^ 2 + u.y ^ 2) * (v.x ^ 2 + v.y ^ 2) := by
          unfold dot cross
          ring
      _ = 1 := by rw [hu, hv, one_mul]
  rw [Complex.norm_def, Complex.normSq_mk, ← sq, ← sq, square, Real.sqrt_one]

theorem cos_angleBetween (hu : u.OnUnitCircle) (hv : v.OnUnitCircle) :
    Real.cos (angleBetween u v) = dot u v := by
  have h := Complex.norm_mul_cos_arg ⟨dot u v, cross u v⟩
  rwa [norm_dot_cross hu hv, one_mul] at h

theorem sin_angleBetween (hu : u.OnUnitCircle) (hv : v.OnUnitCircle) :
    Real.sin (angleBetween u v) = cross u v := by
  have h := Complex.norm_mul_sin_arg ⟨dot u v, cross u v⟩
  rwa [norm_dot_cross hu hv, one_mul] at h

theorem angleBetween_pos_iff (bent : cross u v ≠ 0) : 0 < angleBetween u v ↔ 0 < cross u v := by
  rw [angleBetween_eq, ← not_le, ← not_le]
  have nonzero : Complex.arg ⟨dot u v, cross u v⟩ ≠ 0 := fun h =>
    bent (Complex.arg_eq_zero_iff.mp h).2
  rw [nonzero.le_iff_lt, Complex.arg_neg_iff, bent.le_iff_lt]

theorem angleBetween_eq_pi_iff : angleBetween u v = Real.pi ↔ dot u v < 0 ∧ cross u v = 0 :=
  Complex.arg_eq_pi_iff

theorem angleBetween_eq_zero_iff : angleBetween u v = 0 ↔ 0 ≤ dot u v ∧ cross u v = 0 :=
  Complex.arg_eq_zero_iff

theorem sweepAngle_true (u v : Point ℝ) : sweepAngle true u v =
    if angleBetween u v < 0 then angleBetween u v + 2 * Real.pi else angleBetween u v := by
  simp [sweepAngle]

theorem sweepAngle_false (u v : Point ℝ) : sweepAngle false u v =
    if 0 < angleBetween u v then angleBetween u v - 2 * Real.pi else angleBetween u v := by
  simp [sweepAngle]

/-- The direction changes the angle by whole turns only. -/
theorem exists_turns (sweep : Bool) (u v : Point ℝ) :
    ∃ n : ℤ, sweepAngle sweep u v = angleBetween u v + n * (2 * Real.pi) := by
  cases sweep with
  | true =>
    rw [sweepAngle_true]
    split_ifs
    · exact ⟨1, by simp⟩
    · exact ⟨0, by simp⟩
  | false =>
    rw [sweepAngle_false]
    split_ifs
    · exact ⟨-1, by push_cast; ring⟩
    · exact ⟨0, by simp⟩

theorem cos_sweepAngle (sweep : Bool) (hu : u.OnUnitCircle) (hv : v.OnUnitCircle) :
    Real.cos (sweepAngle sweep u v) = dot u v := by
  obtain ⟨n, turned⟩ := exists_turns sweep u v
  rw [turned, Real.cos_add_int_mul_two_pi, cos_angleBetween hu hv]

theorem sin_sweepAngle (sweep : Bool) (hu : u.OnUnitCircle) (hv : v.OnUnitCircle) :
    Real.sin (sweepAngle sweep u v) = cross u v := by
  obtain ⟨n, turned⟩ := exists_turns sweep u v
  rw [turned, Real.sin_add_int_mul_two_pi, sin_angleBetween hu hv]

/-- The angle of a point, from the point `(1, 0)`. -/
theorem point_of_angle (hu : u.OnUnitCircle) :
    (⟨Real.cos (angleBetween ⟨1, 0⟩ u), Real.sin (angleBetween ⟨1, 0⟩ u)⟩ : Point ℝ) = u := by
  have start : (⟨1, 0⟩ : Point ℝ).OnUnitCircle := by simp [OnUnitCircle]
  rw [cos_angleBetween start hu, sin_angleBetween start hu]
  simp [dot, cross]

theorem point_of_turn (sweep : Bool) (hu : u.OnUnitCircle) (hv : v.OnUnitCircle) :
    (⟨Real.cos (angleBetween ⟨1, 0⟩ u + sweepAngle sweep u v),
      Real.sin (angleBetween ⟨1, 0⟩ u + sweepAngle sweep u v)⟩ : Point ℝ) = v := by
  have angle := point_of_angle hu
  rw [Real.cos_add, Real.sin_add, cos_sweepAngle sweep hu hv, sin_sweepAngle sweep hu hv]
  rcases u with ⟨x, y⟩
  rcases v with ⟨x', y'⟩
  obtain ⟨cosine, sine⟩ := Point.mk.inj angle
  unfold OnUnitCircle at hu
  dsimp only at hu
  rw [cosine, sine, Point.mk.injEq]
  unfold dot cross
  dsimp only
  constructor
  · linear_combination x' * hu
  · linear_combination y' * hu

theorem angleBetween_mem (u v : Point ℝ) : angleBetween u v ∈ Set.Ioc (-Real.pi) Real.pi :=
  Complex.arg_mem_Ioc _

theorem sweepAngle_true_pos (apart : angleBetween u v ≠ 0) : 0 < sweepAngle true u v := by
  obtain ⟨low, -⟩ := angleBetween_mem u v
  rw [sweepAngle_true]
  split_ifs with h
  · linarith [Real.pi_pos]
  · exact lt_of_le_of_ne (not_lt.mp h) apart.symm

theorem sweepAngle_false_neg (apart : angleBetween u v ≠ 0) : sweepAngle false u v < 0 := by
  obtain ⟨-, high⟩ := angleBetween_mem u v
  rw [sweepAngle_false]
  split_ifs with h
  · linarith [Real.pi_pos]
  · exact lt_of_le_of_ne (not_lt.mp h) apart

/-- How far the arc goes: the shorter way if this is in the requested direction, otherwise the rest
of a whole turn. -/
theorem abs_sweepAngle (sweep : Bool) (apart : angleBetween u v ≠ 0) : |sweepAngle sweep u v| =
    if (0 < angleBetween u v ↔ sweep = true) then |angleBetween u v|
    else 2 * Real.pi - |angleBetween u v| := by
  obtain ⟨low, high⟩ := angleBetween_mem u v
  rcases lt_or_gt_of_ne apart with h | h
  · cases sweep with
    | true =>
      have long : 0 < angleBetween u v + 2 * Real.pi := by linarith [Real.pi_pos]
      simp only [sweepAngle_true, h, if_true, h.not_gt, false_iff, not_true_eq_false, if_false,
        abs_of_pos long, abs_of_neg h]
      ring
    | false => simp [sweepAngle_false, h.not_gt]
  · cases sweep with
    | true => simp [sweepAngle_true, h, h.not_gt]
    | false =>
      have long : angleBetween u v - 2 * Real.pi < 0 := by linarith [Real.pi_pos]
      simp only [sweepAngle_false, h, if_true, true_iff, Bool.false_eq_true, if_false,
        abs_of_neg long, abs_of_pos h]
      ring

theorem abs_angleBetween_le (u v : Point ℝ) : |angleBetween u v| ≤ Real.pi := by
  obtain ⟨low, high⟩ := angleBetween_mem u v
  exact abs_le.mpr ⟨low.le, high⟩

theorem abs_angleBetween_eq_pi_iff : |angleBetween u v| = Real.pi ↔ angleBetween u v = Real.pi := by
  obtain ⟨low, high⟩ := angleBetween_mem u v
  constructor
  · intro h
    obtain same | opposite := eq_or_eq_neg_of_abs_eq h
    · exact same
    · exact absurd opposite low.ne'
  · intro h
    rw [h, abs_of_pos Real.pi_pos]

theorem abs_sweepAngle_eq_pi_iff (sweep : Bool) (apart : angleBetween u v ≠ 0) :
    |sweepAngle sweep u v| = Real.pi ↔ angleBetween u v = Real.pi := by
  rw [abs_sweepAngle sweep apart, ← abs_angleBetween_eq_pi_iff]
  split_ifs
  · exact Iff.rfl
  · constructor <;> intro h <;> linarith

theorem abs_sweepAngle_le_pi_iff (sweep : Bool) (apart : angleBetween u v ≠ 0)
    (short : angleBetween u v ≠ Real.pi) :
    |sweepAngle sweep u v| ≤ Real.pi ↔ (0 < angleBetween u v ↔ sweep = true) := by
  have less : |angleBetween u v| < Real.pi :=
    lt_of_le_of_ne (abs_angleBetween_le u v) fun h => short (abs_angleBetween_eq_pi_iff.mp h)
  rw [abs_sweepAngle sweep apart]
  split_ifs with h
  · exact iff_of_true less.le h
  · exact iff_of_false (by linarith) h

end

end Arc.Endpoint

end SvgPage

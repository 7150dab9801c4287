import Mathlib
import SvgPage.Geometry.Path
import SvgPage.Proofs.Number.Exact

/-!
# Products of affine maps

With exact numbers the product of maps is their composition. So a list of maps is applied to a point
from its end to its beginning, and two lists that are joined denote the product of their maps.
-/

namespace SvgPage

namespace Matrix

@[simp]
theorem identity_apply (p : Point ℝ) : (identity : Matrix ℝ).apply p = p := by
  simp [identity, apply]

@[simp]
theorem translate_apply (tx ty : ℝ) (p : Point ℝ) :
    (translate tx ty).apply p = ⟨p.x + tx, p.y + ty⟩ := by
  simp [translate, apply]

@[simp]
theorem scale_apply (sx sy : ℝ) (p : Point ℝ) : (scale sx sy).apply p = ⟨sx * p.x, sy * p.y⟩ := by
  simp [scale, apply]

@[simp]
theorem rotate_apply_origin (angle : ℝ) : (rotate angle).apply ⟨0, 0⟩ = ⟨0, 0⟩ := by
  simp [rotate, apply]

@[simp]
theorem mul_apply (m n : Matrix ℝ) (p : Point ℝ) : (m.mul n).apply p = m.apply (n.apply p) := by
  simp only [mul, apply, Point.mk.injEq]
  constructor <;> ring

theorem mul_assoc (m n k : Matrix ℝ) : (m.mul n).mul k = m.mul (n.mul k) := by
  simp only [mul, mk.injEq]
  refine ⟨?_, ?_, ?_, ?_, ?_, ?_⟩ <;> ring

@[simp]
theorem identity_mul (m : Matrix ℝ) : (identity : Matrix ℝ).mul m = m := by
  simp [mul, identity]

@[simp]
theorem mul_identity (m : Matrix ℝ) : m.mul (identity : Matrix ℝ) = m := by
  simp [mul, identity]

@[simp]
theorem compose_nil : compose ([] : List (Matrix ℝ)) = identity := rfl

theorem foldl_mul (m : Matrix ℝ) (ms : List (Matrix ℝ)) : ms.foldl mul m = m.mul (compose ms) := by
  induction ms generalizing m with
  | nil => simp
  | cons n ms ih =>
    have first : compose (n :: ms) = n.mul (compose ms) := by
      rw [compose, List.foldl_cons, identity_mul, ih]
    rw [List.foldl_cons, ih, first, mul_assoc]

@[simp]
theorem compose_cons (m : Matrix ℝ) (ms : List (Matrix ℝ)) :
    compose (m :: ms) = m.mul (compose ms) := by
  rw [compose, List.foldl_cons, identity_mul, foldl_mul]

theorem compose_append (ms ns : List (Matrix ℝ)) :
    compose (ms ++ ns) = (compose ms).mul (compose ns) := by
  rw [compose, List.foldl_append, foldl_mul]
  rfl

theorem compose_apply (ms : List (Matrix ℝ)) (p : Point ℝ) :
    (compose ms).apply p = ms.foldr apply p := by
  induction ms with
  | nil => simp
  | cons m ms ih => simp [ih]

end Matrix

theorem PathOp.map_map {α : Type} (f g : Point α → Point α) (op : PathOp α) :
    (op.map g).map f = op.map (f ∘ g) := by
  cases op <;> rfl

theorem PathOp.points_map {α : Type} (f : Point α → Point α) (op : PathOp α) :
    (op.map f).points = op.points.map f := by
  cases op <;> rfl

namespace Path

theorem transform_transform (m n : Matrix ℝ) (ops : List (PathOp ℝ)) :
    transform m (transform n ops) = transform (m.mul n) ops := by
  simp only [transform, List.map_map]
  apply List.map_congr_left
  intro op _
  rw [Function.comp_apply, PathOp.map_map]
  congr 1
  funext p
  exact (Matrix.mul_apply m n p).symm

end Path

end SvgPage

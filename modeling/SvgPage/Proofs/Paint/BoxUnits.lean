import Mathlib
import SvgPage.Paint.Definitions
import SvgPage.Proofs.Geometry.Boxes

/-!
# Units of the bounding box

A clip path or a gradient that is given in shares of a bounding box follows the outline it is
applied to: when the outline is moved and scaled, so is what the definition adds to it.
-/

namespace SvgPage

open SvgPage.Matrix (resize)

variable {tx ty sx sy : ℝ}

theorem ClipPath.opsFor_image {c : ClipPath ℝ} (units : c.units = .boundingBox) (b : Rect ℝ) :
    c.opsFor (some (b.image (resize tx ty sx sy))) =
      Path.transform (resize tx ty sx sy) (c.opsFor (some b)) := by
  unfold opsFor
  rw [units]
  dsimp only
  rw [Path.transform_transform, Rect.resize_mul_ofUnitSquare]

namespace Gradient

theorem frame?_image (hx : 0 < sx) (hy : 0 < sy) (b : Rect ℝ) :
    frame? .boundingBox (b.image (resize tx ty sx sy)) =
      (frame? .boundingBox b).map (resize tx ty sx sy).mul := by
  have flat : sx * b.width ≤ 0 ∨ sy * b.height ≤ 0 ↔ b.width ≤ 0 ∨ b.height ≤ 0 := by
    simp only [← not_lt, mul_pos_iff_of_pos_left hx, mul_pos_iff_of_pos_left hy]
  rw [Rect.image_resize]
  unfold frame?
  simp only [Scalar.numeral_zero, flat]
  by_cases h : b.width ≤ 0 ∨ b.height ≤ 0
  · simp [h]
  · simp only [h, if_false, Option.map_some]
    rw [Rect.resize_mul_ofUnitSquare, Rect.image_resize]

theorem ramp_eq {g : Gradient ℝ} (units : g.units = .boundingBox) (b c : Rect ℝ) :
    g.ramp b = g.ramp c := by
  unfold ramp
  rw [units]
  rfl

theorem place?_image (hx : 0 < sx) (hy : 0 < sy) {g : Gradient ℝ} (units : g.units = .boundingBox)
    (b : Rect ℝ) : g.place? (b.image (resize tx ty sx sy)) =
      (g.place? b).map fun placed => ⟨(resize tx ty sx sy).mul placed.matrix, placed.ramp⟩ := by
  unfold place?
  rw [units, frame?_image hx hy, ramp_eq units (b.image (resize tx ty sx sy)) b]
  by_cases bare : g.stops.isEmpty = true
  · simp [bare]
  · simp [bare, Matrix.mul_assoc, Function.comp_def]

end Gradient

/-- When an outline with a point is moved and scaled along the axes, its box becomes the image of
the box, clips in shares of the box become the images of the clips, and gradients in shares of the
box keep their ramps and are placed by the product of the maps, unless none is placed. -/
theorem box_units_follow {ops : List (PathOp ℝ)} (occupied : ops.flatMap PathOp.points ≠ [])
    (hx : 0 < sx) (hy : 0 < sy) (tx ty : ℝ) :
    let A := (Matrix.translate tx ty).mul (Matrix.scale sx sy)
    ∃ b, Path.bbox? ops = some b ∧ Path.bbox? (Path.transform A ops) = some (b.image A) ∧
      (b.image A).region = A.apply '' b.region ∧
        (∀ c : ClipPath ℝ, c.units = .boundingBox →
          c.opsFor (Path.bbox? (Path.transform A ops)) =
            Path.transform A (c.opsFor (Path.bbox? ops))) ∧
          ∀ g : Gradient ℝ, g.units = .boundingBox →
            g.place? (b.image A) =
              (g.place? b).map fun placed => ⟨A.mul placed.matrix, placed.ramp⟩ := by
  intro A
  obtain ⟨b, found, -⟩ := Rect.exists_tight occupied
  have box : Path.bbox? ops = some b := found
  have moved : Path.bbox? (Path.transform A ops) = some (b.image A) := by
    have image : Path.bbox? (Path.transform A ops) = (Path.bbox? ops).map (Rect.image A) :=
      Path.bbox?_resize hx hy ops
    rwa [box] at image
  refine ⟨b, box, moved, Rect.region_image_resize hx hy b, ?_, ?_⟩
  · intro c units
    rw [box, moved]
    exact ClipPath.opsFor_image units b
  · intro g units
    exact Gradient.place?_image hx hy units b

/-- A slanted line whose box is stretched unevenly. -/
theorem box_units_follow_slanted :
    let line : List (PathOp ℝ) := [.moveTo ⟨1, 2⟩, .lineTo ⟨3, 7⟩]
    let A := (Matrix.translate 10 (-4)).mul (Matrix.scale 2 3)
    line.flatMap PathOp.points ≠ [] ∧ (0 : ℝ) < 2 ∧ (0 : ℝ) < 3 ∧
      Path.bbox? (Path.transform A line) = some ⟨12, 2, 4, 15⟩ := by
  intro line A
  have occupied : line.flatMap PathOp.points ≠ [] := by simp [line, PathOp.points]
  refine ⟨occupied, two_pos, three_pos, ?_⟩
  obtain ⟨b, found, moved, -⟩ := box_units_follow occupied two_pos three_pos 10 (-4)
  have tight : Rect.Tight ⟨1, 2, 2, 5⟩ (line.flatMap PathOp.points) := by
    constructor <;> simp [line, PathOp.points, Rect.mem_region] <;> norm_num
  have box := Rect.around?_eq_some_iff.mp found
  rw [box.unique tight] at moved
  rw [moved, ← resize, Rect.image_resize]
  norm_num

end SvgPage

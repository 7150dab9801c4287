import Mathlib
import SvgPage.Geometry.Shape
import SvgPage.Proofs.Geometry.Boxes
import SvgPage.Proofs.Geometry.Tracking

/-!
# Rectangles with rounded corners

The outline of a rectangle goes once around its box, along the sides and through the corners. A
corner is rounded by a curve from the one side to the other, whose control points are on the sides
too. So nothing of the outline is outside the box, and every side of the box is touched.
-/

namespace SvgPage

noncomputable def Point.toward (p q : Point ℝ) (t : ℝ) : Point ℝ :=
  ⟨(1 - t) * p.x + t * q.x, (1 - t) * p.y + t * q.y⟩

namespace PathOp

/-- Where an operation is at some share of its course from a point. A closing is not followed. -/
noncomputable def course (p : Point ℝ) (t : ℝ) : PathOp ℝ → Point ℝ
  | moveTo q => q
  | lineTo q => p.toward q t
  | curveTo c₁ c₂ q =>
    let cubic (a b c d : ℝ) : ℝ :=
      (1 - t) ^ 3 * a + 3 * (1 - t) ^ 2 * t * b + 3 * (1 - t) * t ^ 2 * c + t ^ 3 * d
    ⟨cubic p.x c₁.x c₂.x q.x, cubic p.y c₁.y c₂.y q.y⟩
  | close => p

def isCurve {α : Type} : PathOp α → Bool
  | curveTo .. => true
  | _ => false

end PathOp

namespace Rect

variable {b : Rect ℝ} {p q : Point ℝ} {t : ℝ}

theorem toward_mem_region (hp : p ∈ b.region) (hq : q ∈ b.region) (ht : t ∈ Set.Icc 0 1) :
    p.toward q t ∈ b.region := by
  have between {low high u v : ℝ} (hu : u ∈ Set.Icc low high) (hv : v ∈ Set.Icc low high) :
      (1 - t) * u + t * v ∈ Set.Icc low high :=
    convex_Icc low high hu hv (sub_nonneg.mpr ht.2) ht.1 (sub_add_cancel 1 t)
  exact ⟨between hp.1 hq.1, between hp.2 hq.2⟩

/-- A curve is found by going along its control points, along what that gives, and once more. -/
theorem course_curveTo (p c₁ c₂ q : Point ℝ) (t : ℝ) : (PathOp.curveTo c₁ c₂ q).course p t =
    ((p.toward c₁ t).toward (c₁.toward c₂ t) t).toward
      ((c₁.toward c₂ t).toward (c₂.toward q t) t) t := by
  simp only [PathOp.course, Point.toward, Point.mk.injEq]
  constructor <;> ring

theorem course_mem_region {op : PathOp ℝ} (start : p ∈ b.region)
    (named : ∀ q ∈ op.points, q ∈ b.region) (ht : t ∈ Set.Icc 0 1) :
    op.course p t ∈ b.region := by
  cases op with
  | moveTo q => exact named q List.mem_cons_self
  | lineTo q => exact toward_mem_region start (named q List.mem_cons_self) ht
  | curveTo c₁ c₂ q =>
    simp only [PathOp.points, List.forall_mem_cons] at named
    obtain ⟨first, second, last, -⟩ := named
    have middle := toward_mem_region first second ht
    rw [course_curveTo]
    apply toward_mem_region _ _ ht
    · exact toward_mem_region (toward_mem_region start first ht) middle ht
    · exact toward_mem_region middle (toward_mem_region second last ht) ht
  | close => exact start

end Rect

namespace Path

variable {α : Type}

/-- The operations after a point, each with the point that it starts from. -/
def stretches : Point α → List (PathOp α) → List (Point α × PathOp α)
  | _, [] => []
  | p, op :: ops => (p, op) :: stretches (op.target?.getD p) ops

/-- By induction on the operations: each starts where the one before it ends. -/
theorem stretches_mem_region {b : Rect ℝ} {ops : List (PathOp ℝ)} {p : Point ℝ}
    (start : p ∈ b.region) (named : ∀ q ∈ ops.flatMap PathOp.points, q ∈ b.region)
    {stretch : Point ℝ × PathOp ℝ} (member : stretch ∈ stretches p ops) {t : ℝ}
    (ht : t ∈ Set.Icc 0 1) : stretch.2.course stretch.1 t ∈ b.region := by
  induction ops generalizing p with
  | nil => cases member
  | cons op ops ih =>
    rw [List.flatMap_cons, List.forall_mem_append] at named
    obtain ⟨own, rest⟩ := named
    have next : op.target?.getD p ∈ b.region := by
      cases op with
      | close => exact start
      | moveTo | lineTo | curveTo => exact own _ (by simp [PathOp.points, PathOp.target?])
    obtain rfl | member := List.mem_cons.mp member
    · exact Rect.course_mem_region start own ht
    · exact ih next rest member

end Path

namespace Rect

/-- A line along an axis. -/
def IsSide (p : Point ℝ) (op : PathOp ℝ) : Prop := ∃ q, op = .lineTo q ∧ (p.x = q.x ∨ p.y = q.y)

/-- A curve between the two sides that meet in a corner, from one radius off the corner to the other
one off it. The control points are at the same share of the ways to the corner. -/
def IsCorner (b : Rect ℝ) (k rx ry : ℝ) (p : Point ℝ) (op : PathOp ℝ) : Prop :=
  ∃ corner ∈ b.corners, ∃ q, op = .curveTo (p.toward corner k) (q.toward corner k) q ∧
    (p.y = corner.y ∧ |corner.x - p.x| = rx ∧ q.x = corner.x ∧ |corner.y - q.y| = ry ∨
      p.x = corner.x ∧ |corner.y - p.y| = ry ∧ q.y = corner.y ∧ |corner.x - q.x| = rx)

/-- An outline that goes once around a box and fills it: one closed subpath, back to where it began,
along the axes and through corners with some radii. -/
structure FilledBy (b : Rect ℝ) (k rx ry : ℝ) (ops : List (PathOp ℝ)) : Prop where
  box : Path.bbox? ops = some b
  curves : ops.countP PathOp.isCurve = if 0 < rx ∧ 0 < ry then 4 else 0
  closed : ∃ start strokes, ops = .moveTo start :: strokes ++ [.close] ∧
    Path.StrokesTo start strokes ∧
      ∀ stretch ∈ Path.stretches start strokes,
        (IsSide stretch.1 stretch.2 ∨ b.IsCorner k rx ry stretch.1 stretch.2) ∧
          ∀ t ∈ Set.Icc (0 : ℝ) 1, stretch.2.course stretch.1 t ∈ b.region

theorem FilledBy.of_tight {b : Rect ℝ} {k rx ry : ℝ} (start : Point ℝ) (strokes : List (PathOp ℝ))
    (tight : b.Tight (start :: strokes.flatMap PathOp.points))
    (curves : strokes.countP PathOp.isCurve = if 0 < rx ∧ 0 < ry then 4 else 0)
    (back : Path.StrokesTo start strokes)
    (parts : ∀ stretch ∈ Path.stretches start strokes,
      IsSide stretch.1 stretch.2 ∨ b.IsCorner k rx ry stretch.1 stretch.2) :
    b.FilledBy k rx ry (.moveTo start :: strokes ++ [.close]) where
  box := by
    apply around?_eq_some_iff.mpr
    simpa [PathOp.points] using tight
  curves := by simpa [List.countP_cons, List.countP_append, PathOp.isCurve] using curves
  closed := by
    obtain ⟨first, rest⟩ := List.forall_mem_cons.mp tight.inside
    refine ⟨start, strokes, rfl, back, fun stretch member => ⟨parts stretch member, ?_⟩⟩
    intro t ht
    exact Path.stretches_mem_region first rest member ht

theorem isCorner_curveTo {b : Rect ℝ} {c : Point ℝ} (corner : c ∈ b.corners) {rx ry dx dy : ℝ}
    (hx : |dx| = rx) (hy : |dy| = ry) (k : ℝ) :
    b.IsCorner k rx ry ⟨c.x + dx, c.y⟩
      (.curveTo ⟨c.x + dx - dx * k, c.y⟩ ⟨c.x, c.y + dy - dy * k⟩ ⟨c.x, c.y + dy⟩) ∧
    b.IsCorner k rx ry ⟨c.x, c.y + dy⟩
      (.curveTo ⟨c.x, c.y + dy - dy * k⟩ ⟨c.x + dx - dx * k, c.y⟩ ⟨c.x + dx, c.y⟩) := by
  have across : (⟨c.x + dx, c.y⟩ : Point ℝ).toward c k = ⟨c.x + dx - dx * k, c.y⟩ := by
    simp only [Point.toward, Point.mk.injEq]
    constructor <;> ring
  have down : (⟨c.x, c.y + dy⟩ : Point ℝ).toward c k = ⟨c.x, c.y + dy - dy * k⟩ := by
    simp only [Point.toward, Point.mk.injEq]
    constructor <;> ring
  constructor
  · exact ⟨c, corner, ⟨c.x, c.y + dy⟩, by rw [across, down], .inl (by simp [hx, hy])⟩
  · exact ⟨c, corner, ⟨c.x + dx, c.y⟩, by rw [across, down], .inr (by simp [hx, hy])⟩

end Rect

namespace Shape

/-- The radius that counts at a side: its own one or else the other one, but between zero and half
the side. -/
noncomputable def effectiveRadius (side : ℝ) (own other : Option ℝ) : ℝ :=
  min (max ((own.or other).getD 0) 0) (side / 2)

theorem cornerRadius_pairRadii (w h : ℝ) (rx ry : Option ℝ) :
    cornerRadius w (pairRadii rx ry).1 = effectiveRadius w rx ry ∧
      cornerRadius h (pairRadii rx ry).2 = effectiveRadius h ry rx := by
  unfold cornerRadius effectiveRadius pairRadii
  simp only [Scalar.minimum_eq_min, Scalar.maximum_eq_max, Scalar.numeral_zero]
  cases rx with
  | none => cases ry <;> exact ⟨rfl, rfl⟩
  | some rx => cases ry <;> exact ⟨rfl, rfl⟩

section

variable {k w h : ℝ} (x y : ℝ)

theorem rectWith_eq (k w h : ℝ) (rx ry : Option ℝ) : rectWith k x y w h rx ry =
    if effectiveRadius w rx ry ≤ 0 ∨ effectiveRadius h ry rx ≤ 0 then sharpRect x y w h
    else roundRect k x y w h (effectiveRadius w rx ry) (effectiveRadius h ry rx) := by
  obtain ⟨across, down⟩ := cornerRadius_pairRadii w h rx ry
  simp only [rectWith, across, down, Scalar.numeral_zero]

theorem filledBy_sharpRect {rx ry : ℝ} (hw : 0 ≤ w) (hh : 0 ≤ h) (sharp : rx ≤ 0 ∨ ry ≤ 0) :
    Rect.FilledBy ⟨x, y, w, h⟩ k rx ry (sharpRect x y w h) := by
  have straight : ¬(0 < rx ∧ 0 < ry) := by rwa [not_and_or, not_lt, not_lt]
  apply Rect.FilledBy.of_tight ⟨x, y⟩ [.lineTo ⟨x + w, y⟩, .lineTo ⟨x + w, y + h⟩,
    .lineTo ⟨x, y + h⟩, .lineTo ⟨x, y⟩]
  case tight => constructor <;> simp [PathOp.points, Rect.mem_region, hw, hh]
  case curves =>
    rw [if_neg straight]
    rfl
  case back => exact ⟨List.cons_ne_nil _ _, by simp [PathOp.isStroke], rfl⟩
  case parts =>
    simp only [Path.stretches, PathOp.target?, Option.getD_some, List.forall_mem_cons]
    simp [Rect.IsSide]

section

variable {rx ry : ℝ} (share : k ∈ Set.Icc 0 1) (hrx : 0 < rx) (hry : 0 < ry) (narrow : rx ≤ w / 2)
  (low : ry ≤ h / 2)
include share hrx hry narrow low

theorem tight_roundRect :
    Rect.Tight ⟨x, y, w, h⟩ ((roundRect k x y w h rx ry).flatMap PathOp.points) := by
  have across : 0 ≤ rx * k ∧ rx * k ≤ rx :=
    ⟨mul_nonneg hrx.le share.1, mul_le_of_le_one_right hrx.le share.2⟩
  have down : 0 ≤ ry * k ∧ ry * k ≤ ry :=
    ⟨mul_nonneg hry.le share.1, mul_le_of_le_one_right hry.le share.2⟩
  constructor
  case inside =>
    simp only [roundRect, List.flatMap_cons, List.flatMap_nil, PathOp.points, List.cons_append,
      List.nil_append, List.append_nil, List.forall_mem_cons, List.not_mem_nil, false_implies,
      implies_true, and_true, Rect.mem_region]
    and_intros <;> linarith
  case left => exact ⟨⟨x, y + ry⟩, by simp [roundRect, PathOp.points], rfl⟩
  case right => exact ⟨⟨x + w, y + ry⟩, by simp [roundRect, PathOp.points], rfl⟩
  case top => exact ⟨⟨x + rx, y⟩, by simp [roundRect, PathOp.points], rfl⟩
  case bottom => exact ⟨⟨x + rx, y + h⟩, by simp [roundRect, PathOp.points], rfl⟩

theorem filledBy_roundRect :
    Rect.FilledBy ⟨x, y, w, h⟩ k rx ry (roundRect k x y w h rx ry) := by
  have left : |rx| = rx := abs_of_pos hrx
  have right : |-rx| = rx := (abs_neg rx).trans left
  have top : |ry| = ry := abs_of_pos hry
  have bottom : |-ry| = ry := (abs_neg ry).trans top
  have corner {c : Point ℝ} (member : c ∈ (⟨x, y, w, h⟩ : Rect ℝ).corners) {dx dy : ℝ}
      (hx : |dx| = rx) (hy : |dy| = ry) := Rect.isCorner_curveTo member hx hy k
  have topLeft := corner (c := ⟨x, y⟩) (by simp [Rect.corners]) left top
  have topRight := corner (c := ⟨x + w, y⟩) (by simp [Rect.corners]) right top
  have bottomLeft := corner (c := ⟨x, y + h⟩) (by simp [Rect.corners]) left bottom
  have bottomRight := corner (c := ⟨x + w, y + h⟩) (by simp [Rect.corners]) right bottom
  simp only [← sub_eq_add_neg, neg_mul, sub_neg_eq_add] at topLeft topRight bottomLeft bottomRight
  apply Rect.FilledBy.of_tight ⟨x + rx, y⟩ [_, _, _, _, _, _, _, _]
  case tight => exact tight_roundRect x y share hrx hry narrow low
  case curves =>
    rw [if_pos ⟨hrx, hry⟩]
    rfl
  case back => exact ⟨List.cons_ne_nil _ _, by simp [PathOp.isStroke], rfl⟩
  case parts =>
    simp only [Path.stretches, PathOp.target?, Option.getD_some, List.forall_mem_cons]
    exact ⟨.inl ⟨_, rfl, .inr rfl⟩, .inr topRight.1, .inl ⟨_, rfl, .inl rfl⟩, .inr bottomRight.2,
      .inl ⟨_, rfl, .inr rfl⟩, .inr bottomLeft.1, .inl ⟨_, rfl, .inl rfl⟩, .inr topLeft.2,
      List.forall_mem_nil _⟩

end

end

/-- A rectangle is filled by its outline, whatever radii are given for its corners. -/
theorem filledBy_rectWith {k w h : ℝ} (share : k ∈ Set.Icc 0 1) (hw : 0 ≤ w) (hh : 0 ≤ h) (x y : ℝ)
    (rx ry : Option ℝ) :
    Rect.FilledBy ⟨x, y, w, h⟩ k (effectiveRadius w rx ry) (effectiveRadius h ry rx)
      (rectWith k x y w h rx ry) := by
  rw [rectWith_eq]
  split_ifs with sharp
  · exact filledBy_sharpRect x y hw hh sharp
  · rw [not_or, not_le, not_le] at sharp
    exact filledBy_roundRect x y share sharp.1 sharp.2 (min_le_right _ _) (min_le_right _ _)

theorem kappa_mem_Icc : (kappa : ℝ) ∈ Set.Icc 0 1 := by
  have value : (kappa : ℝ) = 4 / 3 * (Real.sqrt 2 - 1) := by
    simp [kappa]
  have low : 1 ≤ Real.sqrt 2 := Real.one_le_sqrt.mpr one_le_two
  have high : Real.sqrt 2 ≤ 3 / 2 := Real.sqrt_le_iff.mpr (by norm_num)
  rw [value]
  constructor <;> linarith

/-- One radius for both sides, too large for the lower one, with the share for quarter circles. -/
theorem filledBy_rect_low :
    (kappa : ℝ) ∈ Set.Icc 0 1 ∧ (0 : ℝ) ≤ 10 ∧ (0 : ℝ) ≤ 6 ∧
      Rect.FilledBy ⟨1, 2, 10, 6⟩ kappa 4 3 (rect 1 2 10 6 (some 4) none) := by
  have hw : (0 : ℝ) ≤ 10 := by norm_num
  have hh : (0 : ℝ) ≤ 6 := by norm_num
  have across : effectiveRadius 10 (some 4) none = 4 := by norm_num [effectiveRadius]
  have down : effectiveRadius 6 none (some 4) = 3 := by norm_num [effectiveRadius]
  have filled := filledBy_rectWith kappa_mem_Icc hw hh 1 2 (some 4) none
  rw [across, down] at filled
  exact ⟨kappa_mem_Icc, hw, hh, filled⟩

end Shape

end SvgPage

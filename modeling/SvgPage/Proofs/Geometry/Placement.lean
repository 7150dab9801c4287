import Mathlib
import SvgPage.Geometry.Viewport
import SvgPage.Proofs.Geometry.Boxes

/-!
# Pictures in a viewport

A box is scaled evenly until it touches two opposite sides of the viewport, and stands in the middle
between the other two. So turning the viewport upside down leaves the box where it is and turns only
what is in it.
-/

namespace SvgPage

namespace Rect

noncomputable def ofSize (s : Size ℝ) : Rect ℝ := ⟨0, 0, s.width, s.height⟩

/-- A rectangle as large as its shape allows in a viewport, with equal margins on opposite sides. -/
structure Meets (r : Rect ℝ) (target : Size ℝ) : Prop where
  inside : r.region ⊆ (ofSize target).region
  touches : r.x = 0 ∧ r.x + r.width = target.width ∨ r.y = 0 ∧ r.y + r.height = target.height
  centred_across : r.x = target.width - (r.x + r.width)
  centred_down : r.y = target.height - (r.y + r.height)

noncomputable def meetScale (box : Rect ℝ) (target : Size ℝ) : ℝ :=
  min (target.width / box.width) (target.height / box.height)

/-- A box in the middle of a viewport, as large as it fits there. -/
noncomputable def fitted (box : Rect ℝ) (target : Size ℝ) : Rect ℝ :=
  let s := box.meetScale target
  ⟨(target.width - s * box.width) / 2, (target.height - s * box.height) / 2, s * box.width,
    s * box.height⟩

section

variable {box : Rect ℝ} {target : Size ℝ} (hw : 0 < box.width) (hh : 0 < box.height)
include hw hh

theorem meetScale_pos (wide : 0 < target.width) (high : 0 < target.height) :
    0 < box.meetScale target :=
  lt_min (div_pos wide hw) (div_pos high hh)

theorem meetScale_mul_le : box.meetScale target * box.width ≤ target.width ∧
    box.meetScale target * box.height ≤ target.height :=
  ⟨(le_div_iff₀ hw).mp (min_le_left _ _), (le_div_iff₀ hh).mp (min_le_right _ _)⟩

theorem meetScale_mul_eq : box.meetScale target * box.width = target.width ∨
    box.meetScale target * box.height = target.height := by
  unfold meetScale
  obtain least | least := min_choice (target.width / box.width) (target.height / box.height)
  · left
    rw [least, div_mul_cancel₀ _ hw.ne']
  · right
    rw [least, div_mul_cancel₀ _ hh.ne']

theorem meets_fitted : (box.fitted target).Meets target := by
  have fits : box.meetScale target * box.width ≤ target.width ∧
      box.meetScale target * box.height ≤ target.height := meetScale_mul_le hw hh
  obtain ⟨across, down⟩ := fits
  unfold fitted
  constructor
  case inside =>
    rintro p ⟨⟨left, right⟩, top, bottom⟩
    dsimp only at left right top bottom
    simp only [ofSize, mem_region, zero_add]
    refine ⟨⟨?_, ?_⟩, ?_, ?_⟩ <;> linarith
  case touches =>
    dsimp only
    have tight : box.meetScale target * box.width = target.width ∨
        box.meetScale target * box.height = target.height := meetScale_mul_eq hw hh
    refine tight.imp (fun whole => ?_) fun whole => ?_
    · constructor <;> linarith
    · constructor <;> linarith
  case centred_across =>
    dsimp only
    ring
  case centred_down =>
    dsimp only
    ring

theorem fitInto_eq : box.fitInto target =
    Matrix.resize ((target.width - box.width * box.meetScale target) / 2 -
        box.x * box.meetScale target)
      ((target.height - box.height * box.meetScale target) / 2 - box.y * box.meetScale target)
      (box.meetScale target) (box.meetScale target) := by
  unfold fitInto
  simp only [Scalar.numeral_zero, Scalar.numeral_one, Scalar.minimum_eq_min, mul_one_div]
  rw [if_pos ⟨hw, hh⟩]
  rfl

theorem fitInto_apply (p : Point ℝ) : (box.fitInto target).apply p =
    ⟨(box.fitted target).x + box.meetScale target * (p.x - box.x),
      (box.fitted target).y + box.meetScale target * (p.y - box.y)⟩ := by
  rw [fitInto_eq hw hh, Matrix.resize_apply]
  simp only [fitted, Point.mk.injEq]
  constructor <;> ring

theorem image_fitInto : box.image (box.fitInto target) = box.fitted target := by
  simp only [image, fitInto_apply hw hh, fitted, mk.injEq]
  refine ⟨?_, ?_, ?_, ?_⟩ <;> ring

theorem fitInto_image_region (wide : 0 < target.width) (high : 0 < target.height) :
    (box.fitInto target).apply '' box.region = (box.fitted target).region := by
  have positive := meetScale_pos hw hh wide high
  rw [← image_fitInto hw hh, fitInto_eq hw hh]
  exact (region_image_resize positive positive box).symm

end

end Rect

namespace Matrix

/-- The map that turns a viewport upside down. -/
noncomputable def upsideDown (target : Size ℝ) : Matrix ℝ := ⟨1, 0, 0, -1, 0, target.height⟩

@[simp]
theorem upsideDown_apply (target : Size ℝ) (p : Point ℝ) :
    (upsideDown target).apply p = ⟨p.x, target.height - p.y⟩ := by
  simp only [upsideDown, apply, Point.mk.injEq]
  constructor <;> ring

end Matrix

/-- What stands in the middle is where it was when the viewport is turned. -/
theorem Rect.Meets.upsideDown_image_region {r : Rect ℝ} {target : Size ℝ} (h : r.Meets target) :
    (Matrix.upsideDown target).apply '' r.region = r.region := by
  have middle := h.centred_down
  have stays {p : Point ℝ} (inside : p ∈ r.region) :
      (Matrix.upsideDown target).apply p ∈ r.region := by
    obtain ⟨across, top, bottom⟩ := inside
    rw [Matrix.upsideDown_apply]
    refine ⟨across, ?_, ?_⟩ <;> dsimp only <;> linarith
  apply Set.Subset.antisymm
  · rintro _ ⟨p, inside, rfl⟩
    exact stays inside
  · intro p inside
    exact ⟨_, stays inside, by simp⟩

namespace Options

/-- The box that is placed is the view box, whatever the size is, or else the size at the origin. -/
def Chooses (viewBox : Option (Rect ℝ)) (size : Option (Size ℝ)) (box : Rect ℝ) : Prop :=
  viewBox = some box ∨ viewBox = none ∧ size.map Rect.ofSize = some box

/-- A map takes a box onto a rectangle that meets the viewport, at one scale in both directions. -/
structure Places (o : Options ℝ) (target : Size ℝ) (box : Rect ℝ) (m : Matrix ℝ) (r : Rect ℝ)
    (s : ℝ) : Prop where
  onto : m.apply '' box.region = r.region
  meets : r.Meets target
  positive : 0 < s
  width : r.width = s * box.width
  height : r.height = s * box.height
  across (p q : Point ℝ) : (m.apply q).x - (m.apply p).x = s * (q.x - p.x)
  down (p q : Point ℝ) :
    (m.apply q).y - (m.apply p).y = (if o.flipY then -s else s) * (q.y - p.y)
  /-- Without turning, the edge of the least height goes to the edge of the least height. -/
  upright : o.flipY = false → ∀ p, p.y = box.y → (m.apply p).y = r.y

section

variable {o : Options ℝ} {target : Size ℝ} {viewBox : Option (Rect ℝ)} {size : Option (Size ℝ)}
  {box : Rect ℝ}

theorem placement_of_chooses (viewport : o.viewport = some target)
    (chosen : Chooses viewBox size box) : o.placement viewBox size =
      some (if o.flipY then (Matrix.upsideDown target).mul (box.fitInto target)
        else box.fitInto target) := by
  have turned : (⟨1, 0, 0, -1, 0, target.height⟩ : Matrix ℝ) = Matrix.upsideDown target := rfl
  have atOrigin : (fun s : Size ℝ => (⟨0, 0, s.width, s.height⟩ : Rect ℝ)) = Rect.ofSize := rfl
  unfold placement
  simp only [Scalar.numeral_zero, Scalar.numeral_one, turned, atOrigin, viewport, Option.map_some]
  obtain rfl | ⟨rfl, sized⟩ := chosen
  · rfl
  · rw [sized]
    rfl

section

variable (wide : 0 < target.width) (high : 0 < target.height) (hw : 0 < box.width)
  (hh : 0 < box.height)
include wide high hw hh

theorem places_fitInto (plain : o.flipY = false) :
    o.Places target box (box.fitInto target) (box.fitted target) (box.meetScale target) := by
  constructor
  case onto => exact Rect.fitInto_image_region hw hh wide high
  case meets => exact Rect.meets_fitted hw hh
  case positive => exact Rect.meetScale_pos hw hh wide high
  case width => rfl
  case height => rfl
  case across =>
    intro p q
    simp only [Rect.fitInto_apply hw hh]
    ring
  case down =>
    intro p q
    simp only [Rect.fitInto_apply hw hh, plain, Bool.false_eq_true, if_false]
    ring
  case upright =>
    intro _ p edge
    simp [Rect.fitInto_apply hw hh, edge]

theorem places_upsideDown (turned : o.flipY = true) :
    o.Places target box ((Matrix.upsideDown target).mul (box.fitInto target)) (box.fitted target)
      (box.meetScale target) := by
  have meets : (box.fitted target).Meets target := Rect.meets_fitted hw hh
  have twice : ((Matrix.upsideDown target).mul (box.fitInto target)).apply =
      (Matrix.upsideDown target).apply ∘ (box.fitInto target).apply := by
    funext p
    exact Matrix.mul_apply _ _ p
  constructor
  case onto =>
    rw [twice, Set.image_comp, Rect.fitInto_image_region hw hh wide high,
      meets.upsideDown_image_region]
  case meets => exact meets
  case positive => exact Rect.meetScale_pos hw hh wide high
  case width => rfl
  case height => rfl
  case across =>
    intro p q
    simp only [Matrix.mul_apply, Matrix.upsideDown_apply, Rect.fitInto_apply hw hh]
    ring
  case down =>
    intro p q
    simp only [Matrix.mul_apply, Matrix.upsideDown_apply, Rect.fitInto_apply hw hh, turned, if_true]
    ring
  case upright =>
    intro plain
    rw [turned] at plain
    cases plain

end

/-- In a viewport the box of a picture is mapped onto a rectangle that meets the viewport, at one
scale in both directions; what is turned is upside down to what is not. -/
theorem placement_meets (viewport : o.viewport = some target) (wide : 0 < target.width)
    (high : 0 < target.height) (chosen : Chooses viewBox size box) (hw : 0 < box.width)
    (hh : 0 < box.height) :
    ∃ m, o.placement viewBox size = some m ∧ (∃ r s, o.Places target box m r s) ∧
      (o.flipY = true → ∃ u, { o with flipY := false }.placement viewBox size = some u ∧
        ∀ p, m.apply p = ⟨(u.apply p).x, target.height - (u.apply p).y⟩) := by
  refine ⟨_, placement_of_chooses viewport chosen, ⟨box.fitted target, box.meetScale target, ?_⟩,
    ?_⟩
  · by_cases turned : o.flipY = true
    · rw [if_pos turned]
      exact places_upsideDown wide high hw hh turned
    · rw [if_neg turned]
      exact places_fitInto wide high hw hh (by simpa using turned)
  · intro turned
    have upright : ({ o with flipY := false } : Options ℝ).viewport = some target := viewport
    refine ⟨_, placement_of_chooses upright chosen, ?_⟩
    intro p
    simp [turned]

end

/-- A high box away from the origin, turned in a viewport that is not as high; the size is not
looked at. -/
theorem placement_meets_high :
    let o : Options ℝ := ⟨true, 16, some ⟨200, 100⟩, true⟩
    let box : Rect ℝ := ⟨-10, 5, 40, 80⟩
    o.viewport = some ⟨200, 100⟩ ∧ (0 : ℝ) < 200 ∧ (0 : ℝ) < 100 ∧
      Chooses (some box) (some ⟨7, 3⟩) box ∧ 0 < box.width ∧ 0 < box.height ∧
        ∃ m, o.placement (some box) (some ⟨7, 3⟩) = some m ∧
          ∃ r s, o.Places ⟨200, 100⟩ box m r s := by
  intro o box
  have viewport : o.viewport = some ⟨200, 100⟩ := rfl
  have wide : (0 : ℝ) < 200 := by norm_num
  have high : (0 : ℝ) < 100 := by norm_num
  have chosen : Chooses (some box) (some ⟨7, 3⟩) box := .inl rfl
  have hw : 0 < box.width := by norm_num [box]
  have hh : 0 < box.height := by norm_num [box]
  obtain ⟨m, placed, places, -⟩ := placement_meets viewport wide high chosen hw hh
  exact ⟨viewport, wide, high, chosen, hw, hh, m, placed, places⟩

end Options

end SvgPage

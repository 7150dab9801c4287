import Mathlib
import SvgPage.Proofs.Geometry.Affine

/-!
# Boxes around points

With exact numbers the box around some points is the one that holds them all and whose every side
is touched by one of them; no other box is so tight. An affine map takes the inside of a box into
whatever box holds the images of the corners.
-/

namespace SvgPage

namespace Rect

variable {ps : List (Point ℝ)} {b c : Rect ℝ}

def region (r : Rect ℝ) : Set (Point ℝ) :=
  {p | p.x ∈ Set.Icc r.x (r.x + r.width) ∧ p.y ∈ Set.Icc r.y (r.y + r.height)}

theorem mem_region {p : Point ℝ} :
    p ∈ b.region ↔ (b.x ≤ p.x ∧ p.x ≤ b.x + b.width) ∧ b.y ≤ p.y ∧ p.y ≤ b.y + b.height := Iff.rfl

structure Tight (b : Rect ℝ) (ps : List (Point ℝ)) : Prop where
  inside : ∀ p ∈ ps, p ∈ b.region
  left : ∃ p ∈ ps, p.x = b.x
  right : ∃ p ∈ ps, p.x = b.x + b.width
  top : ∃ p ∈ ps, p.y = b.y
  bottom : ∃ p ∈ ps, p.y = b.y + b.height

/-- Choosing between what has been chosen and the next value leads to a value that is extreme. -/
theorem foldl_extreme {r : ℝ → ℝ → Prop} [IsPreorder ℝ r] {choose : ℝ → ℝ → ℝ}
    (either : ∀ a b, choose a b = a ∨ choose a b = b) (left : ∀ a b, r (choose a b) a)
    (right : ∀ a b, r (choose a b) b) (f : Point ℝ → ℝ) (p : Point ℝ) (ps : List (Point ℝ)) :
    (∀ q ∈ p :: ps, r (ps.foldl (fun m q => choose m (f q)) (f p)) (f q)) ∧
      ∃ q ∈ p :: ps, f q = ps.foldl (fun m q => choose m (f q)) (f p) := by
  induction ps generalizing p with
  | nil => simpa using refl_of r (f p)
  | cons q ps ih =>
    rw [List.foldl_cons]
    obtain first | second := either (f p) (f q)
    · obtain ⟨extreme, s, member, attained⟩ := ih p
      rw [first]
      refine ⟨?_, s, by grind, attained⟩
      rintro s (_ | ⟨_, _ | ⟨_, member⟩⟩)
      · exact extreme p List.mem_cons_self
      · have low := right (f p) (f q)
        rw [first] at low
        exact trans_of r (extreme p List.mem_cons_self) low
      · exact extreme s (List.mem_cons_of_mem _ member)
    · obtain ⟨extreme, s, member, attained⟩ := ih q
      rw [second]
      refine ⟨?_, s, List.mem_cons_of_mem _ member, attained⟩
      rintro s (_ | ⟨_, member⟩)
      · have low := left (f p) (f q)
        rw [second] at low
        exact trans_of r (extreme q List.mem_cons_self) low
      · exact extreme s member

theorem foldl_minimum (f : Point ℝ → ℝ) (p : Point ℝ) (ps : List (Point ℝ)) :
    (∀ q ∈ p :: ps, ps.foldl (fun m q => Scalar.minimum m (f q)) (f p) ≤ f q) ∧
      ∃ q ∈ p :: ps, f q = ps.foldl (fun m q => Scalar.minimum m (f q)) (f p) := by
  simp only [Scalar.minimum_eq_min]
  exact foldl_extreme (r := (· ≤ ·)) min_choice min_le_left min_le_right f p ps

theorem foldl_maximum (f : Point ℝ → ℝ) (p : Point ℝ) (ps : List (Point ℝ)) :
    (∀ q ∈ p :: ps, f q ≤ ps.foldl (fun m q => Scalar.maximum m (f q)) (f p)) ∧
      ∃ q ∈ p :: ps, f q = ps.foldl (fun m q => Scalar.maximum m (f q)) (f p) := by
  simp only [Scalar.maximum_eq_max]
  exact foldl_extreme (r := (· ≥ ·)) max_choice le_max_left le_max_right f p ps

theorem exists_tight (nonempty : ps ≠ []) : ∃ b, around? ps = some b ∧ Tight b ps := by
  obtain ⟨p, ps, rfl⟩ := List.exists_cons_of_ne_nil nonempty
  obtain ⟨left, leftmost⟩ := foldl_minimum (·.x) p ps
  obtain ⟨top, topmost⟩ := foldl_minimum (·.y) p ps
  obtain ⟨right, rightmost⟩ := foldl_maximum (·.x) p ps
  obtain ⟨bottom, lowest⟩ := foldl_maximum (·.y) p ps
  refine ⟨_, rfl, ?_⟩
  constructor
  case inside =>
    intro q member
    simp only [mem_region, add_sub_cancel]
    exact ⟨⟨left q member, right q member⟩, top q member, bottom q member⟩
  case left => exact leftmost
  case top => exact topmost
  case right => simpa only [add_sub_cancel] using rightmost
  case bottom => simpa only [add_sub_cancel] using lowest

theorem Tight.nonempty (h : Tight b ps) : ps ≠ [] := by
  rintro rfl
  obtain ⟨p, member, -⟩ := h.left
  cases member

theorem Tight.unique (h : Tight b ps) (h' : Tight c ps) : b = c := by
  have sides {b c : Rect ℝ} (h : Tight b ps) (h' : Tight c ps) :
      b.x ≤ c.x ∧ c.x + c.width ≤ b.x + b.width ∧ b.y ≤ c.y ∧
        c.y + c.height ≤ b.y + b.height := by
    obtain ⟨p, leftmost, left⟩ := h'.left
    obtain ⟨q, rightmost, right⟩ := h'.right
    obtain ⟨r, topmost, top⟩ := h'.top
    obtain ⟨s, lowest, bottom⟩ := h'.bottom
    rw [← right, ← left, ← bottom, ← top]
    exact ⟨(h.inside p leftmost).1.1, (h.inside q rightmost).1.2, (h.inside r topmost).2.1,
      (h.inside s lowest).2.2⟩
  obtain ⟨left, right, top, bottom⟩ := sides h h'
  obtain ⟨left', right', top', bottom'⟩ := sides h' h
  rcases b with ⟨x, y, width, height⟩
  rcases c with ⟨x', y', width', height'⟩
  dsimp only at *
  rw [mk.injEq]
  refine ⟨?_, ?_, ?_, ?_⟩ <;> linarith

theorem around?_eq_some_iff : around? ps = some b ↔ Tight b ps := by
  constructor
  · intro h
    have nonempty : ps ≠ [] := by
      rintro rfl
      cases h
    obtain ⟨c, found, tight⟩ := exists_tight nonempty
    rw [h] at found
    cases found
    exact tight
  · intro h
    obtain ⟨c, found, tight⟩ := exists_tight h.nonempty
    rw [found, h.unique tight]

theorem around?_eq_none_iff : around? ps = none ↔ ps = [] := by
  constructor
  · intro h
    by_contra nonempty
    obtain ⟨b, found, -⟩ := exists_tight nonempty
    rw [h] at found
    cases found
  · rintro rfl
    rfl

/-- On a rectangle an affine function is largest at a corner. -/
theorem affine_le {u v w t x y x₀ x₁ y₀ y₁ : ℝ} (across : x ∈ Set.Icc x₀ x₁)
    (down : y ∈ Set.Icc y₀ y₁) (h₀₀ : u * x₀ + v * y₀ + w ≤ t) (h₁₀ : u * x₁ + v * y₀ + w ≤ t)
    (h₀₁ : u * x₀ + v * y₁ + w ≤ t) (h₁₁ : u * x₁ + v * y₁ + w ≤ t) : u * x + v * y + w ≤ t := by
  obtain ⟨left, right⟩ := across
  obtain ⟨top, bottom⟩ := down
  rcases le_total 0 u with hu | hu
  · have horizontal := mul_le_mul_of_nonneg_left right hu
    rcases le_total 0 v with hv | hv
    · linarith [mul_le_mul_of_nonneg_left bottom hv]
    · linarith [mul_le_mul_of_nonpos_left top hv]
  · have horizontal := mul_le_mul_of_nonpos_left left hu
    rcases le_total 0 v with hv | hv
    · linarith [mul_le_mul_of_nonneg_left bottom hv]
    · linarith [mul_le_mul_of_nonpos_left top hv]

theorem apply_mem_region {m : Matrix ℝ} {p : Point ℝ} (inside : p ∈ b.region)
    (corners : ∀ q ∈ b.corners, m.apply q ∈ c.region) : m.apply p ∈ c.region := by
  simp only [Rect.corners, List.forall_mem_cons, mem_region, Matrix.apply] at corners
  obtain ⟨⟨h₀₀, v₀₀⟩, ⟨h₁₀, v₁₀⟩, ⟨h₀₁, v₀₁⟩, ⟨h₁₁, v₁₁⟩, -⟩ := corners
  obtain ⟨across, down⟩ := inside
  have left := affine_le (u := -m.a) (v := -m.c) (w := -m.e) (t := -c.x) across down
    (by linarith [h₀₀.1]) (by linarith [h₁₀.1]) (by linarith [h₀₁.1]) (by linarith [h₁₁.1])
  have top := affine_le (u := -m.b) (v := -m.d) (w := -m.f) (t := -c.y) across down
    (by linarith [v₀₀.1]) (by linarith [v₁₀.1]) (by linarith [v₀₁.1]) (by linarith [v₁₁.1])
  have right := affine_le across down h₀₀.2 h₁₀.2 h₀₁.2 h₁₁.2
  have bottom := affine_le across down v₀₀.2 v₁₀.2 v₀₁.2 v₁₁.2
  refine ⟨⟨?_, right⟩, ?_, bottom⟩
  · change c.x ≤ m.a * p.x + m.c * p.y + m.e
    linarith
  · change c.y ≤ m.b * p.x + m.d * p.y + m.f
    linarith

noncomputable def image (m : Matrix ℝ) (r : Rect ℝ) : Rect ℝ :=
  let first := m.apply ⟨r.x, r.y⟩
  let last := m.apply ⟨r.x + r.width, r.y + r.height⟩
  ⟨first.x, first.y, last.x - first.x, last.y - first.y⟩

end Rect

namespace Matrix

/-- A scaling along the axes followed by a shift. -/
noncomputable def resize (tx ty sx sy : ℝ) : Matrix ℝ := (translate tx ty).mul (scale sx sy)

variable {tx ty sx sy : ℝ}

theorem resize_apply (p : Point ℝ) :
    (resize tx ty sx sy).apply p = ⟨sx * p.x + tx, sy * p.y + ty⟩ := by
  simp [resize]

end Matrix

namespace Rect

open SvgPage.Matrix (resize resize_apply)

variable {tx ty sx sy : ℝ} {b : Rect ℝ} {ps : List (Point ℝ)}

theorem image_resize (b : Rect ℝ) : b.image (resize tx ty sx sy) =
    ⟨sx * b.x + tx, sy * b.y + ty, sx * b.width, sy * b.height⟩ := by
  simp only [image, resize_apply, mk.injEq, true_and]
  constructor <;> ring

theorem region_image_resize (hx : 0 < sx) (hy : 0 < sy) (b : Rect ℝ) :
    (b.image (resize tx ty sx sy)).region = (resize tx ty sx sy).apply '' b.region := by
  ext p
  rw [image_resize, mem_region, Set.mem_image]
  dsimp only
  constructor
  · rintro ⟨⟨left, right⟩, top, bottom⟩
    refine ⟨⟨(p.x - tx) / sx, (p.y - ty) / sy⟩, ?_, ?_⟩
    · rw [mem_region]
      dsimp only
      rw [le_div_iff₀ hx, div_le_iff₀ hx, le_div_iff₀ hy, div_le_iff₀ hy]
      refine ⟨⟨?_, ?_⟩, ?_, ?_⟩ <;> linarith
    · rw [resize_apply]
      dsimp only
      rw [mul_div_cancel₀ _ hx.ne', mul_div_cancel₀ _ hy.ne', sub_add_cancel, sub_add_cancel]
  · rintro ⟨q, ⟨⟨left, right⟩, top, bottom⟩, rfl⟩
    have := mul_le_mul_of_nonneg_left left hx.le
    have := mul_le_mul_of_nonneg_left right hx.le
    have := mul_le_mul_of_nonneg_left top hy.le
    have := mul_le_mul_of_nonneg_left bottom hy.le
    rw [resize_apply]
    dsimp only
    refine ⟨⟨?_, ?_⟩, ?_, ?_⟩ <;> linarith

theorem Tight.resize (hx : 0 < sx) (hy : 0 < sy) (h : Tight b ps) :
    Tight (b.image (Matrix.resize tx ty sx sy)) (ps.map (Matrix.resize tx ty sx sy).apply) := by
  have touch {f g : Point ℝ → ℝ} {s t v w : ℝ} (side : ∃ p ∈ ps, f p = v)
      (moved : ∀ p, g ((Matrix.resize tx ty sx sy).apply p) = s * f p + t) (same : s * v + t = w) :
      ∃ q ∈ ps.map (Matrix.resize tx ty sx sy).apply, g q = w := by
    obtain ⟨p, member, touches⟩ := side
    refine ⟨_, List.mem_map_of_mem member, ?_⟩
    rw [moved, touches, same]
  constructor
  case inside =>
    rw [List.forall_mem_map, region_image_resize hx hy]
    intro p member
    exact Set.mem_image_of_mem _ (h.inside p member)
  all_goals rw [image_resize]
  case left => exact touch h.left (fun p => by rw [resize_apply]) rfl
  case right => exact touch h.right (fun p => by rw [resize_apply]) (by ring)
  case top => exact touch h.top (fun p => by rw [resize_apply]) rfl
  case bottom => exact touch h.bottom (fun p => by rw [resize_apply]) (by ring)

theorem resize_mul_ofUnitSquare (b : Rect ℝ) :
    (resize tx ty sx sy).mul b.ofUnitSquare = (b.image (resize tx ty sx sy)).ofUnitSquare := by
  rw [image_resize]
  simp [resize, ofUnitSquare, Matrix.mul, Matrix.translate, Matrix.scale]

end Rect

theorem Path.bbox?_resize {tx ty sx sy : ℝ} (hx : 0 < sx) (hy : 0 < sy) (ops : List (PathOp ℝ)) :
    bbox? (transform (.resize tx ty sx sy) ops) =
      (bbox? ops).map (Rect.image (.resize tx ty sx sy)) := by
  have moved : (transform (.resize tx ty sx sy) ops).flatMap PathOp.points =
      (ops.flatMap PathOp.points).map (Matrix.resize tx ty sx sy).apply := by
    simp [transform, List.flatMap_map, List.map_flatMap, PathOp.points_map]
  unfold bbox?
  rw [moved]
  cases found : Rect.around? (ops.flatMap PathOp.points) with
  | none =>
    rw [Rect.around?_eq_none_iff.mp found]
    rfl
  | some b =>
    have tight := Rect.around?_eq_some_iff.mp found
    exact Rect.around?_eq_some_iff.mpr (tight.resize hx hy)

end SvgPage

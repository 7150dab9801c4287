import Mathlib
import SvgPage.Proofs.Geometry.Turns

/-!
# Arcs in centre form

An arc is given by its end points. Its centre form is found in the frame of the ellipse, where half
the chord and the centre are at right angles. Scaled by the radii they become the legs of a right
triangle whose hypotenuse is a radius of the unit circle, and all that is said of the centre form
follows from that.
-/

namespace SvgPage.Arc

open Point

-- On the unit circle half the chord is (a, b), and the centre is k times that vector turned by a
-- quarter.
section

variable {a b k : ℝ}

/-- The end points, seen from the centre. -/
def ends (a b k : ℝ) : Point ℝ × Point ℝ := (⟨a - k * b, b + k * a⟩, ⟨-a - k * b, -b + k * a⟩)

theorem ends_onUnitCircle (right : (1 + k ^ 2) * (a ^ 2 + b ^ 2) = 1) :
    (ends a b k).1.OnUnitCircle ∧ (ends a b k).2.OnUnitCircle := by
  unfold OnUnitCircle ends
  dsimp only
  constructor
  · linear_combination right
  · linear_combination right

theorem cross_ends (a b k : ℝ) :
    cross (ends a b k).1 (ends a b k).2 = 2 * k * (a ^ 2 + b ^ 2) := by
  unfold cross ends
  ring

theorem dot_ends (a b k : ℝ) :
    dot (ends a b k).1 (ends a b k).2 = (k ^ 2 - 1) * (a ^ 2 + b ^ 2) := by
  unfold dot ends
  ring

end

namespace Endpoint

section

variable {rx ry : ℝ} {h : Point ℝ}

def denominator (rx ry : ℝ) (h : Point ℝ) : ℝ := rx * rx * (h.y * h.y) + ry * ry * (h.x * h.x)

theorem denominator_pos (hrx : 0 < rx) (hry : 0 < ry) (apart : h ≠ ⟨0, 0⟩) :
    0 < denominator rx ry h := by
  have nonzero : h.x ≠ 0 ∨ h.y ≠ 0 := by
    by_contra none
    push Not at none
    exact apart (Point.mk.injEq .. ▸ none)
  have squares : denominator rx ry h = (rx * h.y) ^ 2 + (ry * h.x) ^ 2 := by
    unfold denominator
    ring
  rw [squares]
  obtain hx | hy := nonzero <;> positivity

theorem reach_eq (rx ry : ℝ) (h : Point ℝ) : reach rx ry h = (h.x / rx) ^ 2 + (h.y / ry) ^ 2 := by
  rw [div_pow, div_pow, sq, sq, sq, sq]
  rfl

theorem reach_pos (hrx : 0 < rx) (hry : 0 < ry) (apart : h ≠ ⟨0, 0⟩) : 0 < reach rx ry h := by
  have same : reach rx ry h = denominator rx ry h / (rx * rx * (ry * ry)) := by
    unfold reach denominator
    field_simp
    ring
  rw [same]
  have positive := denominator_pos hrx hry apart
  positivity

theorem centreFactor_eq (large sweep : Bool) (hrx : 0 < rx) (hry : 0 < ry) (apart : h ≠ ⟨0, 0⟩) :
    centreFactor large sweep rx ry h = (if large = sweep then -1 else 1) *
      Real.sqrt (max ((1 - reach rx ry h) / reach rx ry h) 0) := by
  have positive := denominator_pos hrx hry apart
  have quotient : (rx * rx * (ry * ry) - rx * rx * (h.y * h.y) - ry * ry * (h.x * h.x)) /
      denominator rx ry h = (1 - reach rx ry h) / reach rx ry h := by
    have reachable := reach_pos hrx hry apart
    rw [div_eq_div_iff positive.ne' reachable.ne']
    unfold reach denominator
    field_simp
    ring
  rw [← quotient, ← Scalar.maximum_eq_max]
  unfold denominator at positive ⊢
  simp [centreFactor, positive.ne']

theorem right_triangle (large sweep : Bool) (hrx : 0 < rx) (hry : 0 < ry) (apart : h ≠ ⟨0, 0⟩)
    (reached : reach rx ry h ≤ 1) :
    (1 + centreFactor large sweep rx ry h ^ 2) * ((h.x / rx) ^ 2 + (h.y / ry) ^ 2) = 1 := by
  have positive := reach_pos hrx hry apart
  have left : 0 ≤ (1 - reach rx ry h) / reach rx ry h :=
    div_nonneg (sub_nonneg.mpr reached) positive.le
  have square : centreFactor large sweep rx ry h ^ 2 = (1 - reach rx ry h) / reach rx ry h := by
    rw [centreFactor_eq large sweep hrx hry apart, mul_pow, max_eq_left left, Real.sq_sqrt left]
    split_ifs <;> ring
  rw [square, ← reach_eq]
  field_simp
  ring

/-- The centre with a given factor, in the frame of the ellipse. -/
noncomputable def centreAt (k rx ry : ℝ) (h : Point ℝ) : Point ℝ :=
  ⟨k * (rx * h.y / ry), k * (-ry * h.x / rx)⟩

theorem ends_centreAt (hrx : 0 < rx) (hry : 0 < ry) (k : ℝ) :
    (⟨(h.x - (centreAt k rx ry h).x) / rx, (h.y - (centreAt k rx ry h).y) / ry⟩,
      ⟨(-h.x - (centreAt k rx ry h).x) / rx, (-h.y - (centreAt k rx ry h).y) / ry⟩) =
      ends (h.x / rx) (h.y / ry) k := by
  unfold centreAt ends
  simp only [Prod.mk.injEq, Point.mk.injEq]
  refine ⟨⟨?_, ?_⟩, ?_, ?_⟩ <;> field_simp <;> ring

end

/-- A point in a frame that is turned by an angle. -/
noncomputable def turned (phi : ℝ) (p : Point ℝ) : Point ℝ :=
  ⟨Real.cos phi * p.x + Real.sin phi * p.y, -Real.sin phi * p.x + Real.cos phi * p.y⟩

/-- A point lies on an ellipse with some centre, some radii and some turn. -/
def OnEllipse (centre : Point ℝ) (rx ry phi : ℝ) (p : Point ℝ) : Prop :=
  let q := turned phi ⟨p.x - centre.x, p.y - centre.y⟩
  (q.x / rx) ^ 2 + (q.y / ry) ^ 2 = 1

noncomputable def turn (arc : Endpoint ℝ) : ℝ := arc.rotation * (Real.pi / 180)

/-- An ellipse with some radii and the turn of the arc reaches both end points. -/
def Spans (arc : Endpoint ℝ) (rx ry : ℝ) : Prop :=
  ∃ centre, OnEllipse centre rx ry arc.turn arc.start ∧ OnEllipse centre rx ry arc.turn arc.stop

/-- A centre that is given in the frame of the ellipse, with the middle of the chord as origin. -/
noncomputable def turnedBack (arc : Endpoint ℝ) (c : Point ℝ) : Point ℝ :=
  ⟨Real.cos arc.turn * c.x - Real.sin arc.turn * c.y + (arc.start.x + arc.stop.x) / 2,
    Real.sin arc.turn * c.x + Real.cos arc.turn * c.y + (arc.start.y + arc.stop.y) / 2⟩

section

variable {arc : Endpoint ℝ} {rx ry : ℝ}

theorem halfChord_eq (arc : Endpoint ℝ) : arc.halfChord =
    turned arc.turn ⟨(arc.start.x - arc.stop.x) / 2, (arc.start.y - arc.stop.y) / 2⟩ := by
  simp [halfChord, turned, turn, Scalar.radians]

theorem turnedBack_halfChord (arc : Endpoint ℝ) : arc.turnedBack arc.halfChord = arc.start := by
  have unit := Real.sin_sq_add_cos_sq arc.turn
  rw [halfChord_eq]
  unfold turnedBack turned
  refine Point.mk.injEq .. ▸ ⟨?_, ?_⟩
  · linear_combination ((arc.start.x - arc.stop.x) / 2) * unit
  · linear_combination ((arc.start.y - arc.stop.y) / 2) * unit

theorem turnedBack_neg_halfChord (arc : Endpoint ℝ) :
    arc.turnedBack ⟨-arc.halfChord.x, -arc.halfChord.y⟩ = arc.stop := by
  have unit := Real.sin_sq_add_cos_sq arc.turn
  rw [halfChord_eq]
  unfold turnedBack turned
  refine Point.mk.injEq .. ▸ ⟨?_, ?_⟩
  · linear_combination (-(arc.start.x - arc.stop.x) / 2) * unit
  · linear_combination (-(arc.start.y - arc.stop.y) / 2) * unit

theorem halfChord_ne_zero (distinct : arc.start ≠ arc.stop) : arc.halfChord ≠ ⟨0, 0⟩ := by
  intro zero
  have start := turnedBack_halfChord arc
  have stop := turnedBack_neg_halfChord arc
  simp only [zero, neg_zero] at start stop
  exact distinct (start.symm.trans stop)

theorem turned_turnedBack (arc : Endpoint ℝ) (p c : Point ℝ) :
    turned arc.turn ⟨(arc.turnedBack p).x - (arc.turnedBack c).x,
      (arc.turnedBack p).y - (arc.turnedBack c).y⟩ = ⟨p.x - c.x, p.y - c.y⟩ := by
  have unit := Real.sin_sq_add_cos_sq arc.turn
  simp only [turned, turnedBack, Point.mk.injEq]
  constructor
  · linear_combination (p.x - c.x) * unit
  · linear_combination (p.y - c.y) * unit

theorem onEllipse_turnedBack (arc : Endpoint ℝ) {p c : Point ℝ} :
    OnEllipse (arc.turnedBack c) rx ry arc.turn (arc.turnedBack p) ↔
      ((p.x - c.x) / rx) ^ 2 + ((p.y - c.y) / ry) ^ 2 = 1 := by
  unfold OnEllipse
  rw [turned_turnedBack]

/-- Any centre whose factor makes a right triangle gives an ellipse through both end points. -/
theorem onEllipse_of_right_triangle (hrx : 0 < rx) (hry : 0 < ry) {k : ℝ}
    (right : (1 + k ^ 2) * ((arc.halfChord.x / rx) ^ 2 + (arc.halfChord.y / ry) ^ 2) = 1) :
    OnEllipse (arc.turnedBack (centreAt k rx ry arc.halfChord)) rx ry arc.turn arc.start ∧
      OnEllipse (arc.turnedBack (centreAt k rx ry arc.halfChord)) rx ry arc.turn arc.stop := by
  have same := ends_centreAt (h := arc.halfChord) hrx hry k
  obtain ⟨first, last⟩ := ends_onUnitCircle right
  rw [← same] at first last
  rw [← turnedBack_halfChord arc, ← turnedBack_neg_halfChord arc]
  exact ⟨(onEllipse_turnedBack arc).mpr first, (onEllipse_turnedBack arc).mpr last⟩

theorem spans_of_reach_le (hrx : 0 < rx) (hry : 0 < ry) (distinct : arc.start ≠ arc.stop)
    (reached : reach rx ry arc.halfChord ≤ 1) : arc.Spans rx ry :=
  ⟨_, onEllipse_of_right_triangle hrx hry
    (right_triangle arc.large arc.sweep hrx hry (halfChord_ne_zero distinct) reached)⟩

/-- The chord of an ellipse is no longer than the diameter in its direction. -/
theorem reach_le_of_spans (spans : arc.Spans rx ry) : reach rx ry arc.halfChord ≤ 1 := by
  obtain ⟨centre, first, last⟩ := spans
  unfold OnEllipse at first last
  dsimp only at first last
  generalize start : turned arc.turn ⟨arc.start.x - centre.x, arc.start.y - centre.y⟩ = p at first
  generalize stop : turned arc.turn ⟨arc.stop.x - centre.x, arc.stop.y - centre.y⟩ = q at last
  have half : arc.halfChord = ⟨(p.x - q.x) / 2, (p.y - q.y) / 2⟩ := by
    rw [← start, ← stop, halfChord_eq]
    simp only [turned, Point.mk.injEq]
    constructor <;> ring
  have x : (p.x - q.x) / 2 / rx = (p.x / rx - q.x / rx) / 2 := by ring
  have y : (p.y - q.y) / 2 / ry = (p.y / ry - q.y / ry) / 2 := by ring
  rw [half, reach_eq, x, y]
  nlinarith [sq_nonneg (p.x / rx + q.x / rx), sq_nonneg (p.y / ry + q.y / ry)]

theorem spans_iff (hrx : 0 < rx) (hry : 0 < ry) (distinct : arc.start ≠ arc.stop) :
    arc.Spans rx ry ↔ reach rx ry arc.halfChord ≤ 1 :=
  ⟨reach_le_of_spans, spans_of_reach_le hrx hry distinct⟩

end

noncomputable def enlargement (arc : Endpoint ℝ) : ℝ :=
  if 1 < reach |arc.rx| |arc.ry| arc.halfChord then
    Real.sqrt (reach |arc.rx| |arc.ry| arc.halfChord)
  else 1

section

variable {arc : Endpoint ℝ}

theorem radii_eq (arc : Endpoint ℝ) :
    arc.radii = (|arc.rx| * arc.enlargement, |arc.ry| * arc.enlargement) := by
  unfold enlargement
  by_cases enlarged : 1 < reach |arc.rx| |arc.ry| arc.halfChord
  · simp [radii, enlarged]
  · simp [radii, enlarged]

theorem reach_mul (rx ry t : ℝ) (h : Point ℝ) :
    reach (rx * t) (ry * t) h = reach rx ry h / t ^ 2 := by
  simp only [reach_eq, div_pow, mul_pow, add_div, div_div]

theorem enlargement_pos (arc : Endpoint ℝ) : 0 < arc.enlargement := by
  unfold enlargement
  split_ifs with enlarged
  · exact Real.sqrt_pos.mpr (one_pos.trans enlarged)
  · exact one_pos

theorem reach_radii_le (arc : Endpoint ℝ) :
    reach (|arc.rx| * arc.enlargement) (|arc.ry| * arc.enlargement) arc.halfChord ≤ 1 := by
  rw [reach_mul]
  unfold enlargement
  split_ifs with enlarged
  · have positive := one_pos.trans enlarged
    rw [Real.sq_sqrt positive.le, div_self positive.ne']
  · simpa using not_lt.mp enlarged

theorem isLeast_enlargement (hrx : arc.rx ≠ 0) (hry : arc.ry ≠ 0)
    (distinct : arc.start ≠ arc.stop) (short : ¬arc.Spans |arc.rx| |arc.ry|) :
    IsLeast {t | 0 < t ∧ arc.Spans (|arc.rx| * t) (|arc.ry| * t)} arc.enlargement := by
  have hrx := abs_pos.mpr hrx
  have hry := abs_pos.mpr hry
  have spans {t : ℝ} (positive : 0 < t) : arc.Spans (|arc.rx| * t) (|arc.ry| * t) ↔
      reach (|arc.rx| * t) (|arc.ry| * t) arc.halfChord ≤ 1 :=
    spans_iff (mul_pos hrx positive) (mul_pos hry positive) distinct
  rw [spans_iff hrx hry distinct, not_le] at short
  constructor
  · exact ⟨arc.enlargement_pos, (spans arc.enlargement_pos).mpr arc.reach_radii_le⟩
  · rintro t ⟨positive, spanned⟩
    rw [spans positive, reach_mul, div_le_one (by positivity)] at spanned
    unfold enlargement
    rw [if_pos short]
    exact (Real.sqrt_le_left positive.le).mpr spanned

theorem enlargement_eq_one (spans : arc.Spans |arc.rx| |arc.ry|) : arc.enlargement = 1 :=
  if_neg (reach_le_of_spans spans).not_gt

end

/-- The factor that leads from half the chord to the centre of the arc. -/
noncomputable def factor (arc : Endpoint ℝ) : ℝ :=
  centreFactor arc.large arc.sweep arc.radii.1 arc.radii.2 arc.halfChord

section

variable (arc : Endpoint ℝ)

theorem turnedCentre_eq :
    arc.turnedCentre = centreAt arc.factor arc.radii.1 arc.radii.2 arc.halfChord := rfl

theorem centre_eq : arc.toCentred.centre = arc.turnedBack arc.turnedCentre := by
  simp [toCentred, turnedBack, turn, Scalar.radians]

theorem start_eq : arc.toCentred.start = angleBetween ⟨1, 0⟩ arc.unitVectors.1 := by
  simp [toCentred]

theorem sweep_eq :
    arc.toCentred.sweep = sweepAngle arc.sweep arc.unitVectors.1 arc.unitVectors.2 := rfl

end

section

variable {arc : Endpoint ℝ} (hrx : arc.rx ≠ 0) (hry : arc.ry ≠ 0)
include hrx hry

theorem radii_pos : 0 < arc.radii.1 ∧ 0 < arc.radii.2 := by
  rw [radii_eq]
  have positive := arc.enlargement_pos
  exact ⟨mul_pos (abs_pos.mpr hrx) positive, mul_pos (abs_pos.mpr hry) positive⟩

/-- A point of the frame, scaled by the radii, is placed where turning back takes it. -/
theorem place_scaled (p : Point ℝ) :
    arc.toCentred.place ⟨(p.x - arc.turnedCentre.x) / arc.radii.1,
      (p.y - arc.turnedCentre.y) / arc.radii.2⟩ = arc.turnedBack p := by
  obtain ⟨hrx, hry⟩ := radii_pos hrx hry
  have x := mul_div_cancel₀ (p.x - arc.turnedCentre.x) hrx.ne'
  have y := mul_div_cancel₀ (p.y - arc.turnedCentre.y) hry.ne'
  have radii : arc.toCentred.rx = arc.radii.1 ∧ arc.toCentred.ry = arc.radii.2 := ⟨rfl, rfl⟩
  have angle : arc.toCentred.sinPhi = Real.sin arc.turn ∧
      arc.toCentred.cosPhi = Real.cos arc.turn := by
    simp [toCentred, turn, Scalar.radians]
  simp only [Centred.place, centre_eq, radii, angle, x, y, turnedBack, Point.mk.injEq]
  constructor <;> ring

theorem unitVectors_eq : arc.unitVectors =
    ends (arc.halfChord.x / arc.radii.1) (arc.halfChord.y / arc.radii.2) arc.factor := by
  obtain ⟨hrx, hry⟩ := radii_pos hrx hry
  rw [← ends_centreAt hrx hry, ← turnedCentre_eq]
  rfl

theorem place_unitVectors : arc.toCentred.place arc.unitVectors.1 = arc.start ∧
    arc.toCentred.place arc.unitVectors.2 = arc.stop := by
  rw [← turnedBack_halfChord arc, ← turnedBack_neg_halfChord arc, ← place_scaled hrx hry,
    ← place_scaled hrx hry]
  exact ⟨rfl, rfl⟩

variable (distinct : arc.start ≠ arc.stop)
include distinct

theorem factor_right_triangle : (1 + arc.factor ^ 2) *
    ((arc.halfChord.x / arc.radii.1) ^ 2 + (arc.halfChord.y / arc.radii.2) ^ 2) = 1 := by
  obtain ⟨hrx, hry⟩ := radii_pos hrx hry
  have reached := arc.reach_radii_le
  apply right_triangle arc.large arc.sweep hrx hry (halfChord_ne_zero distinct)
  rwa [radii_eq]

theorem unitVectors_onUnitCircle :
    arc.unitVectors.1.OnUnitCircle ∧ arc.unitVectors.2.OnUnitCircle := by
  rw [unitVectors_eq hrx hry]
  exact ends_onUnitCircle (factor_right_triangle hrx hry distinct)

theorem halfChord_scaled_pos :
    0 < (arc.halfChord.x / arc.radii.1) ^ 2 + (arc.halfChord.y / arc.radii.2) ^ 2 := by
  obtain ⟨hrx, hry⟩ := radii_pos hrx hry
  rw [← reach_eq]
  exact reach_pos hrx hry (halfChord_ne_zero distinct)

theorem cross_eq_zero_iff : cross arc.unitVectors.1 arc.unitVectors.2 = 0 ↔ arc.factor = 0 := by
  have positive := halfChord_scaled_pos hrx hry distinct
  rw [unitVectors_eq hrx hry, cross_ends]
  simp [positive.ne']

theorem cross_pos_iff (bent : cross arc.unitVectors.1 arc.unitVectors.2 ≠ 0) :
    0 < cross arc.unitVectors.1 arc.unitVectors.2 ↔ arc.large ≠ arc.sweep := by
  have positive := halfChord_scaled_pos hrx hry distinct
  have nonzero := (cross_eq_zero_iff hrx hry distinct).not.mp bent
  have sign : 0 < cross arc.unitVectors.1 arc.unitVectors.2 ↔ 0 < arc.factor := by
    rw [unitVectors_eq hrx hry, cross_ends, mul_pos_iff_of_pos_right positive,
      mul_pos_iff_of_pos_left two_pos]
  rw [sign]
  obtain ⟨hrx, hry⟩ := radii_pos hrx hry
  have formula := centreFactor_eq arc.large arc.sweep hrx hry (halfChord_ne_zero distinct)
  change arc.factor = _ at formula
  rw [formula] at nonzero ⊢
  have root := (Real.sqrt_nonneg _).lt_of_ne' (right_ne_zero_of_mul nonzero)
  rw [mul_pos_iff_of_pos_right root]
  by_cases same : arc.large = arc.sweep
  · simp [same]
  · simp [same]

theorem angleBetween_ne_zero : angleBetween arc.unitVectors.1 arc.unitVectors.2 ≠ 0 := by
  have positive := halfChord_scaled_pos hrx hry distinct
  intro zero
  obtain ⟨ahead, flat⟩ := angleBetween_eq_zero_iff.mp zero
  rw [cross_eq_zero_iff hrx hry distinct] at flat
  rw [unitVectors_eq hrx hry, dot_ends, flat] at ahead
  linarith

theorem angleBetween_eq_pi_iff_cross :
    angleBetween arc.unitVectors.1 arc.unitVectors.2 = Real.pi ↔
      cross arc.unitVectors.1 arc.unitVectors.2 = 0 := by
  have positive := halfChord_scaled_pos hrx hry distinct
  rw [angleBetween_eq_pi_iff]
  refine and_iff_right_of_imp fun flat => ?_
  rw [cross_eq_zero_iff hrx hry distinct] at flat
  rw [unitVectors_eq hrx hry, dot_ends, flat]
  linarith

end

/-- What makes the centre form of an arc right. -/
structure CentreForm (arc : Endpoint ℝ) : Prop where
  denominator_ne_zero : denominator arc.radii.1 arc.radii.2 arc.halfChord ≠ 0
  start_on_ellipse : OnEllipse arc.toCentred.centre arc.radii.1 arc.radii.2 arc.turn arc.start
  stop_on_ellipse : OnEllipse arc.toCentred.centre arc.radii.1 arc.radii.2 arc.turn arc.stop
  start_on_unit : ((arc.halfChord.x - arc.turnedCentre.x) / arc.radii.1) ^ 2 +
    ((arc.halfChord.y - arc.turnedCentre.y) / arc.radii.2) ^ 2 = 1
  stop_on_unit : ((-arc.halfChord.x - arc.turnedCentre.x) / arc.radii.1) ^ 2 +
    ((-arc.halfChord.y - arc.turnedCentre.y) / arc.radii.2) ^ 2 = 1
  start_placed : arc.toCentred.place arc.unitVectors.1 = arc.start
  stop_placed : arc.toCentred.place arc.unitVectors.2 = arc.stop
  /-- Radii that suffice are kept, others are enlarged by the least factor that suffices. -/
  enlarged : ∃ s, arc.radii = (|arc.rx| * s, |arc.ry| * s) ∧
    (arc.Spans |arc.rx| |arc.ry| → s = 1) ∧
      (¬arc.Spans |arc.rx| |arc.ry| →
        IsLeast {t | 0 < t ∧ arc.Spans (|arc.rx| * t) (|arc.ry| * t)} s)
  cross_sign : cross arc.unitVectors.1 arc.unitVectors.2 ≠ 0 →
    (0 < cross arc.unitVectors.1 arc.unitVectors.2 ↔ arc.large ≠ arc.sweep) ∧
      (cross arc.unitVectors.1 arc.unitVectors.2 < 0 ↔ arc.large = arc.sweep)
  opposite : cross arc.unitVectors.1 arc.unitVectors.2 = 0 →
    arc.unitVectors.2 = ⟨-arc.unitVectors.1.x, -arc.unitVectors.1.y⟩
  starts : arc.toCentred.place ⟨Real.cos arc.toCentred.start, Real.sin arc.toCentred.start⟩ =
    arc.start
  stops : arc.toCentred.place ⟨Real.cos (arc.toCentred.start + arc.toCentred.sweep),
    Real.sin (arc.toCentred.start + arc.toCentred.sweep)⟩ = arc.stop
  direction : if arc.sweep then 0 < arc.toCentred.sweep else arc.toCentred.sweep < 0
  extent : cross arc.unitVectors.1 arc.unitVectors.2 ≠ 0 →
    (|arc.toCentred.sweep| ≤ Real.pi ↔ arc.large = false)
  half_turn : |arc.toCentred.sweep| = Real.pi ↔ cross arc.unitVectors.1 arc.unitVectors.2 = 0

/-- With nonzero radii and distinct end points the centre form is right. -/
theorem centreForm {arc : Endpoint ℝ} (hrx : arc.rx ≠ 0) (hry : arc.ry ≠ 0)
    (distinct : arc.start ≠ arc.stop) : CentreForm arc := by
  obtain ⟨first, last⟩ := unitVectors_onUnitCircle hrx hry distinct
  obtain ⟨startPlaced, stopPlaced⟩ := place_unitVectors hrx hry
  obtain ⟨rxPos, ryPos⟩ := radii_pos hrx hry
  obtain ⟨startOn, stopOn⟩ :=
    onEllipse_of_right_triangle rxPos ryPos (factor_right_triangle hrx hry distinct)
  rw [← turnedCentre_eq, ← centre_eq] at startOn stopOn
  have apart := angleBetween_ne_zero hrx hry distinct
  have half := angleBetween_eq_pi_iff_cross hrx hry distinct
  have sign := cross_pos_iff hrx hry distinct
  constructor
  case denominator_ne_zero =>
    have positive := denominator_pos rxPos ryPos (halfChord_ne_zero distinct)
    exact positive.ne'
  case start_on_ellipse => exact startOn
  case stop_on_ellipse => exact stopOn
  case start_on_unit => exact first
  case stop_on_unit => exact last
  case start_placed => exact startPlaced
  case stop_placed => exact stopPlaced
  case enlarged =>
    exact ⟨arc.enlargement, radii_eq arc, enlargement_eq_one, isLeast_enlargement hrx hry distinct⟩
  case cross_sign =>
    intro bent
    refine ⟨sign bent, ?_⟩
    rw [← not_le, bent.symm.le_iff_lt, sign bent, not_not]
  case opposite =>
    intro flat
    rw [cross_eq_zero_iff hrx hry distinct] at flat
    rw [unitVectors_eq hrx hry, flat]
    simp [ends]
  case starts => rw [start_eq, point_of_angle first, startPlaced]
  case stops => rw [start_eq, sweep_eq, point_of_turn arc.sweep first last, stopPlaced]
  case direction =>
    rw [sweep_eq]
    cases arc.sweep with
    | true => exact sweepAngle_true_pos apart
    | false => exact sweepAngle_false_neg apart
  case extent =>
    intro bent
    rw [sweep_eq, abs_sweepAngle_le_pi_iff arc.sweep apart (half.not.mpr bent),
      angleBetween_pos_iff bent, sign bent]
    cases arc.large <;> cases arc.sweep <;> simp
  case half_turn => rw [sweep_eq, abs_sweepAngle_eq_pi_iff arc.sweep apart, half]

/-- A large arc whose radii, one of them negative, are too small for its chord. -/
theorem centreForm_short :
    let arc : Endpoint ℝ := ⟨⟨0, 0⟩, -1, 1, 30, true, false, ⟨4, 0⟩⟩
    arc.rx ≠ 0 ∧ arc.ry ≠ 0 ∧ arc.start ≠ arc.stop ∧ CentreForm arc := by
  intro arc
  have hrx : arc.rx ≠ 0 := by norm_num [arc]
  have hry : arc.ry ≠ 0 := by norm_num [arc]
  have distinct : arc.start ≠ arc.stop := by norm_num [arc]
  exact ⟨hrx, hry, distinct, centreForm hrx hry distinct⟩

end Endpoint

end SvgPage.Arc

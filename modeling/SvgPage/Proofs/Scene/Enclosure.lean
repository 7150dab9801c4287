import Mathlib
import SvgPage.Scene.Node
import SvgPage.Proofs.Geometry.Boxes

/-!
# Boxes of groups

The box of a group is found from the corners of its children's boxes only. It still holds every
point that is drawn below the group, at any depth and through any maps, and only a group below
which nothing is drawn has no box.
-/

namespace SvgPage.Node

/-- The nodes on a way down from a node, the last of which is reached. -/
inductive Reaches {α : Type} : Node α → List (Node α) → Node α → Prop
  | child {paint base children n} : n ∈ children → Reaches (group paint base children) [n] n
  | deeper {paint base children n ns m} : n ∈ children → Reaches n ns m →
      Reaches (group paint base children) (n :: ns) m

/-- The product of the maps on a way down. -/
noncomputable def placement (ns : List (Node ℝ)) : Matrix ℝ :=
  Matrix.compose (ns.map fun n => Matrix.compose n.base.transform)

/-- What a node draws itself: the points that its outline names, or the corners of an image. -/
noncomputable def drawnPoints : Node ℝ → List (Point ℝ)
  | shape s => s.ops.flatMap PathOp.points
  | image i => i.box.corners
  | text _ _ => []
  | group _ _ _ => []

section

variable {n g : Node ℝ} {ns children : List (Node ℝ)} {paint : PaintStyle ℝ} {base : Base ℝ}
  {b : Rect ℝ} {p : Point ℝ}

theorem placement_cons_apply :
    (placement (n :: ns)).apply p =
      (Matrix.compose n.base.transform).apply ((placement ns).apply p) := by
  simp [placement]

theorem mem_corners_iff : p ∈ corners children ↔ ∃ n ∈ children, ∃ b, n.bbox? = some b ∧
    ∃ q ∈ b.corners, (Matrix.compose n.base.transform).apply q = p := by
  induction children with
  | nil => simp [corners]
  | cons n ns ih =>
    unfold corners
    cases found : n.bbox? with
    | none => simp [found, ih]
    | some b => simp [found, ih]

theorem tight_of_bbox? (h : (group paint base children).bbox? = some b) :
    Rect.Tight b (corners children) := by
  unfold bbox? at h
  exact Rect.around?_eq_some_iff.mp h

theorem bbox?_group_eq_none_iff :
    (group paint base children).bbox? = none ↔ corners children = [] := by
  unfold bbox?
  exact Rect.around?_eq_none_iff

/-- A group with a child that has a box has one itself, with the corners of the child's in it. -/
theorem exists_group_box (member : n ∈ children) (found : n.bbox? = some b) :
    ∃ c, (group paint base children).bbox? = some c ∧
      ∀ q ∈ b.corners, (Matrix.compose n.base.transform).apply q ∈ c.region := by
  have inside {q : Point ℝ} (corner : q ∈ b.corners) :
      (Matrix.compose n.base.transform).apply q ∈ corners children :=
    mem_corners_iff.mpr ⟨n, member, b, found, q, corner, rfl⟩
  cases box : (group paint base children).bbox? with
  | none =>
    have corner : (⟨b.x, b.y⟩ : Point ℝ) ∈ b.corners := List.mem_cons_self
    have occupied := inside corner
    rw [bbox?_group_eq_none_iff.mp box] at occupied
    cases occupied
  | some c =>
    refine ⟨c, rfl, ?_⟩
    intro q corner
    exact (tight_of_bbox? box).inside _ (inside corner)

/-- By induction on the way down: each box on it takes the next one in. -/
theorem exists_box_of_reaches (reaches : Reaches g ns n) (drawn : p ∈ n.drawnPoints) :
    ∃ b, g.bbox? = some b ∧ (placement ns).apply p ∈ b.region := by
  induction reaches with
  | @child paint base children n member =>
    cases n with
    | shape s =>
      obtain ⟨b, found, tight⟩ := Rect.exists_tight (List.ne_nil_of_mem drawn)
      have found : (shape s).bbox? = some b := by
        unfold bbox?
        exact found
      obtain ⟨c, box, held⟩ := exists_group_box member found
      refine ⟨c, box, ?_⟩
      rw [placement_cons_apply]
      apply Rect.apply_mem_region _ held
      simpa [placement] using tight.inside p drawn
    | image i =>
      have found : (image i).bbox? = some i.box := by
        unfold bbox?
        rfl
      obtain ⟨c, box, held⟩ := exists_group_box member found
      refine ⟨c, box, ?_⟩
      rw [placement_cons_apply]
      simpa [placement] using held p drawn
    | text style items => cases drawn
    | group paint base children => cases drawn
  | deeper member _ ih =>
    obtain ⟨b, found, inside⟩ := ih drawn
    obtain ⟨c, box, held⟩ := exists_group_box member found
    refine ⟨c, box, ?_⟩
    rw [placement_cons_apply]
    exact Rect.apply_mem_region inside held

end

/-- A node that draws something itself or has such a node below it. -/
def Draws (n : Node ℝ) : Prop :=
  n.drawnPoints ≠ [] ∨ ∃ ns m, Reaches n ns m ∧ m.drawnPoints ≠ []

theorem exists_reaches_of_child {n : Node ℝ} {children : List (Node ℝ)} (member : n ∈ children)
    (draws : n.Draws) (paint : PaintStyle ℝ) (base : Base ℝ) :
    ∃ ns m, Reaches (group paint base children) ns m ∧ m.drawnPoints ≠ [] := by
  obtain drawn | ⟨ns, m, reaches, drawn⟩ := draws
  · exact ⟨[n], n, .child member, drawn⟩
  · exact ⟨n :: ns, m, .deeper member reaches, drawn⟩

mutual

theorem draws_of_bbox? (n : Node ℝ) (found : n.bbox? ≠ none) : n.Draws := by
  cases n with
  | shape s =>
    left
    intro empty
    apply found
    unfold bbox?
    exact Rect.around?_eq_none_iff.mpr empty
  | image i =>
    left
    exact List.cons_ne_nil _ _
  | text style items =>
    unfold bbox? at found
    exact absurd rfl found
  | group paint base children =>
    have occupied : corners children ≠ [] := fun empty => found (bbox?_group_eq_none_iff.mpr empty)
    obtain ⟨n, member, draws⟩ := draws_of_corners children occupied
    right
    exact exists_reaches_of_child member draws paint base

theorem draws_of_corners (children : List (Node ℝ)) (occupied : corners children ≠ []) :
    ∃ n ∈ children, n.Draws := by
  cases children with
  | nil =>
    unfold corners at occupied
    exact absurd rfl occupied
  | cons n ns =>
    by_cases found : n.bbox? = none
    · have rest : corners ns ≠ [] := by
        unfold corners at occupied
        rwa [found] at occupied
      obtain ⟨m, member, draws⟩ := draws_of_corners ns rest
      exact ⟨m, List.mem_cons_of_mem n member, draws⟩
    · exact ⟨n, List.mem_cons_self, draws_of_bbox? n found⟩

end

theorem drawnPoints_eq_nil_iff {n : Node ℝ} : n.drawnPoints = [] ↔
    (∀ i, n ≠ .image i) ∧ ∀ s, n = .shape s → s.ops.flatMap PathOp.points = [] := by
  cases n with
  | shape s => simp [drawnPoints]
  | image i => simp [drawnPoints, Rect.corners]
  | text style items => simp [drawnPoints]
  | group paint base children => simp [drawnPoints]

/-- Whatever is drawn below a group lies in the group's box, and a group has no box exactly if no
image and no shape with a point is below it. -/
theorem group_box_encloses (paint : PaintStyle ℝ) (base : Base ℝ) (children : List (Node ℝ)) :
    (∀ {ns n p}, Reaches (group paint base children) ns n → p ∈ n.drawnPoints →
      ∃ b, (group paint base children).bbox? = some b ∧ (placement ns).apply p ∈ b.region) ∧
    ((group paint base children).bbox? = none ↔
      ∀ {ns n}, Reaches (group paint base children) ns n →
        (∀ i, n ≠ .image i) ∧ ∀ s, n = .shape s → s.ops.flatMap PathOp.points = []) := by
  refine ⟨exists_box_of_reaches, ?_, ?_⟩
  · intro none ns n reaches
    apply drawnPoints_eq_nil_iff.mp
    by_contra drawn
    obtain ⟨p, member⟩ := List.exists_mem_of_ne_nil _ drawn
    obtain ⟨b, found, -⟩ := exists_box_of_reaches reaches member
    rw [none] at found
    cases found
  · intro bare
    by_contra found
    obtain drawn | ⟨ns, m, reaches, drawn⟩ := draws_of_bbox? _ found
    · exact drawn rfl
    · exact drawn (drawnPoints_eq_nil_iff.mpr (bare reaches))

/-- A line that a group below flattens and reflects. -/
theorem group_box_encloses_flattened :
    let line : Node ℝ := .shape ⟨[.moveTo ⟨1, 2⟩, .lineTo ⟨3, 4⟩], .initial, .plain⟩
    let flat : Node ℝ := .group .initial { Base.plain with transform := [.scale (-1) 0] } [line]
    Reaches (.group .initial .plain [flat]) [flat, line] line ∧ ⟨3, 4⟩ ∈ line.drawnPoints ∧
      ∃ b, (group .initial .plain [flat]).bbox? = some b ∧ ⟨-3, 0⟩ ∈ b.region := by
  intro line flat
  have reaches : Reaches (.group .initial .plain [flat]) [flat, line] line :=
    .deeper List.mem_cons_self (.child List.mem_cons_self)
  have drawn : ⟨3, 4⟩ ∈ line.drawnPoints := by simp [line, drawnPoints, PathOp.points]
  refine ⟨reaches, drawn, ?_⟩
  have enclosed := (group_box_encloses .initial .plain [flat]).1 reaches drawn
  simpa [placement, line, flat, Node.base, Base.plain] using enclosed

end SvgPage.Node

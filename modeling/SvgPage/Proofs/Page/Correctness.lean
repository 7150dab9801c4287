import SvgPage.Proofs.Page.Simulation

/-!
# Compiled scenes on the machine

The marks of a compiled scene are those of its paintings, in the order of the document. Each is made
in the transforms and cuts on the way from the root to its leaf, over those of the initial state.
-/

namespace SvgPage

open Machine

namespace Machine

/-- The cuts along some scopes, each in the transforms up to its own scope. -/
def cutsAlong (space : List (Matrix Float)) : List Scope → List Cut
  | [] => []
  | f :: fs =>
    let inner := space ++ f.transform
    (f.clip.map fun c => ⟨c.ops, c.rule, inner⟩).toList ++ cutsAlong inner fs

theorem State.space_enter (s : State) (f : Scope) :
    (s.enter f).space = s.space ++ f.transform := by
  obtain ⟨transform, clip, graphics, settings⟩ := f
  cases clip <;> rfl

theorem State.cuts_enter (s : State) (f : Scope) :
    (s.enter f).cuts =
      s.cuts ++ (f.clip.map fun c => ⟨c.ops, c.rule, s.space ++ f.transform⟩).toList := by
  obtain ⟨transform, clip, graphics, settings⟩ := f
  cases clip with
  | none => exact (List.append_nil _).symm
  | some c => rfl

theorem State.space_foldl_enter (fs : List Scope) (s : State) :
    (fs.foldl enter s).space = s.space ++ fs.flatMap Scope.transform := by
  induction fs generalizing s with
  | nil => simp
  | cons f fs ih => simp [ih, space_enter]

theorem State.cuts_foldl_enter (fs : List Scope) (s : State) :
    (fs.foldl enter s).cuts = s.cuts ++ cutsAlong s.space fs := by
  induction fs generalizing s with
  | nil => simp [cutsAlong]
  | cons f fs ih => simp [ih, space_enter, cuts_enter, cutsAlong]

/-- A mark that is made for a painting by a machine that started from a state. -/
structure Mark.Realizes (s : State) (m : Mark) (p : Painting) : Prop where
  act : m.act.Like p.act
  space : m.state.space = s.space ++ p.lineage.flatMap Scope.transform
  cuts : m.state.cuts = s.cuts ++ cutsAlong s.space p.lineage
  /-- The other parameters are those that the scopes set one after another. -/
  state : m.state.Like (p.lineage.foldl State.enter s)

theorem Mark.Like.realizes {s : State} {m : Mark} {p : Painting} (h : m.Like (p.mark s)) :
    m.Realizes s p where
  act := h.act
  space := by rw [h.state.space, Painting.mark, State.space_foldl_enter]
  cuts := by rw [h.state.cuts, Painting.mark, State.cuts_foldl_enter]
  state := h.state

end Machine

namespace Node

/-- A compiled node on the machine, with the resources it leaves behind after those that some
requests have left before. -/
def runFrom (n : Node Float) (requests : List Resources.Request) (s : State)
    (saved : List State) : Option Config :=
  let compiled := n.compile (Resources.after requests)
  run compiled.2 (.idle s saved []) compiled.1

theorem exists_marks (n : Node Float) (requests : List Resources.Request) (s : State)
    (saved : List State) :
    ∃ marks, n.runFrom requests s saved = some (.idle s saved marks) ∧
      List.Forall₂ Mark.Like marks (n.paintings.map (Painting.mark s)) := by
  have before := Resources.sound_after requests
  have renders := n.renders_compile
  have paints := renders.holds _ _ before (renders.sound _ before) (.refl _) s
  obtain ⟨marks, draws, like⟩ := paints s (.refl s)
  exact ⟨marks, draws saved [], like⟩

/-- On the machine a compiled node restores the state and what was saved, and leaves exactly the
marks of its leaves, each in the scopes of the nodes from the root down to it. -/
theorem compile_realizes_paintings (n : Node Float) (requests : List Resources.Request) (s : State)
    (saved : List State) :
    ∃ marks, n.runFrom requests s saved = some (.idle s saved marks) ∧
      List.Forall₂ (Mark.Realizes s) marks n.paintings := by
  obtain ⟨marks, runs, like⟩ := n.exists_marks requests s saved
  refine ⟨marks, runs, ?_⟩
  rw [List.forall₂_map_right_iff] at like
  exact like.imp fun _ _ => Mark.Like.realizes

/-- A triangle, filled and outlined inside a blended group that is moved and cut to the same
triangle; and a green one after the group. -/
def framed (triangle : List (PathOp Float)) : Node Float :=
  let outlined : PaintStyle Float :=
    { PaintStyle.initial with
      fill := some (.solid ⟨1, 0, 0⟩)
      fillOpacity := some 0.5
      stroke := some (.solid ⟨0, 0, 1⟩)
      strokeWidth := some 2 }
  let green := { PaintStyle.initial with fill := some (.solid ⟨0, 1, 0⟩), fillRule := .evenOdd }
  .group .initial .plain
    [.group .initial ⟨[.translate 2 3], some ⟨triangle, .evenOdd⟩, none, none, some .multiply⟩
      [.shape ⟨triangle, outlined, .plain⟩],
     .shape ⟨triangle, green, .plain⟩]

theorem compile_realizes_paintings_framed :
    let triangle := [.moveTo ⟨0, 0⟩, .lineTo ⟨4, 0⟩, .lineTo ⟨4, 4⟩, .close]
    ∃ outlined green : Mark,
      (framed triangle).runFrom [] .initial [] = some (.idle .initial [] [outlined, green]) ∧
      outlined.act = .fillStroke triangle .nonZero ∧
      outlined.state.space = [.translate 2 3] ∧
      outlined.state.cuts = [⟨triangle, .evenOdd, [.translate 2 3]⟩] ∧
      outlined.state.fillColor = ⟨1, 0, 0⟩ ∧
      outlined.state.strokeColor = ⟨0, 0, 1⟩ ∧
      outlined.state.lineWidth = 2 ∧
      SameMilli outlined.state.fillOpacity 0.5 ∧
      outlined.state.blendMode = .multiply ∧
      green.act = .fill triangle .evenOdd ∧
      green.state.space = [] ∧
      green.state.cuts = [] ∧
      green.state.fillColor = ⟨0, 1, 0⟩ ∧
      SameMilli green.state.fillOpacity 1 ∧
      green.state.blendMode = .normal := by
  intro triangle
  obtain ⟨marks, runs, realize⟩ := compile_realizes_paintings (framed triangle) [] .initial []
  cases realize with
  | cons outlined rest =>
    cases rest with
    | cons green rest =>
      cases rest
      exact ⟨_, _, runs, outlined.act.eq_fillStroke, outlined.space, outlined.cuts,
        outlined.state.fillColor, outlined.state.strokeColor, outlined.state.lineWidth,
        outlined.state.fillOpacity, outlined.state.blendMode, green.act.eq_fill, green.space,
        green.cuts, green.state.fillColor, green.state.fillOpacity, green.state.blendMode⟩

end Node

end SvgPage

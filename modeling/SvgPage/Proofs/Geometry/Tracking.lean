import Mathlib
import SvgPage.Proofs.Geometry.Splicing

/-!
# The pen and what is drawn

The pen keeps the current point and the start of the subpath by hand. Both can be read off the
operations that are drawn by then: the one is where the last operation ends, the other is the last
move.
-/

namespace SvgPage

variable {α : Type}

namespace PathOp

def isMove : PathOp α → Bool
  | moveTo _ => true
  | _ => false

def isStroke : PathOp α → Bool
  | lineTo _ | curveTo .. => true
  | _ => false

/-- The point that an operation leads to. A closing names none. -/
def target? : PathOp α → Option (Point α)
  | moveTo p | lineTo p | curveTo _ _ p => some p
  | close => none

end PathOp

namespace Path

variable {ops drawn : List (PathOp α)}

def lastMove? (ops : List (PathOp α)) : Option (Point α) :=
  (ops.filter PathOp.isMove).getLast?.bind PathOp.target?

/-- Where the last operation ends. A closing goes back to the last move. -/
def reached? (ops : List (PathOp α)) : Option (Point α) :=
  ops.getLast?.bind fun op => op.target?.or (lastMove? ops)

/-- An outline that draws from a point it has moved to. -/
def OpensWithMove (ops : List (PathOp α)) : Prop := ∀ op ∈ ops.head?, op.isMove = true

theorem opensWithMove_nil : OpensWithMove ([] : List (PathOp α)) := nofun

theorem OpensWithMove.append (first : OpensWithMove ops) (second : OpensWithMove drawn) :
    OpensWithMove (ops ++ drawn) := by
  cases ops with
  | nil => exact second
  | cons op ops => exact first

/-- Lines and curves, at least one, the last of which ends at a point. -/
structure StrokesTo (p : Point α) (drawn : List (PathOp α)) : Prop where
  nonempty : drawn ≠ []
  strokes : ∀ op ∈ drawn, op.isStroke = true
  ends : drawn.getLast?.bind PathOp.target? = some p

theorem strokesTo_singleton {op : PathOp α} {p : Point α} (stroke : op.isStroke = true)
    (target : op.target? = some p) : StrokesTo p [op] where
  nonempty := List.cons_ne_nil _ _
  strokes := by
    intro op' member
    rwa [List.mem_singleton.mp member]
  ends := target

theorem lastMove?_append_strokes (strokes : ∀ op ∈ drawn, op.isStroke = true) :
    lastMove? (ops ++ drawn) = lastMove? ops := by
  have none : drawn.filter PathOp.isMove = [] := by
    apply List.filter_eq_nil_iff.mpr
    intro op member moves
    have stroke := strokes op member
    cases op with
    | moveTo p => cases stroke
    | lineTo | curveTo | close => cases moves
  rw [lastMove?, List.filter_append, none, List.append_nil]
  rfl

theorem reached?_append_strokes {p : Point α} (reaches : StrokesTo p drawn) :
    reached? (ops ++ drawn) = some p := by
  obtain ⟨op, last, target⟩ := Option.bind_eq_some_iff.mp reaches.ends
  rw [reached?, List.getLast?_append, last]
  change op.target?.or _ = some p
  rw [target]
  rfl

/-- A curve at least, brought to a point. By induction on the curves before the last one. -/
theorem strokesTo_pinEnd {q : Point α} (nonempty : ops ≠ [])
    (curves : ∀ op ∈ ops, ∃ c₁ c₂ p, op = .curveTo c₁ c₂ p) : StrokesTo q (pinEnd q ops) := by
  induction ops with
  | nil => exact absurd rfl nonempty
  | cons op ops ih =>
    obtain ⟨⟨c₁, c₂, p, rfl⟩, others⟩ := List.forall_mem_cons.mp curves
    cases ops with
    | nil => exact strokesTo_singleton rfl rfl
    | cons op' ops =>
      have rest := ih (List.cons_ne_nil _ _) others
      constructor
      case nonempty => exact List.cons_ne_nil _ _
      case strokes => exact List.forall_mem_cons.mpr ⟨rfl, rest.strokes⟩
      case ends =>
        change (List.getLast? (_ :: pinEnd q (op' :: ops))).bind _ = _
        rw [List.getLast?_cons_of_ne_nil rest.nonempty]
        exact rest.ends

end Path

namespace Arc

variable [Scalar α]

theorem Centred.pieces_curves (arc : Centred α) (k step : α) (n : Nat) (angle : α) :
    ∀ op ∈ arc.pieces k step n angle, ∃ c₁ c₂ p, op = .curveTo c₁ c₂ p := by
  induction n generalizing angle with
  | zero => nofun
  | succ n ih => exact List.forall_mem_cons.mpr ⟨⟨_, _, _, rfl⟩, ih (angle + step)⟩

theorem Centred.toPath_ne_nil (arc : Centred α) : arc.toPath ≠ [] := by
  obtain ⟨n, some⟩ : ∃ n, arc.pieceCount = n + 1 :=
    Nat.exists_eq_succ_of_ne_zero (Nat.ne_of_gt (Nat.le_max_right _ 1))
  unfold toPath
  rw [some]
  exact List.cons_ne_nil _ _

/-- Whatever the radii, the turn and the flags are, an arc gets to where it was asked to. -/
theorem Endpoint.strokesTo_toPath (arc : Endpoint α) : Path.StrokesTo arc.stop arc.toPath := by
  unfold toPath
  split
  · exact Path.strokesTo_singleton rfl rfl
  · exact Path.strokesTo_pinEnd arc.toCentred.toPath_ne_nil (arc.toCentred.pieces_curves _ _ _ _)

end Arc

namespace PathData

open SvgPage.Path

theorem strokesTo_draw_arc [Scalar α] (pen : Pen α) (relative : Bool) (rx ry rotation : α)
    (large sweep : Bool) (p : Point α) : StrokesTo (pen.place relative p)
      (pen.draw ⟨relative, .arc rx ry rotation large sweep p⟩).1 :=
  Arc.Endpoint.strokesTo_toPath ⟨pen.current, rx, ry, rotation, large, sweep, _⟩

/-- What the pen remembers is what the operations say. -/
structure Tracks (pen : Pen α) (ops : List (PathOp α)) : Prop where
  opens : ∃ p, ops.head? = some (.moveTo p)
  current : reached? ops = some pen.current
  start : lastMove? ops = some pen.start

namespace Tracks

variable {pen : Pen α} {ops drawn : List (PathOp α)} {p : Point α}
  {cubic quadratic : Option (Point α)}

theorem head?_append (h : Tracks pen ops) (drawn : List (PathOp α)) :
    ∃ p, (ops ++ drawn).head? = some (.moveTo p) := by
  obtain ⟨p, head⟩ := h.opens
  exact ⟨p, by rw [List.head?_append, head]; rfl⟩

theorem move (before : ops = [] ∨ Tracks pen ops) :
    Tracks ⟨p, p, cubic, quadratic⟩ (ops ++ [.moveTo p]) where
  opens := by
    rcases before with rfl | h
    · exact ⟨p, rfl⟩
    · exact h.head?_append _
  current := by simp [reached?, PathOp.target?]
  start := by simp [lastMove?, PathOp.isMove, PathOp.target?]

theorem strokes (h : Tracks pen ops) (reaches : StrokesTo p drawn) :
    Tracks ⟨p, pen.start, cubic, quadratic⟩ (ops ++ drawn) where
  opens := h.head?_append drawn
  current := reached?_append_strokes reaches
  start := (lastMove?_append_strokes reaches.strokes).trans h.start

theorem close (h : Tracks pen ops) :
    Tracks ⟨pen.start, pen.start, cubic, quadratic⟩ (ops ++ [.close]) := by
  have start : lastMove? (ops ++ [.close]) = some pen.start := by
    rw [← h.start]
    simp [lastMove?, PathOp.isMove]
  refine ⟨h.head?_append _, ?_, start⟩
  rw [reached?, List.getLast?_append]
  exact start

theorem draw [Scalar α] (h : Tracks pen ops) (s : Segment α) :
    Tracks (pen.draw s).2 (ops ++ (pen.draw s).1) := by
  obtain ⟨relative, arguments⟩ := s
  cases arguments with
  | move p => exact .move (.inr h)
  | line | horizontal | vertical => exact h.strokes (strokesTo_singleton rfl rfl)
  | cubic | smoothCubic | quadratic | smoothQuadratic =>
    exact h.strokes (strokesTo_singleton rfl rfl)
  | arc rx ry rotation large sweep p => exact h.strokes (strokesTo_draw_arc pen ..)
  | close => exact h.close

/-- By induction on the segments, from whatever is drawn before them. -/
theorem after [Scalar α] (h : Tracks pen ops) (segments : List (Segment α)) :
    Tracks (pen.after segments) (ops ++ outlineFrom pen segments) := by
  induction segments generalizing pen ops with
  | nil => rwa [outlineFrom, List.append_nil]
  | cons s segments ih =>
    rw [outlineFrom, ← List.append_assoc]
    exact ih (h.draw s)

end Tracks

section

variable [Scalar α]

theorem Reaches.exists_move {cs rest : List Char} {s : Segment α} {segments : List (Segment α)}
    {last : Option Command} (way : Reaches none cs (s :: segments) last rest) :
    ∃ relative p, s = ⟨relative, .move p⟩ := by
  generalize drawn : s :: segments = all at way
  generalize fresh : none = previous at way
  induction way with
  | here => cases drawn
  | separator _ _ ih => exact ih drawn fresh
  | @group _ _ _ _ k _ _ _ _ _ _ read _ _ =>
    cases drawn
    obtain ⟨⟨k, mid⟩, commanded, read⟩ := exists_of_bind_eq_ok read
    obtain ⟨⟨a, _⟩, taken, read⟩ := exists_of_bind_eq_ok read
    cases read
    rcases command_cases commanded with ⟨-, -, leads⟩ | ⟨k', same, -⟩
    · obtain ⟨verb, relative⟩ := k
      obtain rfl : verb = .move := leads fresh.symm
      obtain ⟨⟨p, _⟩, -, taken⟩ := exists_of_bind_eq_ok taken
      cases taken
      exact ⟨relative, p, rfl⟩
    · cases fresh.trans same

/-- Wherever the loop has got to, the pen tells what is drawn by then. -/
theorem Reaches.tracks {cs rest : List Char} {segments : List (Segment α)} {last : Option Command}
    (way : Reaches none cs segments last rest) (some : segments ≠ []) :
    Tracks (Pen.initial.after segments) (outlineFrom .initial segments) := by
  cases segments with
  | nil => exact absurd rfl some
  | cons s segments =>
    obtain ⟨relative, p, rfl⟩ := way.exists_move
    have nothing : ([] : List (PathOp α)) = [] ∨ Tracks (.initial : Pen α) [] := .inl rfl
    exact (Tracks.move nothing).after segments

/-- The outline of path data is empty, or opens with a move. -/
theorem opensWithMove_outline {text : List Char} {ops : List (PathOp α)}
    (read : outline text = .ok ops) : OpensWithMove ops := by
  obtain ⟨segments, last, done | ⟨rest, fault, way, fails⟩⟩ :=
    Reaches.exists_end (α := α) none text
  · rw [outline_eq, done.segmentsFrom_of_end] at read
    cases read
    by_cases none : segments = []
    · rw [none]
      exact opensWithMove_nil
    · obtain ⟨p, head⟩ := (done.tracks none).opens
      intro op member
      cases head.symm.trans member
      rfl
  · rw [outline_eq, way.segmentsFrom_of_fails fails] at read
    cases read

theorem outline_of_report {text : List Char} {ops : List (PathOp α)}
    (read : report text = .ok ops) : outline text = .ok ops := by
  unfold report at read
  cases drawn : outline (α := α) text with
  | error fault =>
    rw [drawn] at read
    cases read
  | ok ops =>
    rw [drawn] at read
    cases read
    rfl

theorem opensWithMove_report {text : List Char} {ops : List (PathOp α)}
    (read : report text = .ok ops) : OpensWithMove ops :=
  opensWithMove_outline (outline_of_report read)

end

end PathData

end SvgPage

import SvgPage.Geometry.PathData

/-!
# Strokes

What the groups of path data mean, one after another. A group is first made absolute: its points are
counted from the origin, and what it leaves unsaid is filled in from where the path stands and from
the stroke just before. The strokes then say what is drawn.
-/

namespace SvgPage.PathData

variable {α : Type}

/-- A group whose points are absolute and all there. -/
inductive Stroke (α : Type) where
  | move (p : Point α)
  | line (p : Point α)
  | cubic (c₁ c₂ p : Point α)
  | quadratic (q p : Point α)
  | arc (rx ry rotation : α) (large sweep : Bool) (p : Point α)
  | close

/-- The control point that a smooth cubic continues: that of a cubic, nearest to its end. -/
def Stroke.cubic? : Stroke α → Option (Point α)
  | .cubic _ c₂ _ => some c₂
  | _ => none

/-- The control point that a smooth quadratic continues: that of a quadratic. -/
def Stroke.quadratic? : Stroke α → Option (Point α)
  | .quadratic q _ => some q
  | _ => none

/-- Where a path stands. -/
structure Stand (α : Type) where
  current : Point α
  /-- The point of the last move. -/
  start : Point α
  /-- The stroke just before. -/
  last : Option (Stroke α)

namespace Stand

variable [Scalar α]

def initial : Stand α := ⟨⟨0, 0⟩, ⟨0, 0⟩, none⟩

def absolute (s : Stand α) (relative : Bool) (p : Point α) : Point α :=
  if relative then ⟨s.current.x + p.x, s.current.y + p.y⟩ else p

/-- What is opposite to a control point, seen from the current point. Where there is nothing to
continue it is the current point itself. -/
def opposite (s : Stand α) : Option (Point α) → Point α
  | some c => ⟨2 * s.current.x - c.x, 2 * s.current.y - c.y⟩
  | none => s.current

def stroke (s : Stand α) (segment : Segment α) : Stroke α :=
  let point := s.absolute segment.relative
  match segment.arguments with
  | .move p => .move (point p)
  | .line p => .line (point p)
  | .horizontal x => .line ⟨if segment.relative then s.current.x + x else x, s.current.y⟩
  | .vertical y => .line ⟨s.current.x, if segment.relative then s.current.y + y else y⟩
  | .cubic c₁ c₂ p => .cubic (point c₁) (point c₂) (point p)
  | .smoothCubic c₂ p => .cubic (s.opposite (s.last.bind Stroke.cubic?)) (point c₂) (point p)
  | .quadratic q p => .quadratic (point q) (point p)
  | .smoothQuadratic p => .quadratic (s.opposite (s.last.bind Stroke.quadratic?)) (point p)
  | .arc rx ry rotation large sweep p => .arc rx ry rotation large sweep (point p)
  | .close => .close

def after (s : Stand α) (stroke : Stroke α) : Stand α :=
  match stroke with
  | .move p => ⟨p, p, some stroke⟩
  | .line p | .cubic _ _ p | .quadratic _ p | .arc _ _ _ _ _ p => ⟨p, s.start, some stroke⟩
  | .close => ⟨s.start, s.start, some stroke⟩

end Stand

/-- What a stroke draws from a point on. -/
def Stroke.ops [Scalar α] (origin : Point α) : Stroke α → List (PathOp α)
  | .move p => [.moveTo p]
  | .line p => [.lineTo p]
  | .cubic c₁ c₂ p => [.curveTo c₁ c₂ p]
  | .quadratic q p => [quadraticAsCubic origin q p]
  | .arc rx ry rotation large sweep p =>
    Arc.Endpoint.toPath ⟨origin, rx, ry, rotation, large, sweep, p⟩
  | .close => [.close]

/-- One more group: what is drawn by then, and where the path stands. -/
def advance [Scalar α] (drawn : List (PathOp α) × Stand α) (segment : Segment α) :
    List (PathOp α) × Stand α :=
  let stroke := drawn.2.stroke segment
  (drawn.1 ++ stroke.ops drawn.2.current, drawn.2.after stroke)

/-- What the groups of path data draw. -/
def meaning [Scalar α] (segments : List (Segment α)) : List (PathOp α) :=
  (segments.foldl advance ([], Stand.initial)).1

/-- The pen where a path stands: it remembers the control point of the stroke just before. -/
def Stand.pen (s : Stand α) : Pen α :=
  ⟨s.current, s.start, s.last.bind Stroke.cubic?, s.last.bind Stroke.quadratic?⟩

section

variable [Scalar α]

theorem reflect_pen (s : Stand α) (control : Option (Point α)) :
    s.pen.reflect control = s.opposite control := by
  cases control <;> rfl

/-- One group draws what its stroke draws, and the pen goes where the stroke leads. -/
theorem draw_pen (s : Stand α) (segment : Segment α) :
    s.pen.draw segment =
      ((s.stroke segment).ops s.current, (s.after (s.stroke segment)).pen) := by
  obtain ⟨relative, arguments⟩ := segment
  cases arguments with
  | smoothCubic c₂ p =>
    unfold Pen.draw
    simp only [reflect_pen]
    rfl
  | smoothQuadratic p =>
    unfold Pen.draw
    simp only [reflect_pen]
    rfl
  | _ => rfl

/-- By induction on the groups, from wherever the path stands. -/
theorem foldl_advance (segments : List (Segment α)) (ops : List (PathOp α)) (s : Stand α) :
    (segments.foldl advance (ops, s)).1 = ops ++ outlineFrom s.pen segments := by
  induction segments generalizing ops s with
  | nil => exact (List.append_nil ops).symm
  | cons segment segments ih =>
    rw [List.foldl_cons, advance, ih, outlineFrom, draw_pen, List.append_assoc]

theorem outlineFrom_initial (segments : List (Segment α)) :
    outlineFrom Pen.initial segments = meaning segments :=
  (foldl_advance segments [] Stand.initial).symm

end

end SvgPage.PathData

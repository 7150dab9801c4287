import SvgPage.Geometry.Matrix

/-!
# Paths

An outline is a list of pen movements: moves, lines, cubic curves and closings. The bounding box is
that of all points named, control points included, so a curve never leaves it.
-/

namespace SvgPage

structure Rect (α : Type) where
  x : α
  y : α
  width : α
  height : α
  deriving DecidableEq, Repr

inductive PathOp (α : Type) where
  | moveTo (p : Point α)
  | lineTo (p : Point α)
  /-- Two control points, then the end point. -/
  | curveTo (c₁ c₂ p : Point α)
  | close
  deriving DecidableEq, Repr

variable {α : Type} [Scalar α]

namespace Rect

/-- The map from the unit square onto the rectangle. -/
def ofUnitSquare (r : Rect α) : Matrix α := ⟨r.width, 0, 0, r.height, r.x, r.y⟩

def corners (r : Rect α) : List (Point α) :=
  [⟨r.x, r.y⟩, ⟨r.x + r.width, r.y⟩, ⟨r.x, r.y + r.height⟩, ⟨r.x + r.width, r.y + r.height⟩]

/-- The least box around some points, unless there are none or it has no finite corner. -/
def around? : List (Point α) → Option (Rect α)
  | [] => none
  | p :: ps =>
    let minX := ps.foldl (fun m q => Scalar.minimum m q.x) p.x
    let minY := ps.foldl (fun m q => Scalar.minimum m q.y) p.y
    let maxX := ps.foldl (fun m q => Scalar.maximum m q.x) p.x
    let maxY := ps.foldl (fun m q => Scalar.maximum m q.y) p.y
    if Scalar.isFinite minX && Scalar.isFinite minY then
      some ⟨minX, minY, maxX - minX, maxY - minY⟩
    else none

end Rect

namespace PathOp

/-- The points an operation names, control points first. -/
def points : PathOp α → List (Point α)
  | moveTo p => [p]
  | lineTo p => [p]
  | curveTo c₁ c₂ p => [c₁, c₂, p]
  | close => []

def map (f : Point α → Point α) : PathOp α → PathOp α
  | moveTo p => moveTo (f p)
  | lineTo p => lineTo (f p)
  | curveTo c₁ c₂ p => curveTo (f c₁) (f c₂) (f p)
  | close => close

def endingAt (q : Point α) : PathOp α → PathOp α
  | curveTo c₁ c₂ _ => curveTo c₁ c₂ q
  | op => op

end PathOp

namespace Path

def transform (m : Matrix α) (ops : List (PathOp α)) : List (PathOp α) :=
  ops.map (PathOp.map m.apply)

def bbox? (ops : List (PathOp α)) : Option (Rect α) := Rect.around? (ops.flatMap PathOp.points)

/-- The last operation, when it is a curve, made to end at a given point. -/
def pinEnd (q : Point α) : List (PathOp α) → List (PathOp α)
  | [] => []
  | [op] => [op.endingAt q]
  | op :: ops => op :: pinEnd q ops

end Path

end SvgPage

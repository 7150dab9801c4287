import SvgPage.Image.Handle
import SvgPage.Paint.Paint

/-!
# The scene

A scene is a tree in which every property is resolved: no node refers to an id, a class or an
inherited value.
-/

namespace SvgPage

structure Dash (α : Type) where
  pattern : List α
  phase : α
  deriving DecidableEq, Repr

/-- An outline in the user space of the node it cuts. -/
structure Clip (α : Type) where
  ops : List (PathOp α)
  rule : FillRule
  deriving DecidableEq, Repr

structure Base (α : Type) where
  transform : List (Matrix α)
  clip : Option (Clip α)
  mask : Option (Mask α)
  filter : Option (Filter α)
  /-- Never the normal mode. -/
  blendMode : Option BlendMode
  deriving DecidableEq, Repr

structure PaintStyle (α : Type) where
  fill : Option (Paint α)
  fillRule : FillRule
  fillOpacity : Option α
  stroke : Option (Paint α)
  strokeWidth : Option α
  strokeJoin : Option LineJoin
  miterLimit : Option α
  dash : Option (Dash α)
  strokeCap : Option LineCap
  strokeOpacity : Option α
  opacity : Option α
  /-- What `currentColor` means. -/
  color : Color α
  deriving DecidableEq, Repr

structure Shape (α : Type) where
  ops : List (PathOp α)
  paint : PaintStyle α
  base : Base α
  deriving DecidableEq, Repr

structure PlacedImage (α : Type) where
  image : ImageHandle
  box : Rect α
  opacity : Option α
  base : Base α
  deriving DecidableEq, Repr

/-- How a text is set: its font, its paint, and where it starts if it says so. -/
structure TextStyle (α : Type) where
  font : Font
  size : α
  fill : Option (Paint α)
  stroke : Option (Paint α)
  fillOpacity : Option α
  strokeOpacity : Option α
  x : Option α
  y : Option α
  base : Base α

/-- A part of a text: characters, or a text of its own style. -/
inductive TextItem (α : Type) where
  | literal (run : List Char)
  | nested (style : TextStyle α) (items : List (TextItem α))

inductive Node (α : Type) where
  | shape (s : Shape α)
  | image (i : PlacedImage α)
  | text (style : TextStyle α) (items : List (TextItem α))
  | group (paint : PaintStyle α) (base : Base α) (children : List (Node α))

variable {α : Type}

def Base.plain : Base α := ⟨[], none, none, none, none⟩

/-- The properties outside of any element: black fill and no stroke. -/
def PaintStyle.initial [Scalar α] : PaintStyle α :=
  { fill := some (.solid .black)
    fillRule := .nonZero
    fillOpacity := none
    stroke := none
    strokeWidth := none
    strokeJoin := none
    miterLimit := none
    dash := none
    strokeCap := none
    strokeOpacity := none
    opacity := none
    color := .black }

namespace Node

def base : Node α → Base α
  | shape s => s.base
  | image i => i.base
  | text style _ => style.base
  | group _ base _ => base

mutual

/-- The bounding box in a node's own user space. Text has none. -/
def bbox? [Scalar α] : Node α → Option (Rect α)
  | shape s => Path.bbox? s.ops
  | image i => some i.box
  | text _ _ => none
  | group _ _ children => Rect.around? (corners children)

def corners [Scalar α] : List (Node α) → List (Point α)
  | [] => []
  | n :: ns =>
    match bbox? n with
    | none => corners ns
    | some b => b.corners.map (Matrix.compose n.base.transform).apply ++ corners ns

end

end Node

end SvgPage

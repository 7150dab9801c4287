import SvgPage.Geometry.PathData
import SvgPage.Geometry.Shape
import SvgPage.Scene.Context

/-!
# Outlines of elements

The outline of a shape element, and the joint outline of the shapes in a clip path or mask.
-/

namespace SvgPage

def pointPairs? {α : Type} : List α → Option (List (Point α))
  | [] => some []
  | x :: y :: rest => (pointPairs? rest).map (⟨x, y⟩ :: ·)
  | [_] => none

def readPoints? (cs : List Char) : Option (List (Point Float)) :=
  ((Text.fields Text.isSeparator cs).mapM readFloat?).bind pointPairs?

namespace Context

open Xml

/-- The outline of a shape element; other elements have none. -/
def outline (cx : Context) (kind : ElementKind) (h : Head) :
    Except Problem (List (PathOp Float)) :=
  match kind with
  | .rect => do
    let x ← cx.lengthOr h "x" .x 0
    let y ← cx.lengthOr h "y" .y 0
    let w ← cx.nonNegative h "width" .x
    let height ← cx.nonNegative h "height" .y
    let rx ← cx.nonNegative h "rx" .x
    let ry ← cx.nonNegative h "ry" .y
    return Shape.rect x y (w.getD 0) (height.getD 0) rx ry
  | .circle => do
    let x ← cx.lengthOr h "cx" .x 0
    let y ← cx.lengthOr h "cy" .y 0
    let r ← cx.nonNegative h "r" .diagonal
    return Shape.circle x y (r.getD 0)
  | .ellipse => do
    let x ← cx.lengthOr h "cx" .x 0
    let y ← cx.lengthOr h "cy" .y 0
    let rx ← cx.nonNegative h "rx" .x
    let ry ← cx.nonNegative h "ry" .y
    let radii := Shape.pairRadii rx ry
    return Shape.ellipse x y radii.1 radii.2
  | .line => do
    let x₁ ← cx.lengthOr h "x1" .x 0
    let y₁ ← cx.lengthOr h "y1" .y 0
    let x₂ ← cx.lengthOr h "x2" .x 0
    let y₂ ← cx.lengthOr h "y2" .y 0
    return Shape.line ⟨x₁, y₁⟩ ⟨x₂, y₂⟩
  | .polygon => (h.read "points" fun raw => readPoints? raw.toList).map fun ps =>
      Shape.polygon (ps.getD [])
  | .polyline => (h.read "points" fun raw => readPoints? raw.toList).map fun ps =>
      Shape.polyline (ps.getD [])
  | .path =>
    let text := ((h.get? "d").getD "").toList
    (PathData.outline text).mapError (.ofPath text)
  | _ => .ok []

def clipOutline (cx : Context) (container : String) (m : Matrix Float) :
    List Element → Except Problem (List (PathOp Float))
  | [] => .ok []
  | e :: rest => do
    let kind ← e.head.kind
    let first ←
      if kind.isClipShape then do
        let ops ← cx.outline kind e.head
        let own ← transform e.head "transform"
        pure (Path.transform (m.mul (Matrix.compose own)) ops)
      else if kind.isRemark then (cx.passOver e.head (some container)).map fun _ => []
      else .error (.unsupportedElement e.head.tag (some container))
    let more ← cx.clipOutline container m rest
    return first ++ more

end Context

end SvgPage

import SvgPage.Geometry.Path
import SvgPage.Text.Chars

/-!
# Placing a picture in a viewport

A view box is scaled evenly to the largest size that fits the viewport and put in its middle.
-/

namespace SvgPage

structure Size (α : Type) where
  width : α
  height : α
  deriving DecidableEq, Repr

structure Options (α : Type) where
  /-- Whether elements and fonts that are known but not supported are problems. -/
  strict : Bool
  /-- The size of type where none is given. -/
  fontSize : α
  /-- The size of the target. -/
  viewport : Option (Size α)
  /-- Whether the target has its origin at the bottom. -/
  flipY : Bool
  deriving DecidableEq, Repr

namespace ViewBox

/-- Left edge, top edge, width and height, the last two positive. -/
def read? (cs : List Char) : Option (Rect Float) := do
  match ← (Text.fields Text.isSeparator cs).mapM readFloat? with
  | [x, y, w, h] => if 0 < w ∧ 0 < h then some ⟨x, y, w, h⟩ else none
  | _ => none

end ViewBox

variable {α : Type} [Scalar α]

namespace Options

def initial : Options α := ⟨true, 16, none, true⟩

def lenient : Options α := { initial with strict := false }

end Options

/-- The map that fits a box into a viewport; a box without area stays where it is. -/
def Rect.fitInto (box : Rect α) (target : Size α) : Matrix α :=
  if 0 < box.width ∧ 0 < box.height then
    let s := Scalar.minimum (target.width / box.width) (target.height / box.height)
    let tx := (target.width - box.width * s) * (1 / 2) - box.x * s
    let ty := (target.height - box.height * s) * (1 / 2) - box.y * s
    (Matrix.translate tx ty).mul (Matrix.scale s s)
  else .identity

namespace Options

/-- The place of a picture in the viewport, if there is one. A view box goes before a size. -/
def placement (o : Options α) (viewBox : Option (Rect α)) (size : Option (Size α)) :
    Option (Matrix α) :=
  o.viewport.map fun target =>
    let box := viewBox.or (size.map fun s => ⟨0, 0, s.width, s.height⟩)
    let fit : Matrix α :=
      match box with
      | some b => b.fitInto target
      | none => .identity
    if o.flipY then Matrix.mul ⟨1, 0, 0, -1, 0, target.height⟩ fit else fit

end Options

end SvgPage

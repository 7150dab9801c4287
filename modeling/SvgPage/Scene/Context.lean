import SvgPage.Geometry.TransformList
import SvgPage.Geometry.Viewport
import SvgPage.Paint.Definitions
import SvgPage.Scene.Element
import SvgPage.Style.Cascade
import SvgPage.Type.FontTable

/-!
# Reading attributes

What an attribute means depends on the document around its element: on the classes, definitions and
fonts, on the viewport to which percentages refer, and on the policy for unsupported elements.
-/

namespace SvgPage

/-- What is known about a document when its elements are read. -/
structure Context where
  strict : Bool
  viewport : Option (Size Float)
  classes : ClassTable
  definitions : Definitions Float
  fonts : FontTable

inductive Axis where
  | x
  | y
  | diagonal
  deriving DecidableEq, Repr

/-- The length of which a percentage is a share. -/
def Axis.extent (axis : Axis) (viewport : Size Float) : Float :=
  match axis with
  | x => viewport.width
  | y => viewport.height
  | diagonal =>
    Scalar.sqrt (viewport.width * viewport.width + viewport.height * viewport.height) /
      Scalar.sqrt 2

namespace Context

open Xml

def properties (cx : Context) (h : Head) : Properties :=
  .resolve h.plainAttributes (h.get? "class") cx.classes (h.get? "style")

/-- Passes over an unsupported element, unless that is a problem. -/
def passOver (cx : Context) (h : Head) (inside : Option String) : Except Problem Unit :=
  if cx.strict then .error (.unsupportedElement h.tag inside) else .ok ()

/-- A length in user units; a percentage needs a viewport. -/
def length? (cx : Context) (axis : Axis) (raw : String) : Option Float :=
  match percent? (Text.trim raw.toList) with
  | some share => do
    let v ← number? share
    let viewport ← cx.viewport
    some (v / 100 * axis.extent viewport)
  | none => Length.read? raw.toList

end Context

def Xml.Head.read {β : Type} (h : Head) (name : String) (reader : String → Option β) :
    Except Problem (Option β) :=
  match h.get? name with
  | none => .ok none
  | some raw => (required (h.invalid name raw) (reader raw)).map some

def Properties.read {β : Type} (ps : Properties) (tag name : String) (reader : String → Option β) :
    Except Problem (Option β) :=
  match Shelf.get? ps name with
  | none => .ok none
  | some raw => (required (.unsupportedAttribute tag name raw) (reader raw)).map some

namespace Context

open Xml

def length (cx : Context) (h : Head) (name : String) (axis : Axis) :
    Except Problem (Option Float) :=
  h.read name (cx.length? axis)

def lengthOr (cx : Context) (h : Head) (name : String) (axis : Axis) (otherwise : Float) :
    Except Problem Float :=
  (cx.length h name axis).map (·.getD otherwise)

def nonNegative (cx : Context) (h : Head) (name : String) (axis : Axis) :
    Except Problem (Option Float) :=
  h.read name fun raw => (cx.length? axis raw).bind fun v => if v < 0 then none else some v

/-- The first of a list of positions. A percentage here allows no white space before its sign. -/
def firstPosition? (cx : Context) (axis : Axis) (first : List Char) : Option Float :=
  match percent? first with
  | some _ => do
    let v ← readFloat? (Text.dropTail (· == '%') first)
    let viewport ← cx.viewport
    some (v / 100 * axis.extent viewport)
  | none => Length.read? first

def firstPosition (cx : Context) (h : Head) (name : String) (axis : Axis) :
    Except Problem (Option Float) :=
  match h.get? name with
  | none => .ok none
  | some raw =>
    match Text.fields Text.isSeparator raw.toList with
    | [] => .ok none
    | first :: _ => (required (h.invalid name raw) (cx.firstPosition? axis first)).map some

def transform (h : Head) (name : String) : Except Problem (List (Matrix Float)) :=
  (h.read name fun raw => TransformList.read? raw.toList).map (·.getD [])

def units (h : Head) (name : String) (otherwise : Units) : Except Problem Units :=
  (h.read name Units.read?).map (·.getD otherwise)

def coord (h : Head) (name : String) : Except Problem (Option (Coord Float)) :=
  h.read name fun raw => Coord.read? raw.toList

def region (h : Head) : Except Problem (Region Float) := do
  let x ← coord h "x"
  let y ← coord h "y"
  let width ← coord h "width"
  let height ← coord h "height"
  return ⟨x, y, width, height⟩

end Context

end SvgPage

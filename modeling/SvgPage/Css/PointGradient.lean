import SvgPage.Css.ColorFunction
import SvgPage.Css.Position

/-!
# Gradients between points

The oldest way to write a gradient names two points, for circles with a radius each, and functions
for its stops. The first and the last stop have functions of their own.
-/

namespace SvgPage.Css

/-- A coordinate of a point: the centre, a number or a share, or a side. -/
inductive PointPlace where
  | center
  | amount (p : Proportion)
  | side (far : Bool)
  deriving BEq

structure GradientPoint where
  x : PointPlace
  y : PointPlace
  deriving BEq

structure PointStop where
  offset : Float32
  color : Color
  deriving BEq

structure PointGradient where
  start : GradientPoint
  finish : GradientPoint
  radii : Option (Float32 × Float32)
  stops : List PointStop
  deriving BEq

namespace PointPlace

def read? (axis : Axis) : Reader PointPlace :=
  Reader.first
    [Place.center?.map fun _ => .center, proportion?.map .amount, axis.side?.map .side]

def text (axis : Axis) : PointPlace → List Char
  | .center => "center".toList
  | .amount (.percentage f) => if f == 0 then ['0'] else percentText f
  | .amount p => p.text
  | .side far => (if far then axis.far else axis.near).toList

end PointPlace

namespace GradientPoint

def read? : Reader GradientPoint := fun cs => do
  let (x, rest) ← PointPlace.read? .horizontal cs
  let (y, rest) ← PointPlace.read? .vertical rest
  some (⟨x, y⟩, rest)

def text (p : GradientPoint) : List Char := p.x.text .horizontal ++ ' ' :: p.y.text .vertical

end GradientPoint

namespace PointStop

/-- A colour with the offset that its function says or gives before a comma. -/
def read? : Reader PointStop := fun cs =>
  match next? cs with
  | some (.function name inside, rest) =>
    let stop? : Option PointStop :=
      match String.ofList (Text.lower name.toList), splitCommas inside with
      | "from", [c] => (color?.whole? c).map (⟨0, ·⟩)
      | "to", [c] => (color?.whole? c).map (⟨1, ·⟩)
      | "color-stop", [p, c] => do
        some ⟨(← proportion?.whole? p).value, ← color?.whole? c⟩
      | _, _ => none
    stop?.map (·, rest)
  | _ => none

def text (s : PointStop) : List Char :=
  let head : List Char :=
    if s.offset == 0 then "from(".toList
    else if s.offset == 1 then "to(".toList
    else "color-stop(".toList ++ numberText s.offset ++ [',', ' ']
  head ++ s.color.text ++ [')']

end PointStop

namespace PointGradient

def functionName : String := "-webkit-gradient"

def read? : Reader PointGradient := fun cs =>
  match next? cs with
  | some (.function name inside, rest) =>
    if Text.lower name.toList = functionName.toList then
      let found : Option PointGradient :=
        match splitCommas inside with
        | shape :: parts =>
          match word?.whole? shape, parts with
          | some "linear", start :: finish :: stop :: stops => do
            some ⟨← GradientPoint.read?.whole? start, ← GradientPoint.read?.whole? finish, none,
              ← (stop :: stops).mapM PointStop.read?.whole?⟩
          | some "radial", start :: inner :: finish :: outer :: stop :: stops => do
            some ⟨← GradientPoint.read?.whole? start, ← GradientPoint.read?.whole? finish,
              some (← number?.whole? inner, ← number?.whole? outer),
              ← (stop :: stops).mapM PointStop.read?.whole?⟩
          | _, _ => none
        | [] => none
      found.map (·, rest)
    else none
  | _ => none

def text (g : PointGradient) : List Char :=
  let line : List (List Char) :=
    match g.radii with
    | none => ["linear".toList, g.start.text, g.finish.text]
    | some (inner, outer) =>
      ["radial".toList, g.start.text, numberText inner, g.finish.text, numberText outer]
  functionName.toList ++
    '(' :: Text.join [',', ' '] (line ++ g.stops.map PointStop.text) ++ [')']

end PointGradient

end SvgPage.Css

import SvgPage.Css.PointGradient

/-!
# Pictures in style sheets

A picture is the address of one or a gradient. A gradient is written without the parts that are its
defaults: the direction downwards, the ellipse to the farthest corner, the centre, and hints half
way.
-/

namespace SvgPage.Css

/-- A colour with the place where it is reached, or a hint between two colours. -/
inductive GradientItem where
  | stop (color : Color) (position : Option Expression)
  | hint (position : Expression)
  deriving BEq

inductive Direction where
  | angle (q : Quantity)
  | horizontal (far : Bool)
  | vertical (far : Bool)
  | corner (right bottom : Bool)
  deriving BEq

/-- The shape of a radial gradient and how far it reaches. -/
inductive EndingShape where
  | circle (radius : Expression)
  | circleTo (extent : String)
  | ellipse (x y : Expression)
  | ellipseTo (extent : String)
  deriving BEq

inductive GradientLine where
  | linear (direction : Direction)
  | radial (shape : EndingShape) (center : Position)
  | conic (start : Quantity) (center : Position)
  deriving BEq

structure Gradient where
  name : String
  line : GradientLine
  items : List GradientItem
  deriving BEq

inductive Picture where
  | nothing
  | url (u : String)
  | gradient (g : Gradient)
  | between (g : PointGradient)
  deriving BEq

namespace GradientItem

/-- The items between two commas: a hint after a stop, or a colour with up to two places. -/
def part? (place? : Reader Expression) (afterStop : Bool) (cs : List Component) :
    Option (List GradientItem) :=
  match afterStop, place?.whole? cs with
  | true, some e => some [.hint e]
  | _, _ => do
    let (color, rest) ← color? cs
    let (first, rest) := (place?.map some).orElse none rest
    let (second, rest) := (place?.map some).orElse none rest
    if isDone rest then
      some (.stop color first :: (if second.isSome then [.stop color second] else []))
    else none

def isStop : GradientItem → Bool
  | .stop _ _ => true
  | .hint _ => false

def list? (place? : Reader Expression) (afterStop : Bool) :
    List (List Component) → Option (List GradientItem)
  | [] => some []
  | part :: parts => do
    let items ← part? place? afterStop part
    let more ← list? place? (items.all isStop) parts
    some (items ++ more)

def placeText (place : Option Expression) : List Char :=
  (place.map fun e => ' ' :: e.text).getD []

/-- The items after a first one; the colour is that of a stop with a place written just before. -/
def listText (isFirst : Bool) (before : Option Color) : List GradientItem → List Char
  | [] => []
  | .hint e :: rest =>
    if e == Place.half then listText isFirst before rest
    else comma ++ e.text ++ listText false none rest
  | .stop color place :: rest =>
    if place.isSome && before == some color then
      placeText place ++ listText false none rest
    else
      comma ++ color.text ++ placeText place ++ listText false (place.map fun _ => color) rest
where
  comma : List Char := if isFirst then [] else [',', ' ']

end GradientItem

namespace Direction

/-- Sides come in either order; `to` goes before them, except under an older name. -/
def read? (older : Bool) : Reader Direction := fun cs =>
  match angle? true cs with
  | some (q, rest) => some (.angle q, rest)
  | none => do
    let (_, rest) ← if older then some ("", cs) else keyword? ["to"] cs
    match Axis.horizontal.side? rest with
    | some (right, rest) =>
      match Axis.vertical.side? rest with
      | some (bottom, rest) => some (.corner right bottom, rest)
      | none => some (.horizontal right, rest)
    | none => do
      let (bottom, rest) ← Axis.vertical.side? rest
      match Axis.horizontal.side? rest with
      | some (right, rest) => some (.corner right bottom, rest)
      | none => some (.vertical bottom, rest)

def isDownward : Direction → Bool
  | .angle q => q.degrees? == some 180
  | .vertical far => far
  | _ => false

def sideText (axis : Axis) (far : Bool) : List Char := (if far then axis.far else axis.near).toList

def text (older : Bool) (d : Direction) : List Char :=
  let lead : List Char := if older then [] else "to ".toList
  match d with
  | .angle q => q.fullText
  | .horizontal far => lead ++ sideText .horizontal far
  | .vertical far => lead ++ sideText .vertical far
  | .corner right bottom =>
    lead ++ sideText .vertical bottom ++ ' ' :: sideText .horizontal right

end Direction

namespace EndingShape

def default : EndingShape := .ellipseTo "farthest-corner"

def extent? : Reader String :=
  keyword? ["closest-side", "farthest-side", "closest-corner", "farthest-corner"]

def drop (word : String) (cs : List Component) : List Component :=
  ((keyword? [word] cs).map (·.2)).getD cs

def pair? : Reader (Expression × Expression) := fun cs => do
  let (x, rest) ← lengthPercentage? cs
  let (y, rest) ← lengthPercentage? rest
  some ((x, y), rest)

def ellipse? : Reader EndingShape := fun cs =>
  match extent? cs, pair? cs, keyword? ["ellipse"] cs with
  | some (e, rest), _, _ =>
    if (keyword? ["circle"] rest).isSome then none else some (.ellipseTo e, drop "ellipse" rest)
  | none, some ((x, y), rest), _ => some (.ellipse x y, drop "ellipse" rest)
  | none, none, some (_, rest) =>
    match extent? rest, pair? rest with
    | some (e, rest), _ => some (.ellipseTo e, rest)
    | none, some ((x, y), rest) => some (.ellipse x y, rest)
    | none, none =>
      if (lengthPercentage? rest).isSome then none else some (.ellipseTo "farthest-corner", rest)
  | none, none, none => none

def circle? : Reader EndingShape := fun cs =>
  match extent? cs, length? cs, keyword? ["circle"] cs with
  | some (e, rest), _, _ => (keyword? ["circle"] rest).map fun (_, rest) => (.circleTo e, rest)
  | none, some (r, rest), _ => some (.circle r, drop "circle" rest)
  | none, none, some (_, rest) =>
    match extent? rest, length? rest with
    | some (e, rest), _ => some (.circleTo e, rest)
    | none, some (r, rest) => some (.circle r, rest)
    | none, none => some (.circleTo "farthest-corner", rest)
  | none, none, none => none

def read? : Reader EndingShape := Reader.first [ellipse?, circle?]

def text : EndingShape → List Char
  | .circle r => r.text
  | .circleTo e =>
    "circle".toList ++ (if e = "farthest-corner" then [] else ' ' :: e.toList)
  | .ellipse x y => x.text ++ ' ' :: y.text
  | .ellipseTo e => e.toList

end EndingShape

namespace Gradient

def linearNames : List String := ["linear-gradient", "repeating-linear-gradient"]

def radialNames : List String := ["radial-gradient", "repeating-radial-gradient"]

def conicNames : List String := ["conic-gradient", "repeating-conic-gradient"]

/-- Beginnings of older names. -/
def makers : List String := ["-webkit-", "-moz-", "-o-"]

def plainName (name : String) : String :=
  ((makers.findSome? fun m => Text.after? m.toList name.toList).map String.ofList).getD name

def isOlder (name : String) : Bool := plainName name != name

def at? : Reader Position := fun cs =>
  (keyword? ["at"] cs).bind fun (_, rest) => Position.read? rest

def from? : Reader Quantity := fun cs =>
  (keyword? ["from"] cs).bind fun (_, rest) => angle? true rest

/-- The line of a gradient from the part before the first comma, where that part is not a stop. -/
def linear? (name : String) (parts : List (List Component)) : Option Gradient :=
  match parts with
  | first :: rest =>
    match Direction.read? (isOlder name) first with
    | some (d, left) =>
      if isDone left && !rest.isEmpty then
        (GradientItem.list? lengthPercentage? false rest).map (⟨name, .linear d, ·⟩)
      else none
    | none =>
      (GradientItem.list? lengthPercentage? false parts).map (⟨name, .linear (.vertical true), ·⟩)
  | [] => none

def radial? (name : String) (parts : List (List Component)) : Option Gradient :=
  match parts with
  | first :: rest =>
    let (shape?, left) := (EndingShape.read?.map some).orElse none first
    let (center?, left) := (at?.map some).orElse none left
    let line := GradientLine.radial (shape?.getD .default) (center?.getD .center)
    if shape?.isSome || center?.isSome then
      if isDone left && !rest.isEmpty then
        (GradientItem.list? lengthPercentage? false rest).map (⟨name, line, ·⟩)
      else none
    else (GradientItem.list? lengthPercentage? false parts).map (⟨name, line, ·⟩)
  | [] => none

/-- A start of zero around the centre is not followed by a comma. -/
def conic? (name : String) (parts : List (List Component)) : Option Gradient :=
  match parts with
  | first :: rest =>
    let (start, left) := from?.orElse (.dimension 0 "deg") first
    let (center, left) := at?.orElse .center left
    let line := GradientLine.conic start center
    if !start.isZero || center != .center then
      if isDone left && !rest.isEmpty then
        (GradientItem.list? anglePercentage? false rest).map (⟨name, line, ·⟩)
      else none
    else (GradientItem.list? anglePercentage? false (left :: rest)).map (⟨name, line, ·⟩)
  | [] => none

def read? : Reader Gradient := fun cs =>
  match next? cs with
  | some (.function name inside, rest) =>
    let name := String.ofList (Text.lower name.toList)
    let parts := splitCommas inside
    let found : Option Gradient :=
      if linearNames.contains (plainName name) then linear? name parts
      else if radialNames.contains (plainName name) then radial? name parts
      else if conicNames.contains name then conic? name parts
      else none
    found.map (·, rest)
  | _ => none

def lineText (older : Bool) : GradientLine → List Char
  | .linear d => if d.isDownward then [] else d.text older ++ [',', ' ']
  | .radial shape center =>
    let around := if center.isCenter then [] else "at ".toList ++ center.text
    let parts := [if shape == .default then [] else shape.text, around].filter (!·.isEmpty)
    if parts.isEmpty then [] else Text.join [' '] parts ++ [',', ' ']
  | .conic start center =>
    let turned := if start.isZero then [] else "from ".toList ++ start.fullText
    let around := if center.isCenter then [] else "at ".toList ++ center.text
    let parts := [turned, around].filter (!·.isEmpty)
    if parts.isEmpty then [] else Text.join [' '] parts ++ [',', ' ']

def text (g : Gradient) : List Char :=
  g.name.toList ++ '(' :: lineText (isOlder g.name) g.line ++
    GradientItem.listText true none g.items ++ [')']

end Gradient

namespace Picture

def read? : Reader Picture :=
  Reader.first
    [(keyword? ["none"]).map fun _ => .nothing, reference?.map .url, Gradient.read?.map .gradient,
      PointGradient.read?.map .between]

def text : Picture → List Char
  | .nothing => "none".toList
  | .url u => urlText u
  | .gradient g => g.text
  | .between g => g.text

end Picture

end SvgPage.Css

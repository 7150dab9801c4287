import SvgPage.Geometry.Path
import SvgPage.Paint.Color
import SvgPage.Paint.Keyword
import SvgPage.Paint.Length

/-!
# Gradients

A gradient is placed over the shape it paints: its own coordinates become numbers, and a matrix
carries its space onto the shape. A gradient that declares no stops may take them from another one,
along a chain of links.
-/

namespace SvgPage

structure Stop (α : Type) where
  offset : α
  color : Color α
  opacity : α
  deriving DecidableEq, Repr

inductive GradientShape (α : Type) where
  | linear (x₁ y₁ x₂ y₂ : Coord α)
  | radial (cx cy r fx fy fr : Coord α)
  deriving DecidableEq, Repr

structure Gradient (α : Type) where
  shape : GradientShape α
  units : Units
  transform : List (Matrix α)
  spread : Spread
  stops : List (Stop α)
  /-- The gradient whose stops are taken when this one has none. -/
  link : Option String
  deriving DecidableEq, Repr

/-- The line or the pair of circles along which colours run. -/
inductive Ramp (α : Type) where
  | axial (x₀ y₀ x₁ y₁ : α)
  | radial (x₀ y₀ r₀ x₁ y₁ r₁ : α)
  deriving DecidableEq, Repr

/-- A gradient's place over one shape. -/
structure PlacedGradient (α : Type) where
  /-- Maps gradient space onto the user space of the shape. -/
  matrix : Matrix α
  ramp : Ramp α
  deriving DecidableEq, Repr

variable {α : Type} [Scalar α]

def Ramp.coords : Ramp α → List α
  | axial x₀ y₀ x₁ y₁ => [x₀, y₀, x₁, y₁]
  | radial x₀ y₀ r₀ x₁ y₁ r₁ => [x₀, y₀, r₀, x₁, y₁, r₁]

def Ramp.isRadial : Ramp α → Bool
  | axial .. => false
  | radial .. => true

/-- A position along an axis. In the frame of the bounding box a plain number is a share already. -/
def Coord.along (c : Coord α) (units : Units) (origin extent : α) : α :=
  match units with
  | .boundingBox => c.value
  | .userSpace => if c.isShare then origin + extent * c.value else c.value

/-- A length that belongs to no axis; a share of it is a share of the diagonal over the root of
two. -/
def Coord.across (c : Coord α) (units : Units) (box : Rect α) : α :=
  match units with
  | .boundingBox => c.value
  | .userSpace =>
    if c.isShare then
      Scalar.sqrt (box.width * box.width + box.height * box.height) / Scalar.sqrt 2 * c.value
    else c.value

namespace Gradient

/-- The map from the frame of a gradient to user space; a flat box has none. -/
def frame? (units : Units) (box : Rect α) : Option (Matrix α) :=
  match units with
  | .boundingBox => if box.width ≤ 0 ∨ box.height ≤ 0 then none else some box.ofUnitSquare
  | .userSpace => some .identity

def ramp (g : Gradient α) (box : Rect α) : Ramp α :=
  let x (c : Coord α) : α := c.along g.units box.x box.width
  let y (c : Coord α) : α := c.along g.units box.y box.height
  let length (c : Coord α) : α := c.across g.units box
  match g.shape with
  | .linear x₁ y₁ x₂ y₂ => .axial (x x₁) (y y₁) (x x₂) (y y₂)
  | .radial cx cy r fx fy fr => .radial (x fx) (y fy) (length fr) (x cx) (y cy) (length r)

/-- The gradient over a shape with a given box; none when it would paint nothing. -/
def place? (g : Gradient α) (box : Rect α) : Option (PlacedGradient α) :=
  if g.stops.isEmpty then none
  else
    (frame? g.units box).map fun frame =>
      ⟨frame.mul (Matrix.compose g.transform), g.ramp box⟩

end Gradient

/-- Gradients by id. -/
abbrev GradientMap (α : Type) := List (String × Gradient α)

namespace GradientMap

def get? (gs : GradientMap α) (id : String) : Option (Gradient α) :=
  (gs.find? fun entry => entry.1 == id).map (·.2)

/-- The stops found along a chain of links that visits no gradient twice. -/
def stopsAlong (gs : GradientMap α) : Nat → List String → Option String → Option (List (Stop α))
  | 0, _, _ => none
  | _ + 1, _, none => none
  | fuel + 1, seen, some id =>
    if seen.contains id then none
    else
      match gs.get? id with
      | none => none
      | some g =>
        if g.stops.isEmpty then gs.stopsAlong fuel (id :: seen) g.link else some g.stops

def inherited? (gs : GradientMap α) (id : String) : Option (List (Stop α)) :=
  match gs.get? id with
  | none => none
  | some g =>
    if g.stops.isEmpty then gs.stopsAlong (gs.length + 1) [id] g.link else none

def setStops (gs : GradientMap α) (id : String) (stops : List (Stop α)) : GradientMap α :=
  gs.map fun entry => if entry.1 == id then (entry.1, { entry.2 with stops := stops }) else entry

/-- Lets one gradient take its stops. -/
def visit (gs : GradientMap α) (id : String) : GradientMap α :=
  match gs.inherited? id with
  | some stops => gs.setStops id stops
  | none => gs

def inheritStops (gs : GradientMap α) (order : List String) : GradientMap α :=
  order.foldl visit gs

end GradientMap

end SvgPage

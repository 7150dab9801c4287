import SvgPage.Geometry.Arc

/-!
# Outlines of the basic shapes
-/

namespace SvgPage.Shape

open Scalar

variable {α : Type} [Scalar α]

/-- The share of a radius by which the control points of a quarter circle stand off. -/
def kappa : α := 4 / 3 * (sqrt 2 - 1)

/-- A missing radius takes the other one; with neither given both are zero. -/
def pairRadii : Option α → Option α → α × α
  | some rx, some ry => (rx, ry)
  | some r, none => (r, r)
  | none, some r => (r, r)
  | none, none => (0, 0)

/-- A radius brought between zero and half the side. -/
def cornerRadius (side r : α) : α := minimum (maximum r 0) (side / 2)

def sharpRect (x y w h : α) : List (PathOp α) :=
  [.moveTo ⟨x, y⟩, .lineTo ⟨x + w, y⟩, .lineTo ⟨x + w, y + h⟩, .lineTo ⟨x, y + h⟩,
    .lineTo ⟨x, y⟩, .close]

/-- Corners as quarter ellipses; `k` is the share of a radius at which control points stand off. -/
def roundRect (k x y w h rx ry : α) : List (PathOp α) :=
  let kx := rx * k
  let ky := ry * k
  let right := x + w
  let bottom := y + h
  [.moveTo ⟨x + rx, y⟩,
    .lineTo ⟨right - rx, y⟩,
    .curveTo ⟨right - rx + kx, y⟩ ⟨right, y + ry - ky⟩ ⟨right, y + ry⟩,
    .lineTo ⟨right, bottom - ry⟩,
    .curveTo ⟨right, bottom - ry + ky⟩ ⟨right - rx + kx, bottom⟩ ⟨right - rx, bottom⟩,
    .lineTo ⟨x + rx, bottom⟩,
    .curveTo ⟨x + rx - kx, bottom⟩ ⟨x, bottom - ry + ky⟩ ⟨x, bottom - ry⟩,
    .lineTo ⟨x, y + ry⟩,
    .curveTo ⟨x, y + ry - ky⟩ ⟨x + rx - kx, y⟩ ⟨x + rx, y⟩,
    .close]

def rectWith (k x y w h : α) (rx ry : Option α) : List (PathOp α) :=
  let radii := pairRadii rx ry
  let rx := cornerRadius w radii.1
  let ry := cornerRadius h radii.2
  if rx ≤ 0 ∨ ry ≤ 0 then sharpRect x y w h else roundRect k x y w h rx ry

def rect (x y w h : α) (rx ry : Option α) : List (PathOp α) := rectWith kappa x y w h rx ry

/-- One revolution from the rightmost point; its end is the starting point itself. -/
def ellipse (cx cy rx ry : α) : List (PathOp α) :=
  let rx := Scalar.abs rx
  let ry := Scalar.abs ry
  let start : Point α := ⟨cx + rx, cy⟩
  let turn : Arc.Centred α :=
    { centre := ⟨cx, cy⟩, rx := rx, ry := ry, sinPhi := 0, cosPhi := 1, start := 0,
      sweep := 2 * pi }
  .moveTo start :: Path.pinEnd start turn.toPath ++ [.close]

def circle (cx cy r : α) : List (PathOp α) := ellipse cx cy r r

def line (p q : Point α) : List (PathOp α) := [.moveTo p, .lineTo q, .close]

def polyline : List (Point α) → List (PathOp α)
  | [] => []
  | p :: ps => .moveTo p :: ps.map .lineTo

def polygon : List (Point α) → List (PathOp α)
  | [] => []
  | ps => polyline ps ++ [.close]

end SvgPage.Shape

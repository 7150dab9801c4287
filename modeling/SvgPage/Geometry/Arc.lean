import SvgPage.Geometry.Path

/-!
# Elliptical arcs

An arc given by its end points is first put into centre form: the chord is turned into the frame of
the ellipse, radii too small to span it are enlarged by the least factor that suffices, and the two
possible centres are told apart by the flags. The centre form is then cut into pieces of at most a
quarter turn, each drawn as one cubic.
-/

namespace SvgPage.Arc

open Scalar

variable {α : Type} [Scalar α]

/-- An arc in centre form; `sinPhi` and `cosPhi` turn the ellipse. -/
structure Centred (α : Type) where
  centre : Point α
  rx : α
  ry : α
  sinPhi : α
  cosPhi : α
  start : α
  sweep : α

/-- The point of the ellipse that a point of the unit circle's plane is sent to. -/
def Centred.place (arc : Centred α) (u : Point α) : Point α :=
  let x := arc.rx * u.x
  let y := arc.ry * u.y
  ⟨arc.centre.x + arc.cosPhi * x - arc.sinPhi * y, arc.centre.y + arc.sinPhi * x + arc.cosPhi * y⟩

/-- How many pieces of at most a quarter turn the sweep needs. -/
def Centred.pieceCount (arc : Centred α) : Nat :=
  max (ceilNat (Scalar.abs arc.sweep / (pi / 2) - 1 / 1000000000)) 1

/-- The cubic from one angle to the next, with tangents of length `k`. -/
def Centred.piece (arc : Centred α) (k from_ to_ : α) : PathOp α :=
  let s₁ := sin from_
  let c₁ := cos from_
  let s₂ := sin to_
  let c₂ := cos to_
  .curveTo (arc.place ⟨c₁ - k * s₁, s₁ + k * c₁⟩) (arc.place ⟨c₂ + k * s₂, s₂ - k * c₂⟩)
    (arc.place ⟨c₂, s₂⟩)

def Centred.pieces (arc : Centred α) (k step : α) : Nat → α → List (PathOp α)
  | 0, _ => []
  | n + 1, angle => arc.piece k angle (angle + step) :: arc.pieces k step n (angle + step)

def Centred.toPath (arc : Centred α) : List (PathOp α) :=
  let count := arc.pieceCount
  let step := arc.sweep / ofNat count
  let k := 4 / 3 * tan (step / 4)
  arc.pieces k step count arc.start

structure Endpoint (α : Type) where
  start : Point α
  rx : α
  ry : α
  /-- The turn of the ellipse, in degrees. -/
  rotation : α
  large : Bool
  sweep : Bool
  stop : Point α

namespace Endpoint

/-- Half the chord, seen in the frame of the ellipse. -/
def halfChord (arc : Endpoint α) : Point α :=
  let phi := radians arc.rotation
  let dx := (arc.start.x - arc.stop.x) / 2
  let dy := (arc.start.y - arc.stop.y) / 2
  ⟨cos phi * dx + sin phi * dy, -sin phi * dx + cos phi * dy⟩

/-- Above one exactly when the ellipse cannot reach both end points. -/
def reach (rx ry : α) (h : Point α) : α := h.x * h.x / (rx * rx) + h.y * h.y / (ry * ry)

/-- The radii, enlarged alike where they are too small to span the chord. -/
def radii (arc : Endpoint α) : α × α :=
  let rx := Scalar.abs arc.rx
  let ry := Scalar.abs arc.ry
  let lambda := reach rx ry arc.halfChord
  if 1 < lambda then (rx * sqrt lambda, ry * sqrt lambda) else (rx, ry)

/-- The factor that carries half the chord, turned a quarter, to the centre. -/
def centreFactor (large sweep : Bool) (rx ry : α) (h : Point α) : α :=
  let x2 := h.x * h.x
  let y2 := h.y * h.y
  let rx2 := rx * rx
  let ry2 := ry * ry
  let num := rx2 * ry2 - rx2 * y2 - ry2 * x2
  let den := rx2 * y2 + ry2 * x2
  if den != 0 then
    (if large == sweep then -1 else 1) * sqrt (maximum (num / den) 0)
  else 0

/-- The centre in the frame of the ellipse. -/
def turnedCentre (arc : Endpoint α) : Point α :=
  let h := arc.halfChord
  let (rx, ry) := arc.radii
  let k := centreFactor arc.large arc.sweep rx ry h
  ⟨k * (rx * h.y / ry), k * (-ry * h.x / rx)⟩

/-- The angle from one vector to another, between minus and plus a half turn. -/
def angleBetween (u v : Point α) : α := atan2 (u.x * v.y - u.y * v.x) (u.x * v.x + u.y * v.y)

/-- The vectors from the centre to the end points, on the unit circle. -/
def unitVectors (arc : Endpoint α) : Point α × Point α :=
  let h := arc.halfChord
  let (rx, ry) := arc.radii
  let c := arc.turnedCentre
  (⟨(h.x - c.x) / rx, (h.y - c.y) / ry⟩, ⟨(-h.x - c.x) / rx, (-h.y - c.y) / ry⟩)

/-- The turn from start to end in the requested direction. -/
def sweepAngle (sweep : Bool) (u v : Point α) : α :=
  let turn := angleBetween u v
  if !sweep && decide (0 < turn) then turn - 2 * pi
  else if sweep && decide (turn < 0) then turn + 2 * pi
  else turn

def toCentred (arc : Endpoint α) : Centred α :=
  let phi := radians arc.rotation
  let c := arc.turnedCentre
  let (rx, ry) := arc.radii
  let (u, v) := arc.unitVectors
  { centre :=
      ⟨cos phi * c.x - sin phi * c.y + (arc.start.x + arc.stop.x) / 2,
        sin phi * c.x + cos phi * c.y + (arc.start.y + arc.stop.y) / 2⟩
    rx := rx
    ry := ry
    sinPhi := sin phi
    cosPhi := cos phi
    start := angleBetween ⟨1, 0⟩ u
    sweep := sweepAngle arc.sweep u v }

/-- A radius of zero, or end points that coincide, leave only the chord. -/
def isChord (arc : Endpoint α) : Bool :=
  Scalar.abs arc.rx == 0 || Scalar.abs arc.ry == 0 ||
    (arc.start.x == arc.stop.x && arc.start.y == arc.stop.y)

/-- The arc as cubics that end exactly at the requested point. -/
def toPath (arc : Endpoint α) : List (PathOp α) :=
  if arc.isChord then [.lineTo arc.stop] else Path.pinEnd arc.stop arc.toCentred.toPath

end Endpoint

end SvgPage.Arc

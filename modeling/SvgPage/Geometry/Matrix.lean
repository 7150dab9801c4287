import SvgPage.Scalar

/-!
# Affine maps of the plane

A map sends `(x, y)` to `(a x + c y + e, b x + d y + f)`. A list of maps stands for their product in
written order, so the last map listed is the first applied to a point.
-/

namespace SvgPage

structure Point (α : Type) where
  x : α
  y : α
  deriving DecidableEq, Repr

structure Matrix (α : Type) where
  a : α
  b : α
  c : α
  d : α
  e : α
  f : α
  deriving DecidableEq, Repr

namespace Matrix

variable {α : Type} [Scalar α]

def identity : Matrix α := ⟨1, 0, 0, 1, 0, 0⟩

instance : Inhabited (Matrix α) := ⟨identity⟩

def translate (tx ty : α) : Matrix α := ⟨1, 0, 0, 1, tx, ty⟩

def scale (sx sy : α) : Matrix α := ⟨sx, 0, 0, sy, 0, 0⟩

def rotate (angle : α) : Matrix α :=
  let r := Scalar.radians angle
  ⟨Scalar.cos r, Scalar.sin r, -Scalar.sin r, Scalar.cos r, 0, 0⟩

def skew (alongX alongY : α) : Matrix α :=
  ⟨1, Scalar.tan (Scalar.radians alongY), Scalar.tan (Scalar.radians alongX), 1, 0, 0⟩

/-- The product; the right factor is applied to a point first. -/
def mul (m n : Matrix α) : Matrix α :=
  { a := m.a * n.a + m.c * n.b
    b := m.b * n.a + m.d * n.b
    c := m.a * n.c + m.c * n.d
    d := m.b * n.c + m.d * n.d
    e := m.a * n.e + m.c * n.f + m.e
    f := m.b * n.e + m.d * n.f + m.f }

def apply (m : Matrix α) (p : Point α) : Point α :=
  ⟨m.a * p.x + m.c * p.y + m.e, m.b * p.x + m.d * p.y + m.f⟩

def isIdentity (m : Matrix α) : Bool :=
  m.a == 1 && m.b == 0 && m.c == 0 && m.d == 1 && m.e == 0 && m.f == 0

/-- The geometric mean of the scales along the axes. -/
def scaleFactor (m : Matrix α) : α := Scalar.sqrt (Scalar.abs (m.a * m.d - m.b * m.c))

/-- The single map that a list denotes. -/
def compose (ms : List (Matrix α)) : Matrix α := ms.foldl mul identity

end Matrix

end SvgPage

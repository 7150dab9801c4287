import SvgPage.Number.Decimal

/-!
# Numbers for geometry

A page is computed in double precision. Its geometry is written once over this interface, so that
each formula can also be read over exact numbers.
-/

namespace SvgPage

class Scalar (α : Type) extends Add α, Sub α, Mul α, Div α, Neg α, LT α, LE α, BEq α where
  ofNat : Nat → α
  ofDecimal : Decimal → α
  decLt (a b : α) : Decidable (a < b)
  decLe (a b : α) : Decidable (a ≤ b)
  pi : α
  abs : α → α
  sqrt : α → α
  sin : α → α
  cos : α → α
  tan : α → α
  /-- The angle of the vector whose height is the first argument and width the second. -/
  atan2 : α → α → α
  /-- The least whole number that is not smaller; zero below zero. -/
  ceilNat : α → Nat
  isFinite : α → Bool

namespace Scalar

variable {α : Type} [Scalar α]

instance (a b : α) : Decidable (a < b) := decLt a b
instance (a b : α) : Decidable (a ≤ b) := decLe a b
instance (priority := low) (n : Nat) : OfNat α n := ⟨ofNat n⟩

/-- The larger of two; a value that is not a number gives way to the other. -/
def maximum (a b : α) : α := if a < b || a != a then b else a

/-- The smaller of two; a value that is not a number gives way to the other. -/
def minimum (a b : α) : α := if b < a || a != a then b else a

def clamp (low high a : α) : α := if a < low then low else if high < a then high else a

def radians (a : α) : α := a * (pi / 180)

end Scalar

instance : Scalar Float where
  ofNat n := n.toFloat
  ofDecimal := Decimal.toFloat
  decLt a b := inferInstanceAs (Decidable (a < b))
  decLe a b := inferInstanceAs (Decidable (a ≤ b))
  pi := 3.141592653589793
  abs := Float.abs
  sqrt := Float.sqrt
  sin := Float.sin
  cos := Float.cos
  tan := Float.tan
  atan2 := Float.atan2
  ceilNat a := a.ceil.toUInt64.toNat
  isFinite := Float.isFinite

end SvgPage

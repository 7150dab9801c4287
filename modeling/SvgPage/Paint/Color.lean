import SvgPage.Scalar
import SvgPage.Css.ColorFunction

/-!
# Colours of the page

A page colour has red, green and blue between zero and one. Transparency is not part of it: a
written colour loses its opacity here.
-/

namespace SvgPage

structure Color (α : Type) where
  r : α
  g : α
  b : α
  deriving DecidableEq, Repr

namespace Color

section

variable {α : Type} [Scalar α]

def black : Color α := ⟨0, 0, 0⟩

def rgb (r g b : α) : Color α :=
  ⟨Scalar.clamp 0 1 r, Scalar.clamp 0 1 g, Scalar.clamp 0 1 b⟩

def ofOctets (r g b : UInt8) : Color α :=
  ⟨Scalar.ofNat r.toNat / 255, Scalar.ofNat g.toNat / 255, Scalar.ofNat b.toNat / 255⟩

end

/-- The page colour of a style sheet colour; a colour that depends on its surroundings has none. -/
def ofCss? : Css.Color → Option (Color Float)
  | .octets o => some (ofOctets o.red o.green o.blue)
  | .spaced space v =>
    let v := space.convert .srgb v
    some (rgb v.c₁.toFloat v.c₂.toFloat v.c₃.toFloat)
  | .current => none
  | .system _ => none
  | .lightDark _ _ => none

def read? (cs : List Char) : Option (Color Float) := (Css.Color.read? cs).bind ofCss?

end Color

end SvgPage

import SvgPage.Number.Decimal
import SvgPage.Text.Chars

/-!
# Lengths, percentages and opacities

Lengths are counted in user units, ninety-six to the inch.
-/

namespace SvgPage

def number? (cs : List Char) : Option Float := readFloat? (Text.trim cs)

def percent? (cs : List Char) : Option (List Char) := Text.before? ['%'] cs

namespace Length

/-- The absolute units and their size, in the order in which endings are tried. -/
def units : List (String × Float) :=
  [("px", 1), ("pt", 96 / 72), ("pc", 16), ("mm", 96 / 25.4), ("cm", 96 / 2.54), ("in", 96)]

/-- The number part of a length, and the size of its unit. -/
def splitUnit (cs : List Char) : List Char × Float :=
  (units.findSome? fun (unit, size) => (Text.before? unit.toList cs).map (·, size)).getD (cs, 1)

/-- A finite length; a percentage is none. -/
def read? (cs : List Char) : Option Float :=
  let (body, size) := splitUnit (Text.trim cs)
  (number? body).bind fun v => if v.isFinite then some (v * size) else none

def readList? (cs : List Char) : Option (List Float) :=
  (Text.fields Text.isSeparator cs).mapM read?

end Length

namespace Opacity

/-- A number or a percentage, brought between zero and one. -/
def read? (cs : List Char) : Option Float :=
  let cs := Text.trim cs
  let value : Option Float :=
    match percent? cs with
    | some body => (number? body).map (· / 100)
    | none => readFloat? cs
  value.bind fun v =>
    if v.isFinite then some (if v < 0 then 0 else if 1 < v then 1 else v) else none

/-- The opacity of fill or stroke alone goes before the general one. -/
def resolve (specific general : Option Float) : Option Float := specific.or general

end Opacity

/-- A position in a gradient, mask or filter: a length, or a share of an extent. -/
structure Coord (α : Type) where
  value : α
  isShare : Bool
  deriving DecidableEq, Repr

namespace Coord

/-- A percentage as a share, or a length. -/
def read? (cs : List Char) : Option (Coord Float) :=
  let cs := Text.trim cs
  match percent? cs with
  | some body => (number? body).map fun v => ⟨v / 100, true⟩
  | none => (Length.read? cs).map fun v => ⟨v, false⟩

end Coord

/-- The size of type: a length, or a multiple of the size around it. -/
def readFontSize? (cs : List Char) (inherited : Float) : Option Float :=
  let cs := Text.trim cs
  let size : Option Float :=
    match Text.before? ['e', 'm'] cs with
    | some body => (number? body).map (· * inherited)
    | none =>
      match percent? cs with
      | some body => (number? body).map (· / 100 * inherited)
      | none => Length.read? cs
  size.bind fun v => if 0 ≤ v then some v else none

end SvgPage

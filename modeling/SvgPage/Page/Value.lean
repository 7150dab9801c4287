import SvgPage.Number.Single
import SvgPage.Page.Resources

/-!
# Dictionaries of resources

A graphics state and a shading are written as dictionaries. The colours of a shading are a function
of one variable: a straight passage between two colours, or several of them side by side.
-/

namespace SvgPage

inductive Value where
  | whole (n : Nat)
  | real (x : Float32)
  | name (s : String)
  | flag (b : Bool)
  | list (vs : List Value)
  | dictionary (entries : List (String × Value))

def Value.ofFloat (x : Float) : Value := .real (Single.ofDouble x)

namespace GraphicsState

/-- Opacities are brought between zero and one. -/
def dictionary (s : GraphicsState) : List (String × Value) :=
  [("Type", .name "ExtGState")] ++
    (s.fillOpacity.map fun a => ("ca", Value.ofFloat (Scalar.clamp 0 1 a))).toList ++
    (s.strokeOpacity.map fun a => ("CA", Value.ofFloat (Scalar.clamp 0 1 a))).toList ++
    (s.blendMode.map fun m => ("BM", Value.name m.name)).toList

end GraphicsState

structure Passage (α : Type) where
  first : Color α
  last : Color α
  deriving DecidableEq, Repr

inductive ColorFunction (α : Type) where
  | passage (p : Passage α)
  /-- Passages between bounds; each one runs over its whole range. -/
  | stitched (ps : List (Passage α)) (bounds : List α)
  deriving DecidableEq, Repr

namespace ColorFunction

variable {α : Type}

/-- The passages between neighbours. -/
def passages : List (ShadingStop α) → List (Passage α)
  | a :: b :: rest => ⟨a.color, b.color⟩ :: passages (b :: rest)
  | _ => []

/-- The function that runs through some stops; without any it is black. -/
def ofStops [Scalar α] : List (ShadingStop α) → ColorFunction α
  | [] => .passage ⟨.black, .black⟩
  | [a] => .passage ⟨a.color, a.color⟩
  | [a, b] => .passage ⟨a.color, b.color⟩
  | a :: b :: rest =>
    .stitched (passages (a :: b :: rest))
      (((b :: rest).dropLast).map fun s => Scalar.clamp 0 1 s.offset)

end ColorFunction

namespace Passage

def colorValue (c : Color Float) : Value :=
  .list ([c.r, c.g, c.b].map .ofFloat)

def unitRange : Value := .list [.real 0, .real 1]

def dictionary (p : Passage Float) : List (String × Value) :=
  [("FunctionType", .whole 2), ("Domain", unitRange), ("C0", colorValue p.first),
    ("C1", colorValue p.last), ("N", .real 1)]

end Passage

def ColorFunction.dictionary : ColorFunction Float → List (String × Value)
  | .passage p => p.dictionary
  | .stitched ps bounds =>
    [("FunctionType", .whole 3), ("Domain", Passage.unitRange),
      ("Functions", .list (ps.map fun p => .dictionary p.dictionary)),
      ("Bounds", .list (bounds.map .ofFloat)),
      ("Encode", .list (ps.flatMap fun _ => [.real 0, .real 1]))]

namespace Shading

def dictionary (s : Shading) : List (String × Value) :=
  [("ShadingType", .whole (if s.ramp.isRadial then 3 else 2)), ("ColorSpace", .name "DeviceRGB"),
    ("Coords", .list (s.ramp.coords.map .ofFloat)),
    ("Function", .dictionary (ColorFunction.ofStops s.stops).dictionary),
    ("Extend", .list [.flag true, .flag true])]

end Shading

end SvgPage

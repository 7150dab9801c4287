import SvgPage.Css.Box
import SvgPage.Css.Position

/-!
# Clipping shapes

A clip is a reference, a shape inside a reference box, or the box itself. Four sides or corners are
written with as few lengths as say the same.
-/

namespace SvgPage.Css

/-- Lengths for four sides, clockwise from the top, or four corners from the top left. -/
structure Sides where
  a : Expression
  b : Expression
  c : Expression
  d : Expression
  deriving BEq

inductive Radius where
  | length (e : Expression)
  | closest
  | farthest
  deriving BEq

inductive BasicShape where
  | inset (sides horizontal vertical : Sides)
  | circle (radius : Radius) (center : Position)
  | ellipse (x y : Radius) (center : Position)
  | polygon (evenOdd : Bool) (points : List (Expression × Expression))

inductive Clipping where
  | nothing
  | url (u : String)
  | shape (s : BasicShape) (b : Box)
  | box (b : Box)

namespace Sides

def all (e : Expression) : Sides := ⟨e, e, e, e⟩

/-- One to four lengths; a missing one is that of the opposite side. -/
def read? : Reader Sides := fun cs => do
  let one? : Reader (Option Expression) := lengthPercentage?.map some
  let (a, rest) ← lengthPercentage? cs
  let (b, rest) := one?.orElse none rest
  let (c, rest) := if b.isSome then one?.orElse none rest else (none, rest)
  let (d, rest) := if c.isSome then one?.orElse none rest else (none, rest)
  let b := b.getD a
  some (⟨a, b, c.getD a, d.getD b⟩, rest)

def text (s : Sides) : List Char :=
  let parts : List Expression :=
    if s.b == s.d then
      if s.a == s.c then if s.a == s.b then [s.a] else [s.a, s.b] else [s.a, s.b, s.c]
    else [s.a, s.b, s.c, s.d]
  Text.join [' '] (parts.map Expression.text)

end Sides

namespace Radius

def read? : Reader Radius :=
  Reader.first
    [lengthPercentage?.map .length, (keyword? ["closest-side"]).map fun _ => .closest,
      (keyword? ["farthest-side"]).map fun _ => .farthest]

def text : Radius → List Char
  | .length e => e.text
  | .closest => "closest-side".toList
  | .farthest => "farthest-side".toList

end Radius

namespace BasicShape

def center? : Reader Position := fun cs =>
  match keyword? ["at"] cs with
  | some (_, rest) => Position.read? rest
  | none => some (.center, cs)

def square : Sides := .all .zero

def corners? : Reader (Sides × Sides) := fun cs => do
  let (across, rest) ← Sides.read? cs
  match slash? rest with
  | some (_, rest) => do
    let (down, rest) ← Sides.read? rest
    some ((across, down), rest)
  | none => some ((across, across), rest)

def inset? : Reader BasicShape := fun cs => do
  let (sides, rest) ← Sides.read? cs
  match keyword? ["round"] rest with
  | some (_, rest) => do
    let ((across, down), rest) ← corners? rest
    some (.inset sides across down, rest)
  | none => some (.inset sides square square, rest)

def circle? : Reader BasicShape := fun cs => do
  let (r, rest) := Radius.read?.orElse .closest cs
  let (p, rest) ← center? rest
  some (.circle r p, rest)

def radii? : Reader (Radius × Radius) := fun cs => do
  let (x, rest) ← Radius.read? cs
  let (y, rest) ← Radius.read? rest
  some ((x, y), rest)

def ellipse? : Reader BasicShape := fun cs => do
  let ((x, y), rest) := radii?.orElse (.closest, .closest) cs
  let (p, rest) ← center? rest
  some (.ellipse x y p, rest)

def point? : Reader (Expression × Expression) := fun cs => do
  let (x, rest) ← lengthPercentage? cs
  let (y, rest) ← lengthPercentage? rest
  some ((x, y), rest)

def polygon? : Reader BasicShape := fun cs => do
  let (evenOdd, rest) ←
    match keyword? ["nonzero", "evenodd"] cs with
    | some (w, rest) => (comma? rest).map fun (_, rest) => (w == "evenodd", rest)
    | none => some (false, cs)
  let points ← point?.list? rest
  some (.polygon evenOdd points, [])

def read? : Reader BasicShape :=
  Reader.first
    [Reader.inFunction "inset" inset?, Reader.inFunction "circle" circle?,
      Reader.inFunction "ellipse" ellipse?, Reader.inFunction "polygon" polygon?]

def atText (p : Position) : List (List Char) :=
  if p.isCenter then [] else ["at ".toList ++ p.text]

def cornersText (across down : Sides) : List Char :=
  if across == square && down == square then []
  else
    " round ".toList ++ across.text ++
      if across == down then [] else " / ".toList ++ down.text

def text : BasicShape → List Char
  | .inset sides across down =>
    "inset(".toList ++ sides.text ++ cornersText across down ++ [')']
  | .circle r p =>
    "circle(".toList ++
      Text.join [' '] ((if r == .closest then [] else [r.text]) ++ atText p) ++ [')']
  | .ellipse x y p =>
    "ellipse(".toList ++
      Text.join [' ']
        ((if x == .closest && y == .closest then [] else [x.text, y.text]) ++ atText p) ++ [')']
  | .polygon evenOdd points =>
    "polygon(".toList ++
      Text.join [',', ' ']
        ((if evenOdd then ["evenodd".toList] else []) ++
          points.map fun (x, y) => x.text ++ ' ' :: y.text) ++ [')']

end BasicShape

namespace Clipping

/-- A shape and a box come in either order. -/
def read? : Reader Clipping := fun cs =>
  match reference? cs, BasicShape.read? cs, Box.read? cs with
  | some (u, rest), _, _ => some (.url u, rest)
  | none, some (s, rest), _ =>
    let (b, rest) := Box.read?.orElse .border rest
    some (.shape s b, rest)
  | none, none, some (b, rest) =>
    some ((BasicShape.read?.map fun s => Clipping.shape s b).orElse (.box b) rest)
  | none, none, none => (keyword? ["none"] cs).map fun (_, rest) => (.nothing, rest)

def text : Clipping → List Char
  | .nothing => "none".toList
  | .url u => urlText u
  | .shape s b => s.text ++ if b = .border then [] else ' ' :: b.text
  | .box b => b.text

end Clipping

end SvgPage.Css

import SvgPage.Geometry.Matrix
import SvgPage.Text.Chars

/-!
# Transform lists

A transform attribute is a sequence of calls set apart by white space and commas. Each call gives
one matrix, a rotation about a point gives three.
-/

namespace SvgPage.TransformList

open Scalar

variable {α : Type} [Scalar α]

def argument? (cs : List Char) : Option α :=
  (Decimal.read? cs).bind fun d =>
    let a : α := ofDecimal d
    if isFinite a then some a else none

def arguments? (cs : List Char) : Option (List α) :=
  (Text.fields Text.isSeparator cs).mapM argument?

def call? (name : String) (args : List α) : Option (List (Matrix α)) :=
  match name, args with
  | "matrix", [a, b, c, d, e, f] => some [⟨a, b, c, d, e, f⟩]
  | "translate", [x] => some [.translate x 0]
  | "translate", [x, y] => some [.translate x y]
  | "translateX", [x] => some [.translate x 0]
  | "translateY", [y] => some [.translate 0 y]
  | "rotate", [a] => some [.rotate a]
  | "rotate", [a, x, y] => some [.translate x y, .rotate a, .translate (-x) (-y)]
  | "scale", [k] => some [.scale k k]
  | "scale", [x, y] => some [.scale x y]
  | "scaleX", [x] => some [.scale x 1]
  | "scaleY", [y] => some [.scale 1 y]
  | "skew", [a] => some [.skew a a]
  | "skew", [a, b] => some [.skew a b]
  | "skewX", [a] => some [.skew a 0]
  | "skewY", [a] => some [.skew 0 a]
  | _, _ => none

def skip (cs : List Char) : List Char := cs.dropWhile Text.isSeparator

/-- The calls of a text without leading separators. Each takes at least its two brackets. -/
def callsWithin : Nat → List Char → Option (List (Matrix α))
  | 0, _ => some []
  | _ + 1, [] => some []
  | fuel + 1, cs@(_ :: _) => do
    let (name, rest) ← Text.splitFirst? (· == '(') cs
    let (inside, rest) ← Text.splitFirst? (· == ')') rest
    let args ← arguments? inside
    let ms ← call? (String.ofList (Text.trim name)) args
    let more ← callsWithin fuel (skip rest)
    return ms ++ more

def read? (cs : List Char) : Option (List (Matrix α)) := callsWithin (cs.length + 1) (skip cs)

end SvgPage.TransformList

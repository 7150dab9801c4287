import SvgPage.Css.Amount

/-!
# Transform functions

A transform property is a list of functions, each with its own kinds of arguments. The second
argument of a translation, scaling or skew is left out where it says nothing new.
-/

namespace SvgPage.Css

inductive TransformArgument where
  | number (x : Float32)
  | proportion (p : Proportion)
  | angle (q : Quantity)
  | length (e : Expression)

/-- What is expected in one place of a function. -/
inductive TransformSlot where
  | number
  | proportion
  | angle
  | length
  | lengthPercentage
  deriving DecidableEq, Repr

structure TransformFunction where
  name : String
  arguments : List TransformArgument

namespace TransformFunction

/-- Functions with their arguments; the flag says whether all after the first may be missing. -/
def signatures : List (String × List TransformSlot × Bool) := [
    ("matrix", List.replicate 6 .number, false),
    ("matrix3d", List.replicate 16 .number, false),
    ("translate", [.lengthPercentage, .lengthPercentage], true),
    ("translateX", [.lengthPercentage], false),
    ("translateY", [.lengthPercentage], false),
    ("translateZ", [.length], false),
    ("translate3d", [.lengthPercentage, .lengthPercentage, .length], false),
    ("scale", [.proportion, .proportion], true),
    ("scaleX", [.proportion], false),
    ("scaleY", [.proportion], false),
    ("scaleZ", [.proportion], false),
    ("scale3d", [.proportion, .proportion, .proportion], false),
    ("rotate", [.angle], false),
    ("rotateX", [.angle], false),
    ("rotateY", [.angle], false),
    ("rotateZ", [.angle], false),
    ("rotate3d", [.number, .number, .number, .angle], false),
    ("skew", [.angle, .angle], true),
    ("skewX", [.angle], false),
    ("skewY", [.angle], false),
    ("perspective", [.length], false)]

def argument? : TransformSlot → Reader TransformArgument
  | .number => number?.map .number
  | .proportion => proportion?.map .proportion
  | .angle => (angle? true).map .angle
  | .length => length?.map .length
  | .lengthPercentage => lengthPercentage?.map .length

def arguments? : List TransformSlot → List (List Component) → Option (List TransformArgument)
  | [], [] => some []
  | slot :: slots, part :: parts => do
    let a ← (argument? slot).whole? part
    let more ← arguments? slots parts
    some (a :: more)
  | _, _ => none

def read? : Reader TransformFunction := fun cs =>
  match next? cs with
  | some (.function name inside, rest) =>
    let entry? := signatures.find? fun (n, _) => Text.sameIgnoringCase n.toList name.toList
    entry?.bind fun (name, slots, short) =>
      let parts := splitCommas inside
      let slots := if short && parts.length = 1 then slots.take 1 else slots
      (arguments? slots parts).map fun args => (⟨name, args⟩, rest)
  | _ => none

namespace Argument

def text (bareZero : Bool) : TransformArgument → List Char
  | .number x => numberText x
  | .proportion p => p.text
  | .angle q => if bareZero then q.angleText else q.fullText
  | .length e => e.text

def isImplied : TransformArgument → TransformArgument → Bool
  | .proportion p, .proportion q => p.value == q.value
  | .angle _, .angle q => q.isZero
  | .length _, .length e => e.isZero
  | _, _ => false

/-- A scale as a number. -/
def plain : TransformArgument → TransformArgument
  | .proportion p => .number p.value
  | a => a

end Argument

def isRotation (name : String) : Bool :=
  ["rotate", "rotateX", "rotateY", "rotateZ", "rotate3d"].contains name

def text (f : TransformFunction) : List Char :=
  let args : List TransformArgument :=
    match f.arguments with
    | [a, b] => if Argument.isImplied a b then [a] else [a, b]
    | [a, b, c] => if f.name = "scale3d" then [a, b, Argument.plain c] else [a, b, c]
    | args => args
  let args := if f.name = "scale" then args.map Argument.plain else args
  f.name.toList ++
    '(' :: Text.join [',', ' '] (args.map (Argument.text (isRotation f.name))) ++ [')']

end TransformFunction

def transformText? (cs : List Component) : Option (List Char) :=
  match (keyword? ["none"]).whole? cs with
  | some _ => some "none".toList
  | none =>
    match TransformFunction.read?.many cs with
    | ([], _) => none
    | (fs, rest) =>
      if isDone rest then some (Text.join [' '] (fs.map TransformFunction.text)) else none

end SvgPage.Css

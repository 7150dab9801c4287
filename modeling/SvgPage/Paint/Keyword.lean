import SvgPage.Text.Chars

/-!
# Keywords of painting

Each keyword type has a reader that allows white space around the word, and the number or name by
which the page refers to it.
-/

namespace SvgPage

inductive FillRule where
  | nonZero
  | evenOdd
  deriving DecidableEq, Repr

inductive LineCap where
  | butt
  | round
  | square
  deriving DecidableEq, Repr

inductive LineJoin where
  | miter
  | round
  | bevel
  deriving DecidableEq, Repr

inductive BlendMode where
  | normal
  | multiply
  | screen
  | overlay
  | darken
  | lighten
  | colorDodge
  | colorBurn
  | hardLight
  | softLight
  | difference
  | exclusion
  | hue
  | saturation
  | color
  | luminosity
  deriving DecidableEq, Repr

inductive Units where
  | userSpace
  | boundingBox
  deriving DecidableEq, Repr

inductive Spread where
  | pad
  | reflect
  | repeat_
  deriving DecidableEq, Repr

/-- The word in a text with white space around it. -/
def word (s : String) : String := String.ofList (Text.trim s.toList)

def FillRule.read? (s : String) : Option FillRule :=
  match word s with
  | "nonzero" => some .nonZero
  | "evenodd" => some .evenOdd
  | _ => none

def LineCap.read? (s : String) : Option LineCap :=
  match word s with
  | "butt" => some .butt
  | "round" => some .round
  | "square" => some .square
  | _ => none

def LineCap.number : LineCap → Nat
  | .butt => 0
  | .round => 1
  | .square => 2

/-- Two joins that a page cannot draw become mitres. -/
def LineJoin.read? (s : String) : Option LineJoin :=
  match word s with
  | "miter" => some .miter
  | "miter-clip" => some .miter
  | "arcs" => some .miter
  | "round" => some .round
  | "bevel" => some .bevel
  | _ => none

def LineJoin.number : LineJoin → Nat
  | .miter => 0
  | .round => 1
  | .bevel => 2

def BlendMode.read? (s : String) : Option BlendMode :=
  match word s with
  | "normal" => some .normal
  | "multiply" => some .multiply
  | "screen" => some .screen
  | "overlay" => some .overlay
  | "darken" => some .darken
  | "lighten" => some .lighten
  | "color-dodge" => some .colorDodge
  | "color-burn" => some .colorBurn
  | "hard-light" => some .hardLight
  | "soft-light" => some .softLight
  | "difference" => some .difference
  | "exclusion" => some .exclusion
  | "hue" => some .hue
  | "saturation" => some .saturation
  | "color" => some .color
  | "luminosity" => some .luminosity
  | _ => none

def BlendMode.name : BlendMode → String
  | .normal => "Normal"
  | .multiply => "Multiply"
  | .screen => "Screen"
  | .overlay => "Overlay"
  | .darken => "Darken"
  | .lighten => "Lighten"
  | .colorDodge => "ColorDodge"
  | .colorBurn => "ColorBurn"
  | .hardLight => "HardLight"
  | .softLight => "SoftLight"
  | .difference => "Difference"
  | .exclusion => "Exclusion"
  | .hue => "Hue"
  | .saturation => "Saturation"
  | .color => "Color"
  | .luminosity => "Luminosity"

def Units.read? (s : String) : Option Units :=
  match word s with
  | "userSpaceOnUse" => some .userSpace
  | "objectBoundingBox" => some .boundingBox
  | _ => none

def Units.name : Units → String
  | .userSpace => "userSpaceOnUse"
  | .boundingBox => "objectBoundingBox"

def Spread.read? (s : String) : Option Spread :=
  match word s with
  | "pad" => some .pad
  | "reflect" => some .reflect
  | "repeat" => some .repeat_
  | _ => none

def Spread.name : Spread → String
  | .pad => "pad"
  | .reflect => "reflect"
  | .repeat_ => "repeat"

end SvgPage

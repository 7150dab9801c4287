import SvgPage.Css.Text

/-!
# Quantities

A percentage, or a number with a unit. Units measure lengths, angles, times and resolutions. Two
quantities are compared and added in a unit that serves both: their own if it is the same, pixels
for two absolute lengths, degrees for two angles.
-/

namespace SvgPage.Css

inductive Measure where
  | length
  | angle
  | time
  | resolution
  deriving DecidableEq, Repr

/-- Units of length that depend on a font or a viewport. -/
def relativeUnits : List String :=
  ["em", "rem", "ex", "rex", "ch", "rch", "cap", "rcap", "ic", "ric", "lh", "rlh", "vw", "lvw",
    "svw", "dvw", "cqw", "vh", "lvh", "svh", "dvh", "cqh", "vi", "svi", "lvi", "dvi", "cqi", "vb",
    "svb", "lvb", "dvb", "cqb", "vmin", "svmin", "lvmin", "dvmin", "cqmin", "vmax", "svmax",
    "lvmax", "dvmax", "cqmax"]

def pixelsIn? : String → Option Float32
  | "px" => some 1
  | "in" => some 96
  | "cm" => some (96 / 2.54)
  | "mm" => some (96 / 2.54 / 10)
  | "q" => some (96 / 2.54 / 40)
  | "pt" => some (96 / 72)
  | "pc" => some (96 / 6)
  | _ => none

def measureOf? (unit : String) : Option Measure :=
  if (pixelsIn? unit).isSome || relativeUnits.contains unit then some .length
  else if ["deg", "grad", "rad", "turn"].contains unit then some .angle
  else if ["s", "ms"].contains unit then some .time
  else if ["dpi", "dpcm", "x"].contains unit then some .resolution
  else none

inductive Quantity where
  /-- A share of something else, as a fraction of one. -/
  | percentage (fraction : Float32)
  | dimension (x : Float32) (unit : String)
  deriving BEq, Repr

namespace Quantity

/-- A number with a unit, whose name has one spelling. -/
def ofDimension? (x : Float32) (unit : String) : Option Quantity :=
  let unit := String.ofList (Text.lower unit.toList)
  let unit := if unit = "dppx" then "x" else unit
  (measureOf? unit).map fun _ => .dimension x unit

def measure? : Quantity → Option Measure
  | .percentage _ => none
  | .dimension _ unit => measureOf? unit

def amount : Quantity → Float32
  | .percentage f => f
  | .dimension x _ => x

def isZero (q : Quantity) : Bool := q.amount == 0

def withAmount (x : Float32) : Quantity → Quantity
  | .percentage _ => .percentage x
  | .dimension _ unit => .dimension x unit

def scale (k : Float32) (q : Quantity) : Quantity := q.withAmount (q.amount * k)

def pixels? : Quantity → Option Float32
  | .percentage _ => none
  | .dimension x unit => (pixelsIn? unit).map (x * ·)

def radian : Float32 := 180 / 3.14159265358979

def degrees? : Quantity → Option Float32
  | .dimension x "deg" => some x
  | .dimension x "grad" => some (x * 180 / 200)
  | .dimension x "rad" => some (x * radian)
  | .dimension x "turn" => some (x * 360)
  | _ => none

def radians? : Quantity → Option Float32
  | .dimension x "rad" => some x
  | q => q.degrees?.map (· * (3.14159265358979 / 180))

/-- Two quantities as numbers of one unit, with the way back. -/
def common? (p q : Quantity) : Option (Float32 × Float32 × (Float32 → Quantity)) :=
  match p, q with
  | .percentage a, .percentage b => some (a, b, .percentage)
  | .dimension a u, .dimension b v =>
    if u = v then some (a, b, (.dimension · u))
    else
      match p.pixels?, q.pixels?, p.degrees?, q.degrees? with
      | some a, some b, _, _ => some (a, b, (.dimension · "px"))
      | _, _, some a, some b => some (a, b, (.dimension · "deg"))
      | _, _, _, _ => none
  | _, _ => none

def combine? (f : Float32 → Float32 → Float32) (p q : Quantity) : Option Quantity :=
  (p.common? q).map fun (a, b, back) => back (f a b)

/-- Seconds are used where that is shorter. -/
def timeText (x : Float32) (unit : String) : List Char :=
  if unit = "s" then
    if 0 < x && x < 0.1 then numberText (x * 1000) ++ ['m', 's'] else numberText x ++ ['s']
  else if x == 0 || 100 ≤ x then numberText (x / 1000) ++ ['s']
  else numberText x ++ ['m', 's']

/-- The text with its unit. Radians are written as degrees. -/
def fullText : Quantity → List Char
  | .percentage f => percentText f
  | .dimension x unit =>
    if measureOf? unit = some .time then timeText x unit
    else if unit = "rad" && (x * radian * 100000).isFinite then dimensionText (x * radian) "deg"
    else dimensionText x unit

def text (q : Quantity) : List Char :=
  if q.measure? = some .length && q.isZero then ['0'] else q.fullText

/-- An angle, where one of zero may go without a unit. -/
def angleText (q : Quantity) : List Char := if q.isZero then ['0'] else q.fullText

end Quantity

end SvgPage.Css

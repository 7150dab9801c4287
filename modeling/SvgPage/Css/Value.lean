import SvgPage.Css.BasicShape
import SvgPage.Css.Filter
import SvgPage.Css.Font
import SvgPage.Css.Kept
import SvgPage.Css.Mask
import SvgPage.Css.TransformFunction

/-!
# Property values

A value that is valid for its property is written in one canonical way. A value that is not, or
whose property has no grammar here, keeps its tokens.
-/

namespace SvgPage.Css

def paint? : Reader (List Char) := fun cs =>
  match reference? cs with
  | some (u, rest) =>
    let alternative? : Reader (List Char) :=
      Reader.first [(keyword? ["none"]).map String.toList, color?.map Color.text]
    let (t, rest) := (alternative?.map (' ' :: ·)).orElse [] rest
    some (urlText u ++ t, rest)
  | none =>
    Reader.first
      [color?.map Color.text,
        (keyword? ["none", "context-fill", "context-stroke"]).map String.toList] cs

/-- An opacity is written as a number, also where a percentage is given. -/
def opacity? : Reader (List Char) := proportion?.map fun p => numberText p.value

def nextDash? : Reader Expression := fun cs =>
  lengthPercentage? (((comma? cs).map (·.2)).getD cs)

def dashes? : Reader (List Char) := fun cs =>
  match keyword? ["none"] cs with
  | some (w, rest) => some (w.toList, rest)
  | none =>
    (lengthPercentage? cs).map fun (first, rest) =>
      let (more, rest) := nextDash?.many rest
      (Text.join [' '] ((first :: more).map Expression.bareText), rest)

def words (ws : List String) : Reader (List Char) := (keyword? ws).map String.toList

def blendModes : List String :=
  ["normal", "multiply", "screen", "overlay", "darken", "lighten", "color-dodge", "color-burn",
    "hard-light", "soft-light", "difference", "exclusion", "hue", "saturation", "color",
    "luminosity", "plus-darker", "plus-lighter"]

/-- Words that every property understands. -/
def wideWords : List String := ["initial", "inherit", "unset", "revert", "revert-layer"]

def canonicalText? (property : String) (value : List Component) : Option (List Char) :=
  match property with
  | "fill" => paint?.whole? value
  | "stroke" => paint?.whole? value
  | "color" => (color?.map Color.text).whole? value
  | "opacity" => opacity?.whole? value
  | "fill-opacity" => opacity?.whole? value
  | "stroke-opacity" => opacity?.whole? value
  | "fill-rule" => (words ["nonzero", "evenodd"]).whole? value
  | "clip-rule" => (words ["nonzero", "evenodd"]).whole? value
  | "stroke-linecap" => (words ["butt", "round", "square"]).whole? value
  | "stroke-linejoin" => (words ["miter", "miter-clip", "round", "bevel", "arcs"]).whole? value
  | "stroke-width" => (lengthPercentage?.map Expression.text).whole? value
  | "stroke-dashoffset" => (lengthPercentage?.map Expression.text).whole? value
  | "stroke-dasharray" => dashes?.whole? value
  | "stroke-miterlimit" => (number?.map numberText).whole? value
  | "font-family" => familiesText? value
  | "font-size" => size?.whole? value
  | "font-weight" => weight?.whole? value
  | "font-style" => style?.whole? value
  | "mix-blend-mode" => (words blendModes).whole? value
  | "clip-path" => (Clipping.read?.map Clipping.text).whole? value
  | "mask" => maskText? value
  | "filter" => filterText? value
  | "transform" => transformText? value
  | _ => none

/-- A value as it is written for a property; none if it cannot stand for any. The property `all`
takes only words that every property understands. -/
def valueText? (property : String) (value : List Component) : Option (List Char) :=
  if property = "all" then (words wideWords).whole? value
  else (canonicalText? property value).or (keptText? value)

end SvgPage.Css

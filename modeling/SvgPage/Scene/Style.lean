import SvgPage.Scene.Context
import SvgPage.Scene.Node

/-!
# Reading styles

The painting and text properties of an element over those it inherits, and what its node carries
beside its contents.
-/

namespace SvgPage

/-- Dashes from a list of lengths: an odd list is doubled, and a list without a positive length
draws no gaps. -/
def readDashes? (cs : List Char) : Option (List Float) :=
  (Length.readList? cs).bind fun lengths =>
    if lengths.all (0 ≤ ·) then
      some (if lengths.length % 2 = 1 then lengths ++ lengths else lengths)
    else none

def isWordColor (raw word : String) : Bool := Text.sameIgnoringCase raw.toList word.toList

namespace Context

def currentColor (tag : String) (ps : Properties) (inherited : Color Float) :
    Except Problem (Color Float) :=
  (ps.read tag "color" fun raw =>
    if isWordColor raw "currentcolor" || raw == "inherit" then some inherited
    else Color.read? raw.toList).map (·.getD inherited)

def opacity (tag : String) (ps : Properties) (name : String) : Except Problem (Option Float) :=
  ps.read tag name fun raw => Opacity.read? raw.toList

def miterLimit? (raw : String) : Option Float :=
  (number? raw.toList).bind fun v => if 1 ≤ v then some v else none

def strokeWidth? (raw : String) : Option Float :=
  (Length.read? raw.toList).bind fun v => if 0 ≤ v then some v else none

/-- The dash pattern: absent, set to nothing, or set. It starts where the inherited one does. -/
def dashPattern (tag : String) (ps : Properties) (inherited : Option (Dash Float)) :
    Except Problem (Option (Dash Float)) :=
  match Shelf.get? ps "stroke-dasharray" with
  | none => .ok inherited
  | some raw =>
    if raw = "none" then .ok none
    else
      (required (.unsupportedAttribute tag "stroke-dasharray" raw) (readDashes? raw.toList)).map
        fun pattern =>
          if pattern.any (0 < ·) then some ⟨pattern, (inherited.map Dash.phase).getD 0⟩ else none

/-- The dashes, started at the offset that is set. -/
def dash (tag : String) (ps : Properties) (inherited : Option (Dash Float)) :
    Except Problem (Option (Dash Float)) := do
  let pattern ← dashPattern tag ps inherited
  let offset ← ps.read tag "stroke-dashoffset" fun raw => Length.read? raw.toList
  return match offset with
    | some phase => pattern.map fun d => { d with phase := phase }
    | none => pattern

def paintStyle (defs : Definitions Float) (tag : String) (ps : Properties)
    (inherited : PaintStyle Float) : Except Problem (PaintStyle Float) := do
  let color ← currentColor tag ps inherited.color
  let fill ← Paint.resolve defs tag "fill" (Shelf.get? ps "fill") inherited.fill color
  let stroke ← Paint.resolve defs tag "stroke" (Shelf.get? ps "stroke") inherited.stroke color
  let general ← opacity tag ps "opacity"
  let ofFill ← opacity tag ps "fill-opacity"
  let ofStroke ← opacity tag ps "stroke-opacity"
  let fillRule ← ps.read tag "fill-rule" FillRule.read?
  let strokeWidth ← ps.read tag "stroke-width" strokeWidth?
  let strokeJoin ← ps.read tag "stroke-linejoin" LineJoin.read?
  let strokeCap ← ps.read tag "stroke-linecap" LineCap.read?
  let limit ← ps.read tag "stroke-miterlimit" miterLimit?
  let dash ← dash tag ps inherited.dash
  return {
    fill := fill
    fillRule := fillRule.getD inherited.fillRule
    fillOpacity := (Opacity.resolve ofFill general).or inherited.fillOpacity
    stroke := stroke
    strokeWidth := strokeWidth.or inherited.strokeWidth
    strokeJoin := strokeJoin.or inherited.strokeJoin
    miterLimit := limit.or inherited.miterLimit
    dash := dash
    strokeCap := strokeCap.or inherited.strokeCap
    strokeOpacity := (Opacity.resolve ofStroke general).or inherited.strokeOpacity
    opacity := general.or inherited.opacity
    color := color }

def textAttributes (tag : String) (ps : Properties) (inherited : TextAttributes) :
    Except Problem TextAttributes := do
  let size ← ps.read tag "font-size" fun raw => readFontSize? raw.toList inherited.size
  return inherited.descend (Shelf.get? ps "font-family") (Shelf.get? ps "font-weight")
    (Shelf.get? ps "font-style") size

def reference (tag : String) (ps : Properties) (name : String) : Except Problem (Option String) :=
  match Shelf.get? ps name with
  | none => .ok none
  | some raw =>
    if raw = "none" then .ok none
    else (required (.unsupportedAttribute tag name raw) (Reference.id? raw.toList)).map some

def clip (defs : Definitions Float) (tag : String) (ps : Properties) (box : Option (Rect Float)) :
    Except Problem (Option (Clip Float)) := do
  match ← reference tag ps "clip-path" with
  | none => return none
  | some id =>
    let d ← defs.clipPath tag id
    let rule ← ps.read tag "clip-rule" FillRule.read?
    return some ⟨d.opsFor box, rule.getD (d.rule.getD .nonZero)⟩

/-- The definition that a property refers to, of the kind that a look-up gives. -/
def referred {β : Type} (lookup : String → String → Except Problem β) (tag : String)
    (ps : Properties) (name : String) : Except Problem (Option β) := do
  match ← reference tag ps name with
  | none => return none
  | some id => return some (← lookup tag id)

/-- A blend mode other than the normal one. -/
def blendMode (tag : String) (ps : Properties) : Except Problem (Option BlendMode) := do
  let mode ← ps.read tag "mix-blend-mode" BlendMode.read?
  return mode.filter (· != .normal)

/-- What a node carries, given the box of its contents. -/
def base (cx : Context) (h : Xml.Head) (ps : Properties) (box : Option (Rect Float)) :
    Except Problem (Base Float) := do
  let transform ← transform h "transform"
  let clip ← clip cx.definitions h.tag ps box
  let mask ← referred cx.definitions.mask h.tag ps "mask"
  let filter ← referred cx.definitions.filter h.tag ps "filter"
  let blendMode ← blendMode h.tag ps
  return ⟨transform, clip, mask, filter, blendMode⟩

end Context

end SvgPage

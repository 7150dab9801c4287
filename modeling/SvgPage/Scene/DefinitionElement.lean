import SvgPage.Scene.Outline
import SvgPage.Scene.Style

/-!
# Definition elements

Definitions are gathered from the whole document before anything is drawn, so a reference may come
before what it refers to. Gradients are registered last, when each has the stops it takes from
others.
-/

namespace SvgPage

namespace Context

open Xml

def coordOr (h : Head) (name : String) (otherwise : Coord Float) : Except Problem (Coord Float) :=
  (coord h name).map (·.getD otherwise)

def share (v : Float) : Coord Float := ⟨v, true⟩

def gradientShape (kind : ElementKind) (h : Head) : Except Problem (GradientShape Float) :=
  if kind = .linearGradient then do
    let x₁ ← coordOr h "x1" (share 0)
    let y₁ ← coordOr h "y1" (share 0)
    let x₂ ← coordOr h "x2" (share 1)
    let y₂ ← coordOr h "y2" (share 0)
    return .linear x₁ y₁ x₂ y₂
  else do
    let cx ← coordOr h "cx" (share 0.5)
    let cy ← coordOr h "cy" (share 0.5)
    let r ← coordOr h "r" (share 0.5)
    let fx ← coordOr h "fx" cx
    let fy ← coordOr h "fy" cy
    let fr ← coordOr h "fr" (share 0)
    return .radial cx cy r fx fy fr

def stop (cx : Context) (h : Head) : Except Problem (Stop Float) := do
  let ps := cx.properties h
  let offset ← h.read "offset" fun raw => Opacity.read? raw.toList
  let current ← ps.read "stop" "color" fun raw => Color.read? raw.toList
  let color ← ps.read "stop" "stop-color" fun raw =>
    if isWordColor raw "currentcolor" then some (current.getD .black) else Color.read? raw.toList
  let opacity ← opacity "stop" ps "stop-opacity"
  return ⟨offset.getD 0, color.getD .black, opacity.getD 1⟩

/-- A stop that does not come before a given offset. -/
def Stop.notBefore (least : Option Float) (s : Stop Float) : Stop Float :=
  match least with
  | some l => { s with offset := Scalar.maximum s.offset l }
  | none => s

/-- The stops of a gradient; offsets never decrease. -/
def stops (cx : Context) (tag : String) (least : Option Float) :
    List Element → Except Problem (List (Stop Float))
  | [] => .ok []
  | e :: rest => do
    let kind ← e.head.kind
    if kind = .stop then
      let s ← cx.stop e.head
      let s := Stop.notBefore least s
      let more ← cx.stops tag (some s.offset) rest
      return s :: more
    else if kind.isRemark then
      cx.passOver e.head (some tag)
      cx.stops tag least rest
    else .error (.unsupportedElement e.head.tag (some tag))

def linkedId? (h : Head) : Option String :=
  h.link?.bind fun s => (Text.after? ['#'] s.toList).map String.ofList

def gradient (cx : Context) (kind : ElementKind) (e : Element) :
    Except Problem (Gradient Float) := do
  let units ← units e.head "gradientUnits" .boundingBox
  let transform ← transform e.head "gradientTransform"
  let spread ← e.head.read "spreadMethod" Spread.read?
  let shape ← gradientShape kind e.head
  let stops ← cx.stops e.head.tag none e.inner
  return ⟨shape, units, transform, spread.getD .pad, stops, linkedId? e.head⟩

def clipPath (cx : Context) (e : Element) : Except Problem (ClipPath Float) := do
  let units ← units e.head "clipPathUnits" .userSpace
  let rule ← (cx.properties e.head).read "clipPath" "clip-rule" FillRule.read?
  let own ← transform e.head "transform"
  let ops ← cx.clipOutline e.head.tag (Matrix.compose own) e.inner
  return ⟨ops, units, rule⟩

def mask (cx : Context) (e : Element) : Except Problem (Mask Float) := do
  let ofRegion ← units e.head "maskUnits" .boundingBox
  let ofContent ← units e.head "maskContentUnits" .userSpace
  let region ← region e.head
  let ops ← cx.clipOutline e.head.tag .identity e.inner
  return ⟨region, ofRegion, ofContent, ops⟩

/-- A filter without effects; with any it is a problem. -/
def filter (e : Element) : Except Problem (Filter Float) :=
  match e.inner with
  | effect :: _ => .error (.unsupportedElement effect.head.tag (some "filter"))
  | [] => do
    let ofRegion ← units e.head "filterUnits" .boundingBox
    let ofContent ← units e.head "primitiveUnits" .userSpace
    let region ← region e.head
    return ⟨region, ofRegion, ofContent⟩

end Context

/-- A gradient that waits for the others. -/
structure PendingGradient where
  tag : String
  id : String
  gradient : Gradient Float

structure Gathering where
  definitions : Definitions Float
  pending : List PendingGradient

namespace Gathering

open Xml

def isPending (g : Gathering) (id : String) : Bool := g.pending.any (·.id == id)

def insert (g : Gathering) (tag id : String) (d : Definition Float) : Except Problem Gathering :=
  if g.isPending id then .error (.duplicateDefinition tag id)
  else (g.definitions.insert tag id d).map fun ds => { g with definitions := ds }

/-- Takes in an element, if it is a definition with an id. -/
def add (cx : Context) (g : Gathering) (e : Element) : Except Problem Gathering :=
  let tag := e.head.tag
  match e.head.kind, e.head.id? with
  | .ok .linearGradient, some id => ofGradient .linearGradient tag id
  | .ok .radialGradient, some id => ofGradient .radialGradient tag id
  | .ok .clipPath, some id => do g.insert tag id (.clipPath (← cx.clipPath e))
  | .ok .mask, some id => do g.insert tag id (.mask (← cx.mask e))
  | .ok .filter, some id => do g.insert tag id (.filter (← Context.filter e))
  | _, _ => .ok g
where
  ofGradient (kind : ElementKind) (tag id : String) : Except Problem Gathering :=
    if g.isPending id || g.definitions.contains id then .error (.duplicateDefinition tag id)
    else
      (cx.gradient kind e).map fun gradient =>
        { g with pending := g.pending ++ [⟨tag, id, gradient⟩] }

/-- Takes in elements up to the first problem. What was gathered before it stays. -/
def addAll (cx : Context) : Gathering → List Element → Except Problem Unit × Gathering
  | g, [] => (.ok (), g)
  | g, e :: rest =>
    match g.add cx e with
    | .ok g => addAll cx g rest
    | .error p => (.error p, g)

/-- The waiting gradients by id, with the stops they take from each other. -/
def gradients (g : Gathering) : GradientMap Float :=
  GradientMap.inheritStops (g.pending.map fun p => (p.id, p.gradient)) (g.pending.map (·.id))

def settle (g : Gathering) : Except Problem (Definitions Float) :=
  let gs := g.gradients
  g.pending.foldlM (fun ds p =>
    match gs.get? p.id with
    | some gradient => ds.insert p.tag p.id (.gradient gradient)
    | none => .ok ds) g.definitions

end Gathering

/-- The definitions of a document, or those registered before the first problem. -/
def gatherDefinitions (cx : Context) (root : Xml.Node) :
    Except Problem Unit × Definitions Float :=
  match Gathering.addAll cx ⟨cx.definitions, []⟩ root.elements with
  | (.error p, g) => (.error p, g.definitions)
  | (.ok _, g) =>
    match g.settle with
    | .ok ds => (.ok (), ds)
    | .error p => (.error p, g.definitions)

end SvgPage

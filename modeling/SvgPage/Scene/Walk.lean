import SvgPage.Embedding
import SvgPage.Scene.Outline
import SvgPage.Scene.Style
import SvgPage.Scene.TextSpace

/-!
# The visible tree

Elements become nodes in document order, the outermost first. Definitions and styles are no part of
the visible tree; of unsupported elements only the tag is looked at. Images are embedded on the way,
so the embedder's state survives a problem.
-/

namespace SvgPage

open Xml

/-- A reading that may fail but keeps a state. -/
abbrev Reading (σ β : Type) := ExceptT Problem (StateM σ) β

/-- What an element takes from those around it. -/
structure Inherited where
  paint : PaintStyle Float
  text : TextAttributes
  /-- The tag of the element around, if there is one. -/
  parent : Option String

namespace Context

mutual

/-- Checks that what stands in a definition list is known, and supported where that matters. Lists
and groups inside are looked into. -/
def checkDefs (cx : Context) : Xml.Node → Except Problem Unit
  | .element head children => do
    let kind ← head.kind
    if kind.isUnsupported then cx.passOver head (some "defs")
    else if kind = .defs ∨ kind = .group then cx.checkAllDefs children
    else return
  | _ => .ok ()

def checkAllDefs (cx : Context) : List Xml.Node → Except Problem Unit
  | [] => .ok ()
  | n :: ns => do
    cx.checkDefs n
    cx.checkAllDefs ns

end

def shape (cx : Context) (kind : ElementKind) (h : Head) (inherited : PaintStyle Float) :
    Except Problem (Shape Float) := do
  let ps := cx.properties h
  let ops ← cx.outline kind h
  let paint ← paintStyle cx.definitions h.tag ps inherited
  let base ← cx.base h ps (Path.bbox? ops)
  return ⟨ops, paint, base⟩

def truncated (s : String) : String := String.ofList (s.toList.take 64)

def imageData (h : Head) : Except Problem (ImageFormat × List UInt8) := do
  let raw := h.link?.getD ""
  let invalid : Problem := .unsupportedAttribute "image" "href" (truncated raw)
  let mime ← required invalid (DataUri.mime? raw.toList)
  if mime = "image/png" ∨ mime = "image/jpeg" ∨ mime = "image/jpg" then
    let data ← required invalid (DataUri.read? raw.toList)
    return (if mime = "image/png" then .png else .jpeg, data.bytes)
  else .error (.unsupportedImageType mime)

/-- An image in its box, which has the size in pixels where none is given. -/
def placeImage (cx : Context) (h : Head) (inherited : PaintStyle Float) (image : ImageHandle) :
    Except Problem (PlacedImage Float) := do
  let ps := cx.properties h
  let x ← cx.lengthOr h "x" .x 0
  let y ← cx.lengthOr h "y" .y 0
  let width ← cx.nonNegative h "width" .x
  let height ← cx.nonNegative h "height" .y
  let opacity ← opacity "image" ps "opacity"
  let box : Rect Float := ⟨x, y, width.getD image.width.toFloat, height.getD image.height.toFloat⟩
  let base ← cx.base h ps (some box)
  return ⟨image, box, opacity.or inherited.opacity, base⟩

/-- What a text element sets before its contents are read. -/
structure TextStart where
  properties : Properties
  paint : PaintStyle Float
  wanted : TextAttributes
  font : Font

def textStart (cx : Context) (h : Head) (paint : PaintStyle Float) (wanted : TextAttributes) :
    Except Problem TextStart := do
  let ps := cx.properties h
  let paint ← paintStyle cx.definitions h.tag ps paint
  let wanted ← textAttributes h.tag ps wanted
  let font ← cx.fonts.resolve h.tag wanted cx.strict
  return ⟨ps, paint, wanted, font⟩

/-- The style of a text, whose place is read after its contents. -/
def textStyle (cx : Context) (h : Head) (start : TextStart) : Except Problem (TextStyle Float) := do
  let x ← cx.firstPosition h "x" .x
  let y ← cx.firstPosition h "y" .y
  let base ← cx.base h start.properties none
  return {
    font := start.font
    size := start.wanted.size
    fill := start.paint.fill
    stroke := start.paint.stroke
    fillOpacity := start.paint.fillOpacity
    strokeOpacity := start.paint.strokeOpacity
    x := x
    y := y
    base := base }

/-- Elements in a text that are passed over. -/
def isTextRemark (k : ElementKind) : Bool :=
  [ElementKind.anchor, .title, .desc, .metadata].contains k

mutual

/-- The part that a node is in a text with a given tag and start. A text along a path is set as a
plain one where the policy allows it. -/
def textItem (cx : Context) (tag : String) (start : TextStart) :
    Xml.Node → Except Problem (Option (TextItem Float))
  | .text content => .ok (some (.literal (TextItem.collapse content)))
  | .element head children => do
    let kind ← head.kind
    if kind = .tspan ∨ kind = .textPath then
      if kind = .textPath then cx.passOver head (some tag)
      let inner ← cx.textStart head start.paint start.wanted
      let items ← cx.textItems head.tag inner children
      let style ← cx.textStyle head inner
      return some (.nested style items)
    else if isTextRemark kind then
      cx.passOver head (some tag)
      return none
    else .error (.unsupportedElement head.tag (some tag))
  | _ => .ok none

def textItems (cx : Context) (tag : String) (start : TextStart) :
    List Xml.Node → Except Problem (List (TextItem Float))
  | [] => .ok []
  | n :: ns => do
    let first ← cx.textItem tag start n
    let rest ← cx.textItems tag start ns
    return first.toList ++ rest

end

def text (cx : Context) (h : Head) (children : List Xml.Node) (inherited : Inherited) :
    Except Problem (Node Float) := do
  let start ← cx.textStart h inherited.paint inherited.text
  let items ← cx.textItems h.tag start children
  let style ← cx.textStyle h start
  return .text style (TextItem.tidy items)

def groupStart (cx : Context) (h : Head) (inherited : Inherited) : Except Problem Inherited := do
  let ps := cx.properties h
  let paint ← paintStyle cx.definitions h.tag ps inherited.paint
  let text ← textAttributes h.tag ps inherited.text
  return ⟨paint, text, some h.tag⟩

/-- A picture inside another one stands at a place of its own. -/
def nestedPlace (cx : Context) (h : Head) : Except Problem (List (Matrix Float)) := do
  let x ← cx.lengthOr h "x" .x 0
  let y ← cx.lengthOr h "y" .y 0
  return if x != 0 || y != 0 then [.translate x y] else []

/-- A group of nodes; `isNested` ones are pictures inside another one. -/
def groupEnd (cx : Context) (h : Head) (isNested : Bool) (paint : PaintStyle Float)
    (children : List (Node Float)) : Except Problem (Node Float) := do
  let box := (Node.group paint .plain children).bbox?
  let base ← cx.base h (cx.properties h) box
  let place ← if isNested then cx.nestedPlace h else .ok []
  return .group paint { base with transform := place ++ base.transform } children

variable {σ : Type}

def embedImage (e : Embedder σ) (format : ImageFormat) (bytes : List UInt8) :
    Reading σ ImageHandle := fun s =>
  match e.image format bytes s with
  | (some image, s) => (.ok image, s)
  | (none, s) => (.error .unusableImage, s)

/-- A reading that does not touch the state. -/
def settled {β : Type} (r : Except Problem β) : Reading σ β := fun s => (r, s)

def image (cx : Context) (e : Embedder σ) (h : Head) (inherited : PaintStyle Float) :
    Reading σ (PlacedImage Float) := do
  let (format, bytes) ← settled (imageData h)
  let image ← embedImage e format bytes
  settled (cx.placeImage h inherited image)

mutual

def node (cx : Context) (e : Embedder σ) (inherited : Inherited) :
    Xml.Node → Reading σ (Option (Node Float))
  | .element head children => do
    let kind ← settled head.kind
    if kind.isShape then
      let s ← settled (cx.shape kind head inherited.paint)
      return some (.shape s)
    else if kind = .image then
      let i ← cx.image e head inherited.paint
      return some (.image i)
    else if kind = .text then
      let t ← settled (cx.text head children inherited)
      return some t
    else if kind = .group ∨ kind = .svg then
      let start ← settled (cx.groupStart head inherited)
      let nodes ← cx.nodes e start children
      let isNested := kind == .svg && inherited.parent.isSome
      let g ← settled (cx.groupEnd head isNested start.paint nodes)
      return some g
    else if kind = .defs then
      settled (cx.checkAllDefs children)
      return none
    else if kind = .tspan ∨ kind = .textPath then
      settled (.error (.unsupportedElement head.tag inherited.parent))
    else if kind.isUnsupported then
      settled (cx.passOver head inherited.parent)
      return none
    else return none
  | _ => return none

def nodes (cx : Context) (e : Embedder σ) (inherited : Inherited) :
    List Xml.Node → Reading σ (List (Node Float))
  | [] => return []
  | n :: ns => do
    let first ← cx.node e inherited n
    let rest ← cx.nodes e inherited ns
    return first.toList ++ rest

end

end Context

end SvgPage

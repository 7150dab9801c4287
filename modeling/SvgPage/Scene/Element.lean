import SvgPage.Problem
import SvgPage.Xml.Node

/-!
# Elements

An element is known by its tag in the namespace of the format or in none. Elements of other
namespaces are foreign, whatever their tag; any other tag is a problem.
-/

namespace SvgPage

inductive ElementKind where
  | circle
  | ellipse
  | rect
  | line
  | polygon
  | polyline
  | path
  | image
  | text
  | tspan
  | textPath
  | svg
  | group
  | defs
  | clipPath
  | linearGradient
  | radialGradient
  | mask
  | filter
  | style
  | anchor
  | desc
  | marker
  | metadata
  | pattern
  | stop
  | symbol
  | title
  | use
  | filterPrimitive
  | foreign
  deriving DecidableEq, Repr

namespace ElementKind

def ofTag? (tag : String) : Option ElementKind :=
  match tag with
  | "circle" => some circle
  | "ellipse" => some ellipse
  | "rect" => some rect
  | "line" => some line
  | "polygon" => some polygon
  | "polyline" => some polyline
  | "path" => some path
  | "image" => some image
  | "text" => some text
  | "tspan" => some tspan
  | "textPath" => some textPath
  | "svg" => some svg
  | "g" => some group
  | "defs" => some defs
  | "clipPath" => some clipPath
  | "linearGradient" => some linearGradient
  | "radialGradient" => some radialGradient
  | "mask" => some mask
  | "filter" => some filter
  | "style" => some style
  | "a" => some anchor
  | "desc" => some desc
  | "marker" => some marker
  | "metadata" => some metadata
  | "pattern" => some pattern
  | "stop" => some stop
  | "symbol" => some symbol
  | "title" => some title
  | "use" => some use
  | _ =>
    match tag.toList with
    | 'f' :: 'e' :: _ :: _ => some filterPrimitive
    | _ => none

def isShape (k : ElementKind) : Bool :=
  [circle, ellipse, rect, line, polygon, polyline, path].contains k

def isClipShape (k : ElementKind) : Bool := [circle, ellipse, path, polygon, rect].contains k

def isRemark (k : ElementKind) : Bool := [title, desc, metadata, foreign].contains k

/-- Known elements that are never drawn. -/
def isUnsupported (k : ElementKind) : Bool :=
  [anchor, desc, marker, metadata, pattern, stop, symbol, title, use, filterPrimitive,
    foreign].contains k

def isDefinition (k : ElementKind) : Bool :=
  [clipPath, linearGradient, radialGradient, mask, filter].contains k

end ElementKind

namespace Xml

def svgSpace : String := "http://www.w3.org/2000/svg"

def xlinkSpace : String := "http://www.w3.org/1999/xlink"

namespace Head

def tag (h : Head) : String := h.name.name

def kind (h : Head) : Except Problem ElementKind :=
  if h.name.space.isSome && h.name.space != some svgSpace then .ok .foreign
  else
    match ElementKind.ofTag? h.tag with
    | some k => .ok k
    | none => .error (.unsupportedElement h.tag none)

def getFrom? (h : Head) (space : Option String) (name : String) : Option String :=
  (h.attributes.find? fun a => a.name == ⟨space, name⟩).map (·.value)

def get? (h : Head) (name : String) : Option String := h.getFrom? none name

def plainAttributes (h : Head) : List (String × String) :=
  (h.attributes.filter fun a => a.name.space.isNone).map fun a => (a.name.name, a.value)

def link? (h : Head) : Option String :=
  ((h.get? "href").or (h.getFrom? (some xlinkSpace) "href")).map fun s =>
    String.ofList (Text.trim s.toList)

/-- The id by which others refer to an element; a blank one is none. -/
def id? (h : Head) : Option String :=
  (h.get? "id").bind fun s =>
    let id := String.ofList (Text.trim s.toList)
    if id = "" then none else some id

def invalid (h : Head) (name value : String) : Problem := .unsupportedAttribute h.tag name value

end Head

structure Element where
  head : Head
  children : List Node

namespace Node

def element? : Node → Option Element
  | element head children => some ⟨head, children⟩
  | _ => none

mutual

def elements : Node → List Element
  | element head children => ⟨head, children⟩ :: elementsAmong children
  | _ => []

def elementsAmong : List Node → List Element
  | [] => []
  | n :: ns => elements n ++ elementsAmong ns

end

/-- The text of a node in a style element: its own, or that at the head of an element. -/
def styleText : Node → List Char
  | text content => content
  | comment content => content
  | element _ (text content :: _) => content
  | _ => []

end Node

namespace Element

def inner (e : Element) : List Element := e.children.filterMap Node.element?

end Element

end Xml

def required {β : Type} (problem : Problem) : Option β → Except Problem β
  | some b => .ok b
  | none => .error problem

end SvgPage

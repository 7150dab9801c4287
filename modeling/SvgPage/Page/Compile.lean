import SvgPage.Page.Resources

/-!
# From scene to page

Each node becomes a bracketed list: saved state, transform, clip, graphics state, contents, restored
state. So nothing that a node sets is left for its siblings.
-/

namespace SvgPage

namespace Drawing

variable {ρ : Type} [Registry ρ]

def path (ops : List (PathOp Float)) : List Operator := ops.map .ofPath

/-- Restricts drawing to the inside of an outline. -/
def clip (ops : List (PathOp Float)) (rule : FillRule) : List Operator :=
  path ops ++ [.clip rule, .endPath]

/-- The operator that sets a state, unless the state sets nothing. -/
def graphicsState (s : GraphicsState) : StateM ρ (List Operator) :=
  if s.isEmpty then return []
  else do
    let name ← Registry.allocateState s
    return [.graphicsState name]

/-- The clip of a node that has one. -/
def clipping : Option (Clip Float) → List Operator
  | some c => clip c.ops c.rule
  | none => []

/-- What every node begins with. The last transform listed is nearest to the contents. -/
def opening (base : Base Float) (s : GraphicsState) : StateM ρ (List Operator) := do
  let state ← graphicsState s
  return .push :: base.transform.map .concat ++ clipping base.clip ++ state

/-- The one colour of a paint: of a gradient, that of its first stop. -/
def soleColor? : Paint Float → Option (Color Float)
  | .solid c => some c
  | .gradient g => g.stops.head?.map Stop.color

/-- An opacity counts where there is something to paint. -/
def opacityOf (paint : Option (Paint Float)) (opacity : Option Float) : Option Float :=
  paint.bind fun _ => opacity

def shapeState (s : Shape Float) : GraphicsState :=
  ⟨opacityOf s.paint.fill s.paint.fillOpacity, opacityOf s.paint.stroke s.paint.strokeOpacity,
    s.base.blendMode⟩

def gradientFill (ops : List (PathOp Float)) (rule : FillRule) (g : Gradient Float) :
    StateM ρ (List Operator) :=
  match (Path.bbox? ops).bind g.place? with
  | none => return []
  | some placed => do
    let name ← Registry.allocateShading (.ofGradient placed.ramp g.stops)
    return .push :: clip ops rule ++ [.concat placed.matrix, .paintShading name, .pop]

def strokeSettings (paint : PaintStyle Float) (color : Color Float) : List Operator :=
  [.strokeColor color] ++ (paint.strokeWidth.map .lineWidth).toList ++
    (paint.strokeJoin.map .lineJoin).toList ++ (paint.miterLimit.map .miterLimit).toList ++
    (paint.strokeCap.map .lineCap).toList ++ (paint.dash.map .dash).toList

/-- The operator that ends an outline, painted or not. -/
def pathEnd (fills strokes : Bool) (rule : FillRule) : Operator :=
  match fills, strokes with
  | true, true => .fillStroke rule
  | true, false => .fill rule
  | false, true => .stroke
  | false, false => .endPath

def gradientOf (s : Shape Float) : StateM ρ (List Operator) :=
  match s.paint.fill with
  | some (.gradient g) => gradientFill s.ops s.paint.fillRule g
  | _ => return []

def solidFill? (paint : PaintStyle Float) : Option (Color Float) :=
  match paint.fill with
  | some (.solid c) => some c
  | _ => none

def outline (s : Shape Float) : List Operator :=
  let fill := solidFill? s.paint
  let stroke := s.paint.stroke.bind soleColor?
  (fill.map .fillColor).toList ++ (stroke.map (strokeSettings s.paint)).getD [] ++ path s.ops ++
    [pathEnd fill.isSome stroke.isSome s.paint.fillRule]

def shape (s : Shape Float) : StateM ρ (List Operator) := do
  let start ← opening s.base (shapeState s)
  let gradient ← gradientOf s
  return start ++ (gradient ++ outline s) ++ [.pop]

/-- The unit square is put over the box upside down, since rows of an image go down. -/
def image (i : PlacedImage Float) : StateM ρ (List Operator) := do
  let start ← opening i.base ⟨i.opacity, none, i.base.blendMode⟩
  let name ← Registry.allocateImage i.image
  return start ++ [.concat (.translate i.box.x (i.box.y + i.box.height)),
    .concat (.scale i.box.width (-i.box.height)), .drawImage name] ++ [.pop]

def textState (t : TextStyle Float) : GraphicsState :=
  ⟨opacityOf t.fill t.fillOpacity, opacityOf t.stroke t.strokeOpacity, t.base.blendMode⟩

/-- How glyphs are painted: filled, stroked, both, or neither. -/
def renderMode (fills strokes : Bool) : Nat :=
  match fills, strokes with
  | true, false => 0
  | false, true => 1
  | true, true => 2
  | false, false => 3

/-- One run of characters at a place. Its glyphs stand upright where `y` grows downwards. -/
def run (t : TextStyle Float) (font : String) (pen : Point Float) (characters : List Char) :
    List Operator :=
  let fill := t.fill.bind soleColor?
  let stroke := t.stroke.bind soleColor?
  let mode := renderMode fill.isSome stroke.isSome
  (fill.map .fillColor).toList ++ (stroke.map .strokeColor).toList ++
    [.beginText, .font font t.size] ++ (if mode = 0 then [] else [.renderMode mode]) ++
    [.textMatrix ⟨1, 0, 0, -1, pen.x, pen.y⟩, .showText (t.font.encode (String.ofList characters)),
      .endText]

def advance (t : TextStyle Float) (pen : Point Float) (characters : List Char) : Point Float :=
  { pen with x := pen.x + t.font.advance (String.ofList characters) * t.size }

def startPen (t : TextStyle Float) (pen : Point Float) : Point Float :=
  ⟨t.x.getD pen.x, t.y.getD pen.y⟩

/-- How far the writing of a text has come. -/
structure Cursor where
  pen : Point Float
  /-- The name of the font once it is needed, so a text without characters has none. -/
  font : Option String

/-- The name of the font of a text, given to it by its first run. -/
def fontName (t : TextStyle Float) : Option String → StateM ρ String
  | some name => return name
  | none => Registry.allocateFont t.font

mutual

def textItem (t : TextStyle Float) :
    TextItem Float → Cursor → StateM ρ (List Operator × Cursor)
  | .literal characters, c => do
    let name ← fontName t c.font
    return (run t name c.pen characters, ⟨advance t c.pen characters, some name⟩)
  | .nested inner items, c => do
    let start ← opening inner.base (textState inner)
    let (body, last) ← textItems inner items ⟨startPen inner c.pen, none⟩
    return (start ++ body ++ [.pop], { c with pen := last.pen })

def textItems (t : TextStyle Float) :
    List (TextItem Float) → Cursor → StateM ρ (List Operator × Cursor)
  | [], c => return ([], c)
  | i :: is, c => do
    let (first, c) ← textItem t i c
    let (rest, c) ← textItems t is c
    return (first ++ rest, c)

end

/-- A text of its own is written like one inside another, from the origin. -/
def text (t : TextStyle Float) (items : List (TextItem Float)) : StateM ρ (List Operator) := do
  let (ops, _) ← textItem t (.nested t items) ⟨⟨0, 0⟩, none⟩
  return ops

end Drawing

namespace Node

variable {ρ : Type} [Registry ρ]

mutual

/-- The operators of a node. Opacities of a group are those of its members already; only its blend
mode is its own. -/
def compile : Node Float → StateM ρ (List Operator)
  | .shape s => Drawing.shape s
  | .image i => Drawing.image i
  | .text t items => Drawing.text t items
  | .group _ base children => do
    let start ← Drawing.opening base ⟨none, none, base.blendMode⟩
    let body ← compileAll children
    return start ++ body ++ [.pop]

def compileAll : List (Node Float) → StateM ρ (List Operator)
  | [] => return []
  | n :: ns => do
    let first ← compile n
    let rest ← compileAll ns
    return first ++ rest

end

end Node

end SvgPage

import SvgPage.Scene.DefinitionElement
import SvgPage.Scene.Walk
import SvgPage.Style.StyleBlock

/-!
# Documents

A document is read in three rounds: style blocks, definitions, the visible tree. What the first two
register stays known when a later round fails.
-/

namespace SvgPage

open Xml

structure Document where
  root : Node Float
  viewBox : Option (Rect Float)
  size : Option (Size Float)

structure Registers where
  classes : ClassTable
  definitions : Definitions Float
  fonts : FontTable

/-- The result of reading a document, with all that is known and done by then. -/
structure Outcome (σ : Type) where
  result : Except Problem Document
  registers : Registers
  state : σ

/-- The state of the first round. -/
structure Desk (σ : Type) where
  classes : ClassTable
  fonts : FontTable
  state : σ

namespace StyleBlock

variable {σ : Type}

/-- The name by which an embedder may know a font. -/
def hint (face : FontFace) : String := face.family ++ " " ++ face.weight ++ " " ++ face.style

def embedFace (e : Embedder σ) (face : FontFace) : Reading (Desk σ) Unit := fun d =>
  match e.font face.bytes (hint face) d.state with
  | (some font, s) =>
    (.ok (), { d with fonts := d.fonts.insert face.family face.weight face.style font, state := s })
  | (none, s) => (.error (.unusableFont (hint face)), { d with state := s })

def embedFaces (e : Embedder σ) : List FontFace → Reading (Desk σ) Unit
  | [] => pure ()
  | face :: rest => do
    embedFace e face
    embedFaces e rest

def mergeClasses (t : ClassTable) (classes : List (String × Properties)) : ClassTable :=
  classes.foldl (fun t c => t.merge c.1 c.2) t

def apply (e : Embedder σ) (css : List Char) : Reading (Desk σ) Unit := fun d =>
  match read css with
  | .error fault => (.error (.malformedStyleBlock fault), d)
  | .ok block =>
    embedFaces e block.fontFaces { d with classes := mergeClasses d.classes block.classes }

def applyAll (e : Embedder σ) : List Element → Reading (Desk σ) Unit
  | [] => pure ()
  | element :: rest => do
    match element.head.kind with
    | .ok .style => apply e (element.children.flatMap Xml.Node.styleText)
    | _ => pure ()
    applyAll e rest

end StyleBlock

namespace Document

variable {σ : Type}

def rootElement (text : List Char) : Except Problem (Head × Xml.Node) :=
  match Xml.Node.read? text with
  | some (.element head children) =>
    match head.kind with
    | .ok .svg => .ok (head, .element head children)
    | .ok _ => .error (.unsupportedElement head.tag none)
    | .error p => .error p
  | _ => .error .malformedDocument

def size? (h : Head) : Option (Size Float) := do
  let width ← h.get? "width"
  let height ← h.get? "height"
  let w ← Length.read? width.toList
  let h ← Length.read? height.toList
  some ⟨w, h⟩

def frame (text : List Char) :
    Except Problem (Xml.Node × Option (Rect Float) × Option (Size Float)) := do
  let (head, root) ← rootElement text
  let viewBox ← head.read "viewBox" fun raw => ViewBox.read? raw.toList
  return (root, viewBox, size? head)

def scene (e : Embedder σ) (cx : Context) (fontSize : Float) (root : Xml.Node) :
    Reading σ (Node Float) := do
  match ← cx.node e ⟨.initial, .initial fontSize, none⟩ root with
  | some n => return n
  | none => Context.settled (.error .malformedDocument)

/-- Reads a document, with fonts that are there from the start. -/
def read (e : Embedder σ) (o : Options Float) (fonts : FontTable) (text : List Char) (state : σ) :
    Outcome σ :=
  match frame text with
  | .error p => ⟨.error p, ⟨.empty, .empty, fonts⟩, state⟩
  | .ok (root, viewBox, size) =>
    match StyleBlock.applyAll e root.elements ⟨.empty, fonts, state⟩ with
    | (.error p, d) => ⟨.error p, ⟨d.classes, .empty, d.fonts⟩, d.state⟩
    | (.ok _, d) =>
      let viewport := (viewBox.map fun b => ⟨b.width, b.height⟩).or size
      let cx : Context := ⟨o.strict, viewport, d.classes, .empty, d.fonts⟩
      match gatherDefinitions cx root with
      | (.error p, ds) => ⟨.error p, ⟨d.classes, ds, d.fonts⟩, d.state⟩
      | (.ok _, ds) =>
        let (result, state) := scene e { cx with definitions := ds } o.fontSize root d.state
        ⟨result.map fun n => ⟨n, viewBox, size⟩, ⟨d.classes, ds, d.fonts⟩, state⟩

end Document

end SvgPage

import SvgPage.Proofs.Page.Machine

/-!
# What a scene paints

The leaves of a scene paint in the order of the document. Each act stands inside the scopes on the
way to it, from the outermost in; a scope sets transforms, a cut and parameters for what is inside.
-/

namespace SvgPage

open Machine

/-- The colour of a paint where only one can be. A gradient gives that of its first stop. -/
def Paint.flat? : Paint Float → Option (Color Float)
  | .solid color => some color
  | .gradient g =>
    match g.stops with
    | stop :: _ => some stop.color
    | [] => none

/-- The alpha of a paint. Where nothing is painted there is none. -/
def Paint.alpha? : Option (Paint Float) → Option Float → Option Float
  | some _, alpha => alpha
  | none, _ => none

namespace PaintStyle

/-- The colour that an outline is filled with. A gradient is painted before the outline. -/
def fillColor? (paint : PaintStyle Float) : Option (Color Float) :=
  match paint.fill with
  | some (.solid color) => some color
  | some (.gradient _) | none => none

def strokeColor? (paint : PaintStyle Float) : Option (Color Float) := paint.stroke.bind Paint.flat?

end PaintStyle

namespace TextStyle

def fillColor? (t : TextStyle Float) : Option (Color Float) := t.fill.bind Paint.flat?

def strokeColor? (t : TextStyle Float) : Option (Color Float) := t.stroke.bind Paint.flat?

/-- The mode in which the characters of a text are to be shown. -/
def mode (t : TextStyle Float) : Nat :=
  match t.fillColor?, t.strokeColor? with
  | some _, none => 0
  | none, some _ => 1
  | some _, some _ => 2
  | none, none => 3

/-- Where the pen is at the start of a text, if it comes to it at a place. -/
def origin (t : TextStyle Float) (pen : Point Float) : Point Float :=
  ⟨t.x.getD pen.x, t.y.getD pen.y⟩

def after (t : TextStyle Float) (characters : List Char) (pen : Point Float) : Point Float :=
  ⟨pen.x + t.font.advance (String.ofList characters) * t.size, pen.y⟩

end TextStyle

namespace Drawing

theorem soleColor?_eq : soleColor? = Paint.flat? := by
  funext paint
  cases paint with
  | solid color => rfl
  | gradient g =>
    change g.stops.head?.map Stop.color = _
    unfold Paint.flat?
    dsimp only
    cases g.stops <;> rfl

theorem solidFill?_eq (paint : PaintStyle Float) : solidFill? paint = paint.fillColor? := by
  unfold solidFill? PaintStyle.fillColor?
  cases paint.fill with
  | none => rfl
  | some fill => cases fill <;> rfl

theorem opacityOf_eq (paint : Option (Paint Float)) (opacity : Option Float) :
    opacityOf paint opacity = Paint.alpha? paint opacity := by
  cases paint <;> rfl

theorem renderMode_eq (t : TextStyle Float) :
    renderMode t.fillColor?.isSome t.strokeColor?.isSome = t.mode := by
  unfold TextStyle.mode
  cases t.fillColor? <;> cases t.strokeColor? <;> rfl

theorem outline_eq (s : Shape Float) : outline s =
    (s.paint.fillColor?.map .fillColor).toList ++
      ((s.paint.strokeColor?.map (strokeSettings s.paint)).getD [] ++
        (path s.ops ++ [pathEnd s.paint.fillColor?.isSome s.paint.strokeColor?.isSome
          s.paint.fillRule])) := by
  simp only [outline, solidFill?_eq, soleColor?_eq, List.append_assoc]
  rfl

theorem run_eq (t : TextStyle Float) (font : String) (pen : Point Float) (characters : List Char) :
    run t font pen characters =
      (t.fillColor?.map .fillColor).toList ++ (t.strokeColor?.map .strokeColor).toList ++
        ([.beginText, .font font t.size] ++ (if t.mode = 0 then [] else [.renderMode t.mode]) ++
          [.textMatrix ⟨1, 0, 0, -1, pen.x, pen.y⟩,
            .showText (t.font.encode (String.ofList characters)), .endText]) := by
  simp only [run, soleColor?_eq, List.append_assoc]
  rw [← renderMode_eq]
  rfl

end Drawing

/-- Parameters of painting; what is absent stays as it is. -/
structure Settings where
  fillColor : Option (Color Float) := none
  strokeColor : Option (Color Float) := none
  lineWidth : Option Float := none
  lineJoin : Option LineJoin := none
  miterLimit : Option Float := none
  lineCap : Option LineCap := none
  dash : Option (Dash Float) := none
  font : Option (Font × Float) := none
  renderMode : Option Nat := none

namespace Settings

/-- Fill and stroke colour of an outline, and the settings of the line if there is one. -/
def ofShape (paint : PaintStyle Float) : Settings :=
  match paint.strokeColor? with
  | none => { fillColor := paint.fillColor? }
  | some color =>
    { fillColor := paint.fillColor?
      strokeColor := some color
      lineWidth := paint.strokeWidth
      lineJoin := paint.strokeJoin
      miterLimit := paint.miterLimit
      lineCap := paint.strokeCap
      dash := paint.dash }

/-- What a run of characters sets inside its brackets. The mode is set only if it is not to fill
alone. -/
def ofGlyphs (t : TextStyle Float) : Settings :=
  { font := some (t.font, t.size)
    renderMode := if t.mode = 0 then none else some t.mode }

/-- What a run of characters sets. -/
def ofRun (t : TextStyle Float) : Settings :=
  { ofGlyphs t with fillColor := t.fillColor?, strokeColor := t.strokeColor? }

end Settings

/-- What holds for everything inside: transforms, then a cut, then parameters. -/
structure Scope where
  transform : List (Matrix Float) := []
  clip : Option (Clip Float) := none
  graphics : GraphicsState := ⟨none, none, none⟩
  settings : Settings := {}

namespace Scope

def ofNode (base : Base Float) (g : GraphicsState) : Scope :=
  { transform := base.transform, clip := base.clip, graphics := g }

def ofShape (s : Shape Float) : Scope :=
  ofNode s.base ⟨Paint.alpha? s.paint.fill s.paint.fillOpacity,
    Paint.alpha? s.paint.stroke s.paint.strokeOpacity, s.base.blendMode⟩

def ofText (t : TextStyle Float) : Scope :=
  ofNode t.base ⟨Paint.alpha? t.fill t.fillOpacity, Paint.alpha? t.stroke t.strokeOpacity,
    t.base.blendMode⟩

def ofRun (t : TextStyle Float) : Scope := { settings := .ofRun t }

end Scope

namespace Machine.State

def adopt (p : Settings) (s : State) : State :=
  { s with
    fillColor := p.fillColor.getD s.fillColor
    strokeColor := p.strokeColor.getD s.strokeColor
    lineWidth := p.lineWidth.getD s.lineWidth
    lineJoin := p.lineJoin.getD s.lineJoin
    miterLimit := p.miterLimit.getD s.miterLimit
    lineCap := p.lineCap.getD s.lineCap
    dash := p.dash.getD s.dash
    font := p.font.or s.font
    renderMode := p.renderMode.getD s.renderMode }

def cutToClip (clip : Option (Clip Float)) (s : State) : State :=
  match clip with
  | some c => s.cutTo c.ops c.rule
  | none => s

def enter (s : State) (f : Scope) : State :=
  (((s.through f.transform).cutToClip f.clip).impose f.graphics).adopt f.settings

theorem through_nil (s : State) : s.through [] = s := by simp [through]

@[simp] theorem enter_transform (s : State) (ms : List (Matrix Float)) :
    s.enter { transform := ms } = s.through ms := rfl

@[simp] theorem enter_clip (s : State) (c : Clip Float) :
    s.enter { clip := some c } = s.cutTo c.ops c.rule := by
  change (s.through []).cutTo c.ops c.rule = _
  rw [through_nil]

@[simp] theorem enter_settings (s : State) (p : Settings) :
    s.enter { settings := p } = s.adopt p := by
  change (s.through []).adopt p = _
  rw [through_nil]

end Machine.State

/-- An act with the scopes around it, from the outermost in. -/
structure Painting where
  act : Act
  lineage : List Scope

namespace Painting

def within (f : Scope) (p : Painting) : Painting := { p with lineage := f :: p.lineage }

def mark (s : State) (p : Painting) : Mark := ⟨p.act, p.lineage.foldl State.enter s⟩

@[simp] theorem map_mark_within (s : State) (f : Scope) (ps : List Painting) :
    (ps.map (within f)).map (mark s) = ps.map (mark (s.enter f)) := by
  rw [List.map_map]
  rfl

end Painting

namespace Shape

def gradientPainting (s : Shape Float) (g : Gradient Float) (placed : PlacedGradient Float) :
    Painting :=
  ⟨.shading (.ofGradient placed.ramp g.stops),
    [{ clip := some ⟨s.ops, s.paint.fillRule⟩ }, { transform := [placed.matrix] }]⟩

def gradientPaintings (s : Shape Float) : List Painting :=
  match s.paint.fill with
  | some (.gradient g) =>
    match (Path.bbox? s.ops).bind g.place? with
    | some placed => [s.gradientPainting g placed]
    | none => []
  | _ => []

def outlineAct? (s : Shape Float) : Option Act :=
  match s.paint.fillColor?, s.paint.strokeColor? with
  | some _, some _ => some (.fillStroke s.ops s.paint.fillRule)
  | some _, none => some (.fill s.ops s.paint.fillRule)
  | none, some _ => some (.stroke s.ops)
  | none, none => none

def outlinePaintings (s : Shape Float) : List Painting :=
  s.outlineAct?.toList.map fun act => ⟨act, [{ settings := .ofShape s.paint }]⟩

def paintings (s : Shape Float) : List Painting :=
  (s.gradientPaintings ++ s.outlinePaintings).map (.within (.ofShape s))

end Shape

/-- An image fills the unit square, which is put over its box. -/
def PlacedImage.paintings (i : PlacedImage Float) : List Painting :=
  [⟨.image i.image,
    [.ofNode i.base ⟨i.opacity, none, i.base.blendMode⟩,
      { transform := [.translate i.box.x (i.box.y + i.box.height),
          .scale i.box.width (-i.box.height)] }]⟩]

structure Run where
  /-- The texts around it, from the outermost to its own; each with whether it has shown characters
  of its own before. -/
  around : List (TextStyle Float × Bool)
  style : TextStyle Float
  characters : List Char
  pen : Point Float

namespace Run

def within (t : TextStyle Float) (shown : Bool) (r : Run) : Run :=
  { r with around := (t, shown) :: r.around }

/-- The scopes of a text: what its own runs have set stays set. -/
def scopesOf (t : TextStyle Float) (shown : Bool) : List Scope :=
  .ofText t :: if shown then [.ofRun t] else []

def painting (r : Run) : Painting :=
  ⟨.glyphs (r.style.font.encode (String.ofList r.characters)) ⟨1, 0, 0, -1, r.pen.x, r.pen.y⟩,
    r.around.flatMap (fun p => scopesOf p.1 p.2) ++ [.ofRun r.style]⟩

/-- The mark that a run leaves when its outermost text starts from a state. -/
def mark (s : State) (r : Run) : Mark := r.painting.mark s

end Run

namespace TextItem

def isLiteral : TextItem Float → Bool
  | literal _ => true
  | nested .. => false

mutual

def endPen (t : TextStyle Float) (pen : Point Float) : TextItem Float → Point Float
  | literal characters => t.after characters pen
  | nested inner items => endPens inner (inner.origin pen) items

def endPens (t : TextStyle Float) (pen : Point Float) : List (TextItem Float) → Point Float
  | [] => pen
  | i :: is => endPens t (endPen t pen i) is

end

mutual

/-- The runs in a part of a text that has shown characters before, or has not. -/
def runs (t : TextStyle Float) (shown : Bool) (pen : Point Float) : TextItem Float → List Run
  | literal characters => [⟨[(t, shown)], t, characters, pen⟩]
  | nested inner items => (runsOf inner false (inner.origin pen) items).map (.within t shown)

def runsOf (t : TextStyle Float) (shown : Bool) (pen : Point Float) :
    List (TextItem Float) → List Run
  | [] => []
  | i :: is => runs t shown pen i ++ runsOf t (shown || i.isLiteral) (i.endPen t pen) is

end

end TextItem

def TextStyle.runs (t : TextStyle Float) (items : List (TextItem Float)) : List Run :=
  TextItem.runsOf t false (t.origin ⟨0, 0⟩) items

namespace Node

mutual

def paintings : Node Float → List Painting
  | shape s => s.paintings
  | image i => i.paintings
  | text t items => (t.runs items).map Run.painting
  | group _ base children =>
    (paintingsOf children).map (.within (.ofNode base ⟨none, none, base.blendMode⟩))

def paintingsOf : List (Node Float) → List Painting
  | [] => []
  | n :: ns => paintings n ++ paintingsOf ns

end

end Node

end SvgPage

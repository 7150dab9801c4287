import SvgPage.Page.Compile
import SvgPage.Proofs.Page.Names

/-!
# A machine that draws pages

The machine goes through the operators of a page with a graphics state and the states that were
saved. Transforms and cuts are kept as lists, so the state tells how each mark came to its place.
Names are looked up in the resources of the finished page.
-/

namespace SvgPage.Machine

/-- An outline that painting is cut to. -/
structure Cut where
  outline : List (PathOp Float)
  rule : FillRule
  /-- The transforms when it was set. -/
  space : List (Matrix Float)

/-- What is saved and restored as a whole. Font and mode of text belong to it. -/
structure State where
  /-- The last transform is the nearest to what is drawn. -/
  space : List (Matrix Float)
  cuts : List Cut
  fillColor : Color Float
  strokeColor : Color Float
  lineWidth : Float
  lineJoin : LineJoin
  miterLimit : Float
  lineCap : LineCap
  dash : Dash Float
  fillOpacity : Float
  strokeOpacity : Float
  blendMode : BlendMode
  font : Option (Font × Float)
  renderMode : Nat

namespace State

def initial : State where
  space := []
  cuts := []
  fillColor := .black
  strokeColor := .black
  lineWidth := 1
  lineJoin := .miter
  miterLimit := 10
  lineCap := .butt
  dash := ⟨[], 0⟩
  fillOpacity := 1
  strokeOpacity := 1
  blendMode := .normal
  font := none
  renderMode := 0

def through (ms : List (Matrix Float)) (s : State) : State := { s with space := s.space ++ ms }

def cutTo (outline : List (PathOp Float)) (rule : FillRule) (s : State) : State :=
  { s with cuts := s.cuts ++ [⟨outline, rule, s.space⟩] }

/-- What a graphics state leaves out stays as it was. -/
def impose (g : GraphicsState) (s : State) : State :=
  { s with
    fillOpacity := g.fillOpacity.getD s.fillOpacity
    strokeOpacity := g.strokeOpacity.getD s.strokeOpacity
    blendMode := g.blendMode.getD s.blendMode }

end State

inductive Act where
  | fill (outline : List (PathOp Float)) (rule : FillRule)
  | stroke (outline : List (PathOp Float))
  | fillStroke (outline : List (PathOp Float)) (rule : FillRule)
  | image (i : ImageHandle)
  | shading (s : Shading)
  | glyphs (bytes : List UInt8) (matrix : Matrix Float)

structure Mark where
  act : Act
  state : State

structure Config where
  state : State
  saved : List State
  outline : List (PathOp Float)
  /-- The rule of a cut that waits for the end of the outline. -/
  waiting : Option FillRule
  /-- Inside a text: where the next glyphs go, if that is known. -/
  text : Option (Option (Matrix Float))
  marks : List Mark

namespace Config

/-- Neither in an outline nor in a text. -/
def idle (s : State) (saved : List State) (marks : List Mark) : Config :=
  ⟨s, saved, [], none, none, marks⟩

def update (f : State → State) (c : Config) : Config := { c with state := f c.state }

def draw (o : PathOp Float) (c : Config) : Config := { c with outline := c.outline ++ [o] }

def mark (a : Act) (c : Config) : Config := { c with marks := c.marks ++ [⟨a, c.state⟩] }

/-- The outline ends, and a cut that waited for it holds from now on. -/
def finish (c : Config) : Config :=
  { c with
    state := match c.waiting with
      | some rule => c.state.cutTo c.outline rule
      | none => c.state
    outline := []
    waiting := none }

end Config

/-- One operator. There is no step on a name without entry, at a restore with nothing saved, or
where an operator of text is out of place. After glyphs the place of the next is not known. -/
def step (r : Resources) (c : Config) : Operator → Option Config
  | .push => some { c with saved := c.state :: c.saved }
  | .pop =>
    match c.saved with
    | s :: saved => some { c with state := s, saved := saved }
    | [] => none
  | .concat m => some (c.update (.through [m]))
  | .moveTo p => some (c.draw (.moveTo p))
  | .lineTo p => some (c.draw (.lineTo p))
  | .curveTo c₁ c₂ p => some (c.draw (.curveTo c₁ c₂ p))
  | .closePath => some (c.draw .close)
  | .clip rule => some { c with waiting := some rule }
  | .endPath => some c.finish
  | .graphicsState name => (r.states.find? name).map fun g => c.update (.impose g)
  | .fillColor color => some (c.update fun s => { s with fillColor := color })
  | .strokeColor color => some (c.update fun s => { s with strokeColor := color })
  | .lineWidth w => some (c.update fun s => { s with lineWidth := w })
  | .lineJoin join => some (c.update fun s => { s with lineJoin := join })
  | .miterLimit limit => some (c.update fun s => { s with miterLimit := limit })
  | .lineCap cap => some (c.update fun s => { s with lineCap := cap })
  | .dash d => some (c.update fun s => { s with dash := d })
  | .fill rule => some (c.mark (.fill c.outline rule)).finish
  | .stroke => some (c.mark (.stroke c.outline)).finish
  | .fillStroke rule => some (c.mark (.fillStroke c.outline rule)).finish
  | .beginText =>
    match c.text with
    | none => some { c with text := some (some .identity) }
    | some _ => none
  | .endText => c.text.map fun _ => { c with text := none }
  | .font name size => (r.fonts.find? name).map fun f => c.update fun s =>
      { s with font := some (f, size) }
  | .textMatrix m => c.text.map fun _ => { c with text := some (some m) }
  | .renderMode mode => some (c.update fun s => { s with renderMode := mode })
  | .showText bytes =>
    match c.text with
    | some (some m) => some { c.mark (.glyphs bytes m) with text := some none }
    | _ => none
  | .drawImage name => (r.images.find? name).map fun i => c.mark (.image i)
  | .paintShading name => (r.shadings.find? name).map fun s => c.mark (.shading s)

def run (r : Resources) (c : Config) (ops : List Operator) : Option Config := ops.foldlM (step r) c

section

variable (r : Resources) (c : Config)

@[simp] theorem run_nil : run r c [] = some c := rfl

@[simp] theorem run_cons (op : Operator) (ops : List Operator) :
    run r c (op :: ops) = (step r c op).bind fun c' => run r c' ops := rfl

@[simp] theorem run_append (ops ops' : List Operator) :
    run r c (ops ++ ops') = (run r c ops).bind fun c' => run r c' ops' := by
  simp [run, List.foldlM_append]

end

/-- Operators that take the machine from one state to another and leave some marks, whatever was
saved and marked before. -/
def Draws (r : Resources) (ops : List Operator) (s t : State) (new : List Mark) : Prop :=
  ∀ saved marks, run r (.idle s saved marks) ops = some (.idle t saved (marks ++ new))

namespace Draws

variable {r : Resources} {ops ops' : List Operator} {s t u : State} {new new' : List Mark}

theorem nil (s : State) : Draws r [] s s [] := fun _ _ => by simp

theorem append (h : Draws r ops s t new) (h' : Draws r ops' t u new') :
    Draws r (ops ++ ops') s u (new ++ new') := fun saved marks => by
  simp [h saved marks, h' saved (marks ++ new)]

/-- Between saved and restored state nothing leaks out but marks. -/
theorem bracket (h : Draws r ops s t new) : Draws r (.push :: ops ++ [.pop]) s s new :=
  fun saved marks => by
    have inner := h (s :: saved) marks
    simp only [Config.idle] at inner
    simp [step, Config.idle, inner]

theorem update {op : Operator} {f : State → State}
    (h : ∀ c : Config, step r c op = some (c.update f)) (s : State) : Draws r [op] s (f s) [] :=
  fun saved marks => by simp [h, Config.idle, Config.update]

theorem mark {op : Operator} {a : Act} (h : ∀ c : Config, step r c op = some (c.mark a))
    (s : State) : Draws r [op] s s [⟨a, s⟩] :=
  fun saved marks => by simp [h, Config.idle, Config.mark]

theorem run_path (r : Resources) (c : Config) (path : List (PathOp Float)) :
    run r c (Drawing.path path) = some { c with outline := c.outline ++ path } := by
  induction path generalizing c with
  | nil => simp [Drawing.path]
  | cons o path ih =>
    have drawn : step r c (.ofPath o) = some (c.draw o) := by cases o <;> rfl
    calc run r c (Drawing.path (o :: path))
        = run r (c.draw o) (Drawing.path path) := by simp [Drawing.path, drawn]
      _ = some { c with outline := c.outline ++ o :: path } := by simp [ih, Config.draw]

theorem clip (path : List (PathOp Float)) (rule : FillRule) (s : State) :
    Draws r (Drawing.clip path rule) s (s.cutTo path rule) [] := fun saved marks => by
  simp [Drawing.clip, run_path, step, Config.finish, Config.idle]

theorem concats (ms : List (Matrix Float)) (s : State) :
    Draws r (ms.map .concat) s (s.through ms) [] := by
  induction ms generalizing s with
  | nil => simpa [State.through] using nil s
  | cons m ms ih =>
    have first : Draws r [.concat m] s (s.through [m]) [] := update (fun _ => rfl) s
    simpa [State.through] using first.append (ih _)

end Draws

end SvgPage.Machine

import SvgPage.Page.Compile
import SvgPage.Proofs.Page.Requests

/-!
# What a scene uses

A scene uses resources in the order in which its operators name them. Compiling it makes a request
for each use and does nothing else to the tables. A text asks for its font only once; asking again
for each run would give the same name, so the two cannot be told apart.
-/

namespace SvgPage

open Drawing

def Operator.resource? : Operator → Option ResourceName
  | .graphicsState name => some (.state name)
  | .font name _ => some (.font name)
  | .drawImage name => some (.image name)
  | .paintShading name => some (.shading name)
  | _ => none

def resourceNames (ops : List Operator) : List ResourceName := ops.filterMap Operator.resource?

section

variable (op : Operator) (ops ops' : List Operator)

@[simp] theorem resourceNames_nil : resourceNames [] = [] := rfl

@[simp] theorem resourceNames_cons :
    resourceNames (op :: ops) = op.resource?.toList ++ resourceNames ops := by
  cases named : op.resource? with
  | none => exact List.filterMap_cons_none named
  | some name => exact List.filterMap_cons_some named

@[simp] theorem resourceNames_append :
    resourceNames (ops ++ ops') = resourceNames ops ++ resourceNames ops' :=
  List.filterMap_append

theorem resourceNames_eq_nil {ops : List Operator} (h : ∀ op ∈ ops, op.resource? = none) :
    resourceNames ops = [] :=
  List.filterMap_eq_nil_iff.mpr h

theorem resourceNames_option {α : Type} {f : α → Operator} (h : ∀ a, (f a).resource? = none)
    (o : Option α) : resourceNames (o.map f).toList = [] := by
  cases o with
  | none => rfl
  | some a => simp [h]

end

open Resources (Request)

def GraphicsState.uses (s : GraphicsState) : List Request :=
  if s.isEmpty then [] else [.state s]

def Shape.gradientUses (s : Shape Float) : List Request :=
  match s.paint.fill with
  | some (.gradient g) =>
    ((Path.bbox? s.ops).bind g.place?).toList.map fun placed =>
      .shading (.ofGradient placed.ramp g.stops)
  | _ => []

def Shape.uses (s : Shape Float) : List Request := (shapeState s).uses ++ s.gradientUses

def PlacedImage.uses (i : PlacedImage Float) : List Request :=
  GraphicsState.uses ⟨i.opacity, none, i.base.blendMode⟩ ++ [.image i.image]

mutual

def TextItem.uses (t : TextStyle Float) : TextItem Float → List Request
  | .literal _ => [.font t.font]
  | .nested inner items => (textState inner).uses ++ TextItem.usesOf inner items

def TextItem.usesOf (t : TextStyle Float) : List (TextItem Float) → List Request
  | [] => []
  | i :: is => i.uses t ++ TextItem.usesOf t is

end

mutual

def Node.uses : Node Float → List Request
  | .shape s => s.uses
  | .image i => i.uses
  | .text t items => (TextItem.nested t items).uses t
  | .group _ base children => GraphicsState.uses ⟨none, none, base.blendMode⟩ ++ usesOf children

def Node.usesOf : List (Node Float) → List Request
  | [] => []
  | n :: ns => n.uses ++ usesOf ns

end

open Resources

/-- From resources with a property, a computation makes some requests; its result goes with the
names that they are given and with the resources after them. -/
def Asks {α : Type} (pre : Resources → Prop) (qs : List Request)
    (post : List ResourceName → Resources → α → Prop) (m : StateM Resources α) : Prop :=
  ∀ r, pre r → (m r).2 = (serveAll qs r).2 ∧ post (serveAll qs r).1 (m r).2 (m r).1

namespace Asks

variable {α β : Type} {pre : Resources → Prop} {qs qs' : List Request}
  {post : List ResourceName → Resources → α → Prop}
  {post' : List ResourceName → Resources → β → Prop}

theorem pure {a : α} (h : ∀ r, pre r → post [] r a) :
    Asks pre [] post (pure a : StateM Resources α) :=
  fun r hr => ⟨rfl, h r hr⟩

theorem bind {m : StateM Resources α} {f : α → StateM Resources β} (hm : Asks pre qs post m)
    (hf : ∀ names a, Asks (fun r => post names r a) qs'
      (fun names' r b => post' (names ++ names') r b) (f a)) :
    Asks pre (qs ++ qs') post' (m >>= f) := by
  intro r hr
  obtain ⟨middle, first⟩ := hm r hr
  obtain ⟨last, second⟩ := hf _ (m r).1 (m r).2 first
  rw [serveAll_append, ← middle]
  exact ⟨last, second⟩

theorem frame {m : StateM Resources α} {inv : Resources → Prop} (hm : Asks pre qs post m)
    (stable : ∀ r, inv r → inv (serveAll qs r).2) :
    Asks (fun r => pre r ∧ inv r) qs (fun names r a => post names r a ∧ inv r) m := by
  intro r hr
  obtain ⟨after, result⟩ := hm r hr.1
  refine ⟨after, result, ?_⟩
  rw [after]
  exact stable r hr.2

theorem assume {m : StateM Resources α} {p : Prop} (h : p → Asks pre qs post m) :
    Asks (fun r => p ∧ pre r) qs post m :=
  fun r hr => h hr.1 r hr.2

theorem mono {m : StateM Resources α} {pre' : Resources → Prop}
    {post' : List ResourceName → Resources → α → Prop} (hm : Asks pre qs post m)
    (before : ∀ r, pre' r → pre r) (after : ∀ names r a, post names r a → post' names r a) :
    Asks pre' qs post' m :=
  fun r hr => ⟨(hm r (before r hr)).1, after _ _ _ (hm r (before r hr)).2⟩

theorem map {m : StateM Resources α} {f : α → β} (hm : Asks pre qs post m)
    (h : ∀ names r a, post names r a → post' names r (f a)) :
    Asks pre qs post' (m >>= fun a => Pure.pure (f a)) :=
  fun r hr => ⟨(hm r hr).1, h _ _ _ (hm r hr).2⟩

theorem serve (q : Request) :
    Asks (fun _ => True) [q] (fun names _ name => names = [q.named name]) (serve q) :=
  fun _ _ => ⟨rfl, rfl⟩

end Asks

/-- Operators that name just what is given to some requests. -/
def Names (qs : List Request) (m : StateM Resources (List Operator)) : Prop :=
  Asks (fun _ => True) qs (fun names _ ops => resourceNames ops = names) m

namespace Names

variable {qs qs' : List Request} {m : StateM Resources (List Operator)}

theorem pure {ops : List Operator} (h : resourceNames ops = []) :
    Names [] (pure ops) := Asks.pure fun _ _ => h

theorem map {f : List Operator → List Operator} (hm : Names qs m)
    (h : ∀ ops, resourceNames (f ops) = resourceNames ops) :
    Names qs (m >>= fun ops => Pure.pure (f ops)) :=
  Asks.map hm fun _ _ ops hops => (h ops).trans hops

theorem bind {α : Type} {f : List Operator → StateM Resources α}
    {post : List ResourceName → Resources → α → Prop} (hm : Names qs m)
    (hf : ∀ ops, Asks (fun _ => True) qs'
      (fun names r a => post (resourceNames ops ++ names) r a) (f ops)) :
    Asks (fun _ => True) (qs ++ qs') post (m >>= f) := by
  refine Asks.bind hm fun names ops r named => ?_
  cases named
  exact hf ops r trivial

theorem append {m' : StateM Resources (List Operator)}
    {f : List Operator → List Operator → List Operator} (hm : Names qs m) (hm' : Names qs' m')
    (h : ∀ ops ops', resourceNames (f ops ops') = resourceNames ops ++ resourceNames ops') :
    Names (qs ++ qs') (m >>= fun ops => m' >>= fun ops' => Pure.pure (f ops ops')) :=
  hm.bind fun ops => Asks.map hm' fun _ _ ops' hops' => by rw [h, hops']

end Names

namespace Drawing

@[simp] theorem resourceNames_path (ops : List (PathOp Float)) : resourceNames (path ops) = [] := by
  refine resourceNames_eq_nil fun op hop => ?_
  obtain ⟨o, -, rfl⟩ := List.mem_map.mp hop
  cases o <;> rfl

@[simp] theorem resourceNames_clip (ops : List (PathOp Float)) (rule : FillRule) :
    resourceNames (clip ops rule) = [] := by
  rw [clip, resourceNames_append, resourceNames_path]
  rfl

@[simp] theorem resourceNames_clipping (c : Option (Clip Float)) :
    resourceNames (clipping c) = [] := by
  cases c with
  | none => rfl
  | some c => exact resourceNames_clip c.ops c.rule

@[simp] theorem resourceNames_concat (ms : List (Matrix Float)) :
    resourceNames (ms.map .concat) = [] := by
  refine resourceNames_eq_nil fun op hop => ?_
  obtain ⟨m, -, rfl⟩ := List.mem_map.mp hop
  rfl

theorem names_graphicsState (s : GraphicsState) : Names s.uses (graphicsState s) := by
  unfold graphicsState GraphicsState.uses
  split
  · exact .pure rfl
  · refine (Asks.serve (.state s)).map fun names _ name given => ?_
    rw [given]
    rfl

theorem names_opening (base : Base Float) (s : GraphicsState) : Names s.uses (opening base s) := by
  refine (names_graphicsState s).map fun state => ?_
  simp [Operator.resource?]

theorem names_gradientOf (s : Shape Float) : Names s.gradientUses (gradientOf s) := by
  unfold gradientOf Shape.gradientUses
  cases s.paint.fill with
  | none => exact .pure rfl
  | some paint =>
    cases paint with
    | solid c => exact .pure rfl
    | gradient g =>
      unfold gradientFill
      dsimp only
      cases (Path.bbox? s.ops).bind g.place? with
      | none => exact .pure rfl
      | some placed =>
        refine (Asks.serve (.shading (.ofGradient placed.ramp g.stops))).map
          fun names _ name given => ?_
        rw [given]
        simp [Request.named, Operator.resource?]

theorem resourceNames_strokeSettings (paint : PaintStyle Float) (color : Color Float) :
    resourceNames (strokeSettings paint color) = [] := by
  simp only [strokeSettings, resourceNames_append, List.append_eq_nil_iff]
  refine ⟨⟨⟨⟨⟨rfl, ?_⟩, ?_⟩, ?_⟩, ?_⟩, ?_⟩ <;> exact resourceNames_option (fun _ => rfl) _

theorem resourceNames_outline (s : Shape Float) : resourceNames (outline s) = [] := by
  simp only [outline, resourceNames_append, List.append_eq_nil_iff]
  refine ⟨⟨⟨resourceNames_option (fun _ => rfl) _, ?_⟩, resourceNames_path s.ops⟩, ?_⟩
  · cases s.paint.stroke.bind soleColor? with
    | none => rfl
    | some color => exact resourceNames_strokeSettings s.paint color
  · unfold pathEnd
    split <;> rfl

theorem names_shape (s : Shape Float) : Names s.uses (shape s) := by
  refine (names_opening s.base (shapeState s)).append (names_gradientOf s) fun start gradient => ?_
  simp [resourceNames_outline, Operator.resource?]

theorem names_image (i : PlacedImage Float) : Names i.uses (image i) := by
  refine (names_opening i.base _).bind fun start => ?_
  refine (Asks.serve (.image i.image)).map fun names _ name given => ?_
  rw [given]
  simp [Request.named, Operator.resource?]

theorem resourceNames_run (t : TextStyle Float) (name : String) (pen : Point Float)
    (characters : List Char) : resourceNames (run t name pen characters) = [.font name] := by
  simp only [run, resourceNames_append, resourceNames_option (f := Operator.fillColor) fun _ => rfl,
    resourceNames_option (f := Operator.strokeColor) fun _ => rfl]
  split <;> rfl

/-- If a cursor has a name, it is that of the font of the text. -/
def Cursor.Names (c : Cursor) (t : TextStyle Float) (r : Resources) : Prop :=
  ∀ name, c.font = some name → r.known? (.font t.font) = some name

theorem Cursor.Names.serveAll {c : Cursor} {t : TextStyle Float} {r : Resources}
    (h : c.Names t r) (qs : List Request) : c.Names t (serveAll qs r).2 :=
  fun name font => known?_serveAll_of_known qs (h name font)

/-- The name that a font has got is the one that another request would give. -/
theorem asks_fontName (t : TextStyle Float) (c : Cursor) :
    Asks (c.Names t) [.font t.font]
      (fun names r name => names = [.font name] ∧ r.known? (.font t.font) = some name)
      (fontName t c.font) := by
  intro r fits
  unfold Cursor.Names at fits
  cases font : c.font with
  | none => exact ⟨rfl, rfl, known?_serve (.font t.font) r⟩
  | some name =>
    have known := fits name font
    rw [serveAll_cons, serve_of_known known]
    exact ⟨rfl, rfl, known⟩

mutual

/-- Writing a part of a text asks for what the part uses, and the cursor keeps to the font. -/
theorem asks_textItem (t : TextStyle Float) (item : TextItem Float) (c : Cursor) :
    Asks (c.Names t) (item.uses t)
      (fun names r out => resourceNames out.1 = names ∧ out.2.Names t r) (textItem t item c) := by
  cases item with
  | literal characters =>
    unfold textItem TextItem.uses
    refine (asks_fontName t c).map fun names r name ⟨given, known⟩ => ?_
    refine ⟨by rw [given, resourceNames_run], ?_⟩
    rintro _ ⟨⟩
    exact known
  | nested inner items =>
    have framed := (asks_nested t inner items c).frame fun r (fits : c.Names t r) => fits.serveAll _
    refine framed.mono (fun r fits => ⟨trivial, fits⟩) ?_
    rintro names r out ⟨⟨named, font⟩, fits⟩
    refine ⟨named, ?_⟩
    rwa [Cursor.Names, font]

theorem asks_nested (t inner : TextStyle Float) (items : List (TextItem Float)) (c : Cursor) :
    Asks (fun _ => True) ((TextItem.nested inner items).uses t)
      (fun names _ out => resourceNames out.1 = names ∧ out.2.font = c.font)
      (textItem t (.nested inner items) c) := by
  unfold textItem TextItem.uses
  refine (names_opening inner.base (textState inner)).bind fun start => ?_
  have inside := asks_textItems inner items ⟨startPen inner c.pen, none⟩
  refine Asks.map (inside.mono ?_ fun _ _ _ h => h) fun names r body ⟨named, _⟩ => ?_
  · rintro r - _ ⟨⟩
  · simp [named, Operator.resource?]

theorem asks_textItems (t : TextStyle Float) (items : List (TextItem Float)) (c : Cursor) :
    Asks (c.Names t) (TextItem.usesOf t items)
      (fun names r out => resourceNames out.1 = names ∧ out.2.Names t r) (textItems t items c) := by
  cases items with
  | nil =>
    unfold textItems TextItem.usesOf
    exact Asks.pure fun _ fits => ⟨rfl, fits⟩
  | cons i is =>
    unfold textItems TextItem.usesOf
    refine (asks_textItem t i c).bind fun names first => .assume fun named => ?_
    refine (asks_textItems t is first.2).map fun names' r rest ⟨named', fits⟩ => ⟨?_, fits⟩
    rw [resourceNames_append, named, named']

end

theorem names_text (t : TextStyle Float) (items : List (TextItem Float)) :
    Names ((TextItem.nested t items).uses t) (text t items) :=
  (asks_nested t t items _).map fun _ _ _ ⟨named, _⟩ => named

end Drawing

namespace Node

mutual

/-- By induction on the scene: a node names what its uses are given, in their order. -/
theorem names_compile (n : Node Float) : Names n.uses n.compile := by
  cases n with
  | shape s =>
    unfold compile uses
    exact names_shape s
  | image i =>
    unfold compile uses
    exact names_image i
  | text t items =>
    unfold compile uses
    exact names_text t items
  | group paint base children =>
    unfold compile uses
    refine (names_opening base _).append (names_compileAll children) fun start body => ?_
    simp [Operator.resource?]

theorem names_compileAll (ns : List (Node Float)) : Names (usesOf ns) (compileAll ns) := by
  cases ns with
  | nil =>
    unfold compileAll usesOf
    exact .pure rfl
  | cons n ns =>
    unfold compileAll usesOf
    exact (names_compile n).append (names_compileAll ns) fun first rest => resourceNames_append _ _

end

/-- A node makes the requests of its uses, and names in its operators just what they are given. -/
theorem compile_eq_serveAll (n : Node Float) (r : Resources) :
    (resourceNames (n.compile r).1, (n.compile r).2) = serveAll n.uses r :=
  have ⟨after, named⟩ := n.names_compile r trivial
  Prod.ext named after

end Node

end SvgPage

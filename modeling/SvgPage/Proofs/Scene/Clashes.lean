import SvgPage.Proofs.Scene.Relaxation

/-!
# Where ids clash

Reading has many ways to fail, but only the registration of a definition fails because an id has
been used before. What the style sheets, the definitions themselves and the walk report is something
else.
-/

namespace SvgPage

open Xml

def Problem.isClash : Problem → Bool
  | duplicateDefinition .. => true
  | _ => false

section

variable {α β σ : Type}

/-- A result, or a problem other than a clash. -/
def Clashless : Except Problem α → Prop
  | .ok _ => True
  | .error problem => problem.isClash = false

namespace Clashless

variable {x : Except Problem α} {problem : Problem}

theorem ok (a : α) : Clashless (.ok a) := trivial

theorem error (other : problem.isClash = false) : Clashless (.error problem : Except Problem α) :=
  other

theorem bind {f : α → Except Problem β} (h : Clashless x) (hf : ∀ a, Clashless (f a)) :
    Clashless (x >>= f) := by
  cases x with
  | error problem => exact h
  | ok a => exact hf a

theorem map (f : α → β) (h : Clashless x) : Clashless (x.map f) := by
  have bound := h.bind fun a => ok (f a)
  cases x <;> exact bound

theorem required (other : problem.isClash = false) (a : Option α) :
    Clashless (SvgPage.required problem a) := by
  cases a with
  | none => exact .error other
  | some a => exact .ok a

theorem headRead (h : Head) (name : String) (reader : String → Option β) :
    Clashless (h.read name reader) := by
  unfold Head.read
  split
  · exact .ok _
  · exact (required rfl _).map _

theorem propertyRead (ps : Properties) (tag name : String) (reader : String → Option β) :
    Clashless (ps.read tag name reader) := by
  unfold Properties.read
  split
  · exact .ok _
  · exact (required rfl _).map _

end Clashless

namespace Reading

/-- A reading that reports no clash, whatever the state. -/
structure Clashless (m : Reading σ α) : Prop where
  run : ∀ s, SvgPage.Clashless (m s).1

namespace Clashless

theorem pure (a : α) : Clashless (Pure.pure a : Reading σ α) := ⟨fun _ => .ok a⟩

theorem settled {x : Except Problem α} (h : SvgPage.Clashless x) :
    Clashless (Context.settled x : Reading σ α) := ⟨fun _ => h⟩

theorem bind {m : Reading σ α} {f : α → Reading σ β} (h : Clashless m)
    (hf : ∀ a, Clashless (f a)) : Clashless (m >>= f) := by
  constructor
  intro s
  have start := h.run s
  rcases first : m s with ⟨problem | a, s'⟩
  · rw [first] at start
    rw [bind_eq_of_error first]
    exact start
  · rw [bind_eq_of_ok first]
    exact (hf a).run s'

end Clashless

end Reading

end

namespace Context

variable (cx : Context) (head : Head)

theorem clashless_kind : Clashless head.kind := by
  unfold Head.kind
  split
  · exact .ok _
  · split
    · exact .ok _
    · exact .error rfl

theorem clashless_passOver (inside : Option String) : Clashless (cx.passOver head inside) := by
  unfold passOver
  split
  · exact .error rfl
  · exact .ok _

theorem clashless_lengthOr (name : String) (axis : Axis) (otherwise : Float) :
    Clashless (cx.lengthOr head name axis otherwise) := (Clashless.headRead head name _).map _

theorem clashless_nonNegative (name : String) (axis : Axis) :
    Clashless (cx.nonNegative head name axis) := .headRead head name _

theorem clashless_firstPosition (name : String) (axis : Axis) :
    Clashless (cx.firstPosition head name axis) := by
  unfold firstPosition
  split
  · exact .ok _
  · split
    · exact .ok _
    · exact (Clashless.required rfl _).map _

theorem clashless_transform (name : String) : Clashless (transform head name) :=
  (Clashless.headRead head name _).map _

theorem clashless_units (name : String) (otherwise : Units) :
    Clashless (units head name otherwise) := (Clashless.headRead head name _).map _

theorem clashless_coordOr (name : String) (otherwise : Coord Float) :
    Clashless (coordOr head name otherwise) := (Clashless.headRead head name _).map _

theorem clashless_region : Clashless (region head) :=
  .bind (.headRead ..) fun _ => .bind (.headRead ..) fun _ => .bind (.headRead ..) fun _ =>
    .bind (.headRead ..) fun _ => .ok _

theorem clashless_resolvePaint (ds : Definitions Float) (tag property : String)
    (raw : Option String) (inherited : Option (Paint Float)) (current : Color Float) :
    Clashless (Paint.resolve ds tag property raw inherited current) := by
  have gradient (id : String) : Clashless (ds.gradient tag id) := by
    unfold Definitions.gradient
    split
    · exact .ok _
    · exact .error rfl
  unfold Paint.resolve
  split
  · exact .ok _
  dsimp only
  split
  · exact .ok _
  split
  · exact .ok _
  split
  · split
    · exact .error rfl
    · exact (gradient _).map _
  split
  · exact .ok _
  split
  · exact .ok _
  · exact .error rfl

theorem clashless_paintStyle (ds : Definitions Float) (tag : String) (ps : Properties)
    (inherited : PaintStyle Float) : Clashless (paintStyle ds tag ps inherited) := by
  have dash : Clashless (dash tag ps inherited.dash) := by
    refine .bind ?_ fun _ => .bind (.propertyRead ..) fun _ => .ok _
    unfold dashPattern
    split
    · exact .ok _
    split
    · exact .ok _
    · exact (Clashless.required rfl _).map _
  unfold paintStyle
  refine .bind ((Clashless.propertyRead ..).map _) fun _ => ?_
  refine .bind (clashless_resolvePaint ..) fun _ => .bind (clashless_resolvePaint ..) fun _ => ?_
  refine .bind (.propertyRead ..) fun _ => .bind (.propertyRead ..) fun _ => ?_
  refine .bind (.propertyRead ..) fun _ => .bind (.propertyRead ..) fun _ => ?_
  refine .bind (.propertyRead ..) fun _ => .bind (.propertyRead ..) fun _ => ?_
  refine .bind (.propertyRead ..) fun _ => .bind (.propertyRead ..) fun _ => ?_
  exact .bind dash fun _ => .ok _

theorem clashless_textAttributes (tag : String) (ps : Properties) (inherited : TextAttributes) :
    Clashless (textAttributes tag ps inherited) := .bind (.propertyRead ..) fun _ => .ok _

theorem clashless_reference (tag : String) (ps : Properties) (name : String) :
    Clashless (reference tag ps name) := by
  unfold reference
  split
  · exact .ok _
  split
  · exact .ok _
  · exact (Clashless.required rfl _).map _

theorem clashless_referred {β : Type} {lookup : String → String → Except Problem β}
    (found : ∀ tag id, Clashless (lookup tag id)) (tag : String) (ps : Properties)
    (name : String) : Clashless (referred lookup tag ps name) := by
  refine .bind (clashless_reference ..) fun id => ?_
  cases id with
  | none => exact .ok _
  | some id => exact .bind (found tag id) fun _ => .ok _

theorem clashless_clip (ds : Definitions Float) (tag : String) (ps : Properties)
    (box : Option (Rect Float)) : Clashless (clip ds tag ps box) := by
  refine .bind (clashless_reference ..) fun id => ?_
  cases id with
  | none => exact .ok _
  | some id =>
    refine .bind ?_ fun _ => .bind (.propertyRead ..) fun _ => .ok _
    unfold Definitions.clipPath
    split
    · exact .ok _
    · exact .error rfl

theorem clashless_base (ps : Properties) (box : Option (Rect Float)) :
    Clashless (cx.base head ps box) := by
  have mask (tag id : String) : Clashless (cx.definitions.mask tag id) := by
    unfold Definitions.mask
    split
    · exact .ok _
    · exact .error rfl
  have filter (tag id : String) : Clashless (cx.definitions.filter tag id) := by
    unfold Definitions.filter
    split
    · exact .ok _
    · exact .error rfl
  have blendMode : Clashless (blendMode head.tag ps) := .bind (.propertyRead ..) fun _ => .ok _
  refine .bind (clashless_transform ..) fun _ => .bind (clashless_clip ..) fun _ => ?_
  refine .bind (clashless_referred mask ..) fun _ => ?_
  exact .bind (clashless_referred filter ..) fun _ => .bind blendMode fun _ => .ok _

theorem clashless_outline (kind : ElementKind) : Clashless (cx.outline kind head) := by
  have length {name : String} {axis : Axis} {otherwise : Float} :=
    cx.clashless_lengthOr head name axis otherwise
  have size {name : String} {axis : Axis} := cx.clashless_nonNegative head name axis
  unfold outline
  split
  · exact .bind length fun _ => .bind length fun _ => .bind size fun _ => .bind size fun _ =>
      .bind size fun _ => .bind size fun _ => .ok _
  · exact .bind length fun _ => .bind length fun _ => .bind size fun _ => .ok _
  · exact .bind length fun _ => .bind length fun _ => .bind size fun _ => .bind size fun _ => .ok _
  · exact .bind length fun _ => .bind length fun _ => .bind length fun _ => .bind length fun _ =>
      .ok _
  · exact (Clashless.headRead ..).map _
  · exact (Clashless.headRead ..).map _
  · dsimp only
    generalize PathData.outline (α := Float) ((head.get? "d").getD "").toList = path
    cases path with
    | error fault => exact .error rfl
    | ok ops => exact .ok ops
  · exact .ok _

theorem clashless_clipOutline (container : String) (m : Matrix Float) (es : List Element) :
    Clashless (cx.clipOutline container m es) := by
  induction es with
  | nil => exact .ok _
  | cons e es ih =>
    have more (first : List (PathOp Float)) : Clashless (do
        let more ← cx.clipOutline container m es
        return first ++ more) := .bind ih fun _ => .ok _
    unfold clipOutline
    refine .bind (clashless_kind e.head) fun kind => ?_
    dsimp only
    split
    · exact .bind (cx.clashless_outline e.head kind) fun _ =>
        .bind (clashless_transform ..) fun _ => more _
    split
    · exact .bind ((cx.clashless_passOver ..).map _) more
    · exact .error rfl

theorem clashless_stops (tag : String) (least : Option Float) (es : List Element) :
    Clashless (cx.stops tag least es) := by
  induction es generalizing least with
  | nil => exact .ok _
  | cons e es ih =>
    unfold stops
    refine .bind (clashless_kind e.head) fun kind => ?_
    split
    · have stop : Clashless (cx.stop e.head) :=
        .bind (.headRead ..) fun _ => .bind (.propertyRead ..) fun _ =>
          .bind (.propertyRead ..) fun _ => .bind (.propertyRead ..) fun _ => .ok _
      exact .bind stop fun _ => .bind (ih _) fun _ => .ok _
    split
    · exact .bind (cx.clashless_passOver ..) fun _ => ih least
    · exact .error rfl

theorem clashless_gradient (kind : ElementKind) (e : Element) :
    Clashless (cx.gradient kind e) := by
  have shape : Clashless (gradientShape kind e.head) := by
    have coord {name : String} {otherwise : Coord Float} :=
      clashless_coordOr e.head name otherwise
    unfold gradientShape
    split
    · exact .bind coord fun _ => .bind coord fun _ => .bind coord fun _ => .bind coord fun _ =>
        .ok _
    · exact .bind coord fun _ => .bind coord fun _ => .bind coord fun _ => .bind coord fun _ =>
        .bind coord fun _ => .bind coord fun _ => .ok _
  refine .bind (clashless_units ..) fun _ => .bind (clashless_transform ..) fun _ => ?_
  refine .bind (.headRead ..) fun _ => .bind shape fun _ => ?_
  exact .bind (cx.clashless_stops ..) fun _ => .ok _

theorem clashless_clipPath (e : Element) : Clashless (cx.clipPath e) := by
  refine .bind (clashless_units ..) fun _ => .bind (.propertyRead ..) fun _ => ?_
  exact .bind (clashless_transform ..) fun _ => .bind (cx.clashless_clipOutline ..) fun _ => .ok _

theorem clashless_mask (e : Element) : Clashless (cx.mask e) := by
  refine .bind (clashless_units ..) fun _ => .bind (clashless_units ..) fun _ => ?_
  exact .bind (clashless_region _) fun _ => .bind (cx.clashless_clipOutline ..) fun _ => .ok _

theorem clashless_filter (e : Element) : Clashless (filter e) := by
  unfold filter
  split
  · exact .error rfl
  · refine .bind (clashless_units ..) fun _ => .bind (clashless_units ..) fun _ => ?_
    exact .bind (clashless_region _) fun _ => .ok _

mutual

theorem clashless_checkDefs (n : Xml.Node) : Clashless (cx.checkDefs n) := by
  cases n with
  | element head children =>
    unfold checkDefs
    refine .bind (clashless_kind head) fun kind => ?_
    split
    · exact cx.clashless_passOver ..
    split
    · exact clashless_checkAllDefs children
    · exact .ok _
  | text content | comment content | instruction =>
    unfold checkDefs
    exact .ok _

theorem clashless_checkAllDefs (ns : List Xml.Node) : Clashless (cx.checkAllDefs ns) := by
  cases ns with
  | nil =>
    unfold checkAllDefs
    exact .ok _
  | cons n ns =>
    unfold checkAllDefs
    exact .bind (clashless_checkDefs n) fun _ => clashless_checkAllDefs ns

end

theorem clashless_resolveFont (fonts : FontTable) (tag : String) (wanted : TextAttributes)
    (strict : Bool) : Clashless (fonts.resolve tag wanted strict) := by
  unfold FontTable.resolve
  split
  · exact .ok _
  split
  · exact .ok _
  split
  · exact .error rfl
  · exact .ok _

theorem clashless_textStart (paint : PaintStyle Float) (wanted : TextAttributes) :
    Clashless (cx.textStart head paint wanted) :=
  .bind (clashless_paintStyle ..) fun _ => .bind (clashless_textAttributes ..) fun _ =>
    .bind (clashless_resolveFont ..) fun _ => .ok _

theorem clashless_textStyle (start : TextStart) : Clashless (cx.textStyle head start) :=
  .bind (cx.clashless_firstPosition ..) fun _ => .bind (cx.clashless_firstPosition ..) fun _ =>
    .bind (cx.clashless_base ..) fun _ => .ok _

mutual

theorem clashless_textItem (tag : String) (start : TextStart) (n : Xml.Node) :
    Clashless (cx.textItem tag start n) := by
  cases n with
  | element head children =>
    unfold textItem
    refine .bind (clashless_kind head) fun kind => ?_
    split
    · have inside (_ : Unit) : Clashless (do
          let inner ← cx.textStart head start.paint start.wanted
          let items ← cx.textItems head.tag inner children
          let style ← cx.textStyle head inner
          return some (TextItem.nested style items)) :=
        .bind (cx.clashless_textStart ..) fun inner =>
          .bind (clashless_textItems head.tag inner children) fun _ =>
            .bind (cx.clashless_textStyle ..) fun _ => .ok _
      dsimp only
      split
      · exact .bind (cx.clashless_passOver ..) inside
      · exact inside ()
    split
    · exact .bind (cx.clashless_passOver ..) fun _ => .ok _
    · exact .error rfl
  | text content | comment content | instruction =>
    unfold textItem
    exact .ok _

theorem clashless_textItems (tag : String) (start : TextStart) (ns : List Xml.Node) :
    Clashless (cx.textItems tag start ns) := by
  cases ns with
  | nil =>
    unfold textItems
    exact .ok _
  | cons n ns =>
    unfold textItems
    exact .bind (clashless_textItem tag start n) fun _ =>
      .bind (clashless_textItems tag start ns) fun _ => .ok _

end

theorem clashless_text (children : List Xml.Node) (inherited : Inherited) :
    Clashless (cx.text head children inherited) :=
  .bind (cx.clashless_textStart ..) fun _ => .bind (cx.clashless_textItems ..) fun _ =>
    .bind (cx.clashless_textStyle ..) fun _ => .ok _

theorem clashless_shape (kind : ElementKind) (inherited : PaintStyle Float) :
    Clashless (cx.shape kind head inherited) :=
  .bind (cx.clashless_outline ..) fun _ => .bind (clashless_paintStyle ..) fun _ =>
    .bind (cx.clashless_base ..) fun _ => .ok _

theorem clashless_groupStart (inherited : Inherited) : Clashless (cx.groupStart head inherited) :=
  .bind (clashless_paintStyle ..) fun _ => .bind (clashless_textAttributes ..) fun _ => .ok _

theorem clashless_groupEnd (isNested : Bool) (paint : PaintStyle Float)
    (children : List (SvgPage.Node Float)) :
    Clashless (cx.groupEnd head isNested paint children) := by
  refine .bind (cx.clashless_base ..) fun _ => ?_
  dsimp only
  split
  · have place : Clashless (cx.nestedPlace head) :=
      .bind (cx.clashless_lengthOr ..) fun _ => .bind (cx.clashless_lengthOr ..) fun _ => .ok _
    exact .bind place fun _ => .ok _
  · exact .bind (.ok _) fun _ => .ok _

variable {σ : Type} (e : Embedder σ)

theorem clashless_image (inherited : PaintStyle Float) :
    Reading.Clashless (cx.image e head inherited) := by
  have data : Clashless (imageData head) := by
    unfold imageData
    refine .bind (.required rfl _) fun mime => ?_
    split
    · exact .bind (.required rfl _) fun _ => .ok _
    · exact .error rfl
  have embedded (format : ImageFormat) (bytes : List UInt8) :
      Reading.Clashless (embedImage e format bytes) := by
    constructor
    intro s
    unfold embedImage
    split
    · exact .ok _
    · exact .error rfl
  have placed (handle : ImageHandle) : Clashless (cx.placeImage head inherited handle) := by
    refine .bind (cx.clashless_lengthOr ..) fun _ => .bind (cx.clashless_lengthOr ..) fun _ => ?_
    refine .bind (cx.clashless_nonNegative ..) fun _ => ?_
    refine .bind (cx.clashless_nonNegative ..) fun _ => .bind (.propertyRead ..) fun _ => ?_
    exact .bind (cx.clashless_base ..) fun _ => .ok _
  exact .bind (.settled data) fun _ => .bind (embedded ..) fun _ => .settled (placed _)

mutual

/-- By induction on the tree: the walk only asks for ids. -/
theorem clashless_node (inherited : Inherited) (n : Xml.Node) :
    Reading.Clashless (cx.node e inherited n) := by
  cases n with
  | element head children =>
    unfold node
    refine .bind (.settled (clashless_kind head)) fun kind => ?_
    split
    · exact .bind (.settled (cx.clashless_shape ..)) fun _ => .pure _
    split
    · exact .bind (cx.clashless_image ..) fun _ => .pure _
    split
    · exact .bind (.settled (cx.clashless_text ..)) fun _ => .pure _
    split
    · refine .bind (.settled (cx.clashless_groupStart ..)) fun start => ?_
      refine .bind (clashless_nodes start children) fun members => ?_
      exact .bind (.settled (cx.clashless_groupEnd ..)) fun _ => .pure _
    split
    · exact .bind (.settled (cx.clashless_checkAllDefs ..)) fun _ => .pure _
    split
    · exact .settled (.error rfl)
    split
    · exact .bind (.settled (cx.clashless_passOver ..)) fun _ => .pure _
    · exact .pure _
  | text content | comment content | instruction =>
    unfold node
    exact .pure _

theorem clashless_nodes (inherited : Inherited) (ns : List Xml.Node) :
    Reading.Clashless (cx.nodes e inherited ns) := by
  cases ns with
  | nil =>
    unfold nodes
    exact .pure _
  | cons n ns =>
    unfold nodes
    exact .bind (clashless_node inherited n) fun _ =>
      .bind (clashless_nodes inherited ns) fun _ => .pure _

end

end Context

variable {σ : Type} (e : Embedder σ)

theorem StyleBlock.clashless_applyAll (es : List Element) : Reading.Clashless (applyAll e es) := by
  have embedded (face : FontFace) : Reading.Clashless (embedFace e face) := by
    constructor
    intro d
    unfold embedFace
    split
    · exact .ok _
    · exact .error rfl
  have allEmbedded (faces : List FontFace) : Reading.Clashless (embedFaces e faces) := by
    induction faces with
    | nil => exact .pure _
    | cons face faces ih => exact .bind (embedded face) fun _ => ih
  have applied (css : List Char) : Reading.Clashless (apply e css) := by
    constructor
    intro d
    unfold apply
    split
    · exact .error rfl
    · exact (allEmbedded _).run _
  induction es with
  | nil => exact .pure _
  | cons element es ih =>
    rw [applyAll]
    split
    · exact .bind (applied _) fun _ => ih
    · exact ih

theorem Document.clashless_frame (text : List Char) : Clashless (frame text) := by
  have top : Clashless (rootElement text) := by
    unfold rootElement
    split
    · next head children read =>
      split
      · exact .ok _
      · exact .error rfl
      · next problem unknown =>
        have known := Context.clashless_kind head
        rw [unknown] at known
        exact known
    · exact .error rfl
  exact .bind top fun _ => .bind (.headRead ..) fun _ => .ok _

theorem Document.clashless_scene (cx : Context) (fontSize : Float) (root : Xml.Node) :
    Reading.Clashless (scene e cx fontSize root) := by
  refine .bind (cx.clashless_node e _ root) fun found => ?_
  cases found with
  | none => exact .settled (.error rfl)
  | some n => exact .pure n

end SvgPage

import Mathlib
import SvgPage.Proofs.Geometry.Tracking
import SvgPage.Proofs.Scene.Validity

/-!
# Outlines of a scene

No outline of a scene draws from nowhere. Each is that of a shape, or the outlines of the shapes in a
clip path or mask one after another, and each of them moves to a point first.
-/

namespace SvgPage

open Xml SvgPage.Path

namespace Path

variable {α : Type} {ops : List (PathOp α)}

theorem OpensWithMove.transform [Scalar α] (opens : OpensWithMove ops) (m : Matrix α) :
    OpensWithMove (Path.transform m ops) := by
  cases ops with
  | nil => exact opensWithMove_nil
  | cons op ops =>
    have moves := opens op rfl
    rintro _ ⟨⟩
    cases op with
    | moveTo p => rfl
    | lineTo | curveTo | close => cases moves

theorem opensWithMove_moveTo (p : Point α) (ops : List (PathOp α)) :
    OpensWithMove (.moveTo p :: ops) := by
  rintro _ ⟨⟩
  rfl

end Path

namespace Shape

variable {α : Type} [Scalar α]

theorem exists_rect_eq (x y w h : α) (rx ry : Option α) :
    ∃ p ops, rect x y w h rx ry = .moveTo p :: ops := by
  unfold rect rectWith
  dsimp only
  split
  · exact ⟨_, _, rfl⟩
  · exact ⟨_, _, rfl⟩

omit [Scalar α] in
theorem opensWithMove_polyline (ps : List (Point α)) : OpensWithMove (polyline ps) := by
  cases ps with
  | nil => exact opensWithMove_nil
  | cons p ps => exact opensWithMove_moveTo p _

omit [Scalar α] in
theorem opensWithMove_polygon (ps : List (Point α)) : OpensWithMove (polygon ps) := by
  cases ps with
  | nil => exact opensWithMove_nil
  | cons p ps => exact opensWithMove_moveTo p _

end Shape

/-- How the outline of an element comes about. Shapes without data start somewhere in any case. -/
inductive Xml.Head.Draws (h : Head) : ElementKind → List (PathOp Float) → Prop
  | solid {kind p ops} : [ElementKind.rect, .circle, .ellipse, .line].contains kind = true →
      Draws h kind (.moveTo p :: ops)
  | polygon {ps} : h.read "points" (fun raw => readPoints? raw.toList) = .ok ps →
      Draws h .polygon (Shape.polygon (ps.getD []))
  | polyline {ps} : h.read "points" (fun raw => readPoints? raw.toList) = .ok ps →
      Draws h .polyline (Shape.polyline (ps.getD []))
  | path {ops} : PathData.report ((h.get? "d").getD "").toList = .ok ops → Draws h .path ops
  | nothing {kind} : kind.isShape = false → Draws h kind []

namespace Context

variable {cx : Context}

theorem draws_of_outline {kind : ElementKind} {h : Head} {ops : List (PathOp Float)}
    (read : cx.outline kind h = .ok ops) : h.Draws kind ops := by
  unfold Context.outline at read
  split at read
  case h_1 =>
    obtain ⟨x, -, read⟩ := exists_of_bind_eq_ok read
    obtain ⟨y, -, read⟩ := exists_of_bind_eq_ok read
    obtain ⟨w, -, read⟩ := exists_of_bind_eq_ok read
    obtain ⟨height, -, read⟩ := exists_of_bind_eq_ok read
    obtain ⟨rx, -, read⟩ := exists_of_bind_eq_ok read
    obtain ⟨ry, -, read⟩ := exists_of_bind_eq_ok read
    obtain ⟨p, rest, drawn⟩ := Shape.exists_rect_eq x y (w.getD 0) (height.getD 0) rx ry
    cases read
    exact drawn ▸ .solid rfl
  case h_2 =>
    obtain ⟨x, -, read⟩ := exists_of_bind_eq_ok read
    obtain ⟨y, -, read⟩ := exists_of_bind_eq_ok read
    obtain ⟨r, -, read⟩ := exists_of_bind_eq_ok read
    cases read
    exact .solid rfl
  case h_3 =>
    obtain ⟨x, -, read⟩ := exists_of_bind_eq_ok read
    obtain ⟨y, -, read⟩ := exists_of_bind_eq_ok read
    obtain ⟨rx, -, read⟩ := exists_of_bind_eq_ok read
    obtain ⟨ry, -, read⟩ := exists_of_bind_eq_ok read
    cases read
    exact .solid rfl
  case h_4 =>
    obtain ⟨x₁, -, read⟩ := exists_of_bind_eq_ok read
    obtain ⟨y₁, -, read⟩ := exists_of_bind_eq_ok read
    obtain ⟨x₂, -, read⟩ := exists_of_bind_eq_ok read
    obtain ⟨y₂, -, read⟩ := exists_of_bind_eq_ok read
    cases read
    exact .solid rfl
  case h_5 =>
    obtain ⟨ps, points, rfl⟩ := exists_of_map_eq_ok read
    exact .polygon points
  case h_6 =>
    obtain ⟨ps, points, rfl⟩ := exists_of_map_eq_ok read
    exact .polyline points
  case h_7 => exact .path read
  case h_8 notRect notCircle notEllipse notLine notPolygon notPolyline notPath =>
    cases read
    apply Xml.Head.Draws.nothing
    cases kind <;> first | rfl | contradiction

theorem opensWithMove_of_outline {kind : ElementKind} {h : Head} {ops : List (PathOp Float)}
    (read : cx.outline kind h = .ok ops) : OpensWithMove ops := by
  cases draws_of_outline read with
  | solid => exact opensWithMove_moveTo _ _
  | polygon => exact Shape.opensWithMove_polygon _
  | polyline => exact Shape.opensWithMove_polyline _
  | path drawn => exact PathData.opensWithMove_report drawn
  | nothing => exact opensWithMove_nil

/-- The first element in a clip path adds its outline, moved, or else nothing. -/
theorem parts_of_clipOutline {container : String} {m : Matrix Float} {e : Element}
    {es : List Element} {ops : List (PathOp Float)}
    (read : cx.clipOutline container m (e :: es) = .ok ops) :
    ∃ kind first more, e.head.kind = .ok kind ∧ cx.clipOutline container m es = .ok more ∧
      ops = first ++ more ∧
      (kind.isClipShape = true ∧ (∃ drawn place, cx.outline kind e.head = .ok drawn ∧
          first = Path.transform place drawn) ∨
        kind.isClipShape = false ∧ first = []) := by
  have joined {first : List (PathOp Float)}
      (read : (do
        let more ← cx.clipOutline container m es
        return first ++ more) = .ok ops) :
      ∃ more, cx.clipOutline container m es = .ok more ∧ ops = first ++ more := by
    obtain ⟨more, others, read⟩ := exists_of_bind_eq_ok read
    cases read
    exact ⟨more, others, rfl⟩
  unfold Context.clipOutline at read
  obtain ⟨kind, known, read⟩ := exists_of_bind_eq_ok read
  dsimp only at read
  split at read
  · next isShape =>
    obtain ⟨drawn, outlined, read⟩ := exists_of_bind_eq_ok read
    obtain ⟨own, -, read⟩ := exists_of_bind_eq_ok read
    obtain ⟨more, others, whole⟩ := joined read
    exact ⟨kind, _, more, known, others, whole, .inl ⟨isShape, drawn, _, outlined, rfl⟩⟩
  split at read
  · next noShape _ =>
    obtain ⟨nothing, passed, read⟩ := exists_of_bind_eq_ok read
    obtain ⟨-, -, rfl⟩ := exists_of_map_eq_ok passed
    obtain ⟨more, others, whole⟩ := joined read
    exact ⟨kind, _, more, known, others, whole, .inr ⟨Bool.eq_false_iff.mpr noShape, rfl⟩⟩
  · cases read

/-- By induction on the elements of a clip path. -/
theorem opensWithMove_of_clipOutline {container : String} {m : Matrix Float} {es : List Element}
    {ops : List (PathOp Float)} (read : cx.clipOutline container m es = .ok ops) :
    OpensWithMove ops := by
  induction es generalizing ops with
  | nil =>
    cases read
    exact opensWithMove_nil
  | cons e es ih =>
    obtain ⟨kind, first, more, -, others, rfl, own⟩ := parts_of_clipOutline read
    refine OpensWithMove.append ?_ (ih others)
    rcases own with ⟨-, drawn, place, outlined, rfl⟩ | ⟨-, rfl⟩
    · exact (opensWithMove_of_outline outlined).transform place
    · exact opensWithMove_nil

end Context

def Definition.outline? : Definition Float → Option (List (PathOp Float))
  | clipPath c => some c.ops
  | mask m => some m.ops
  | gradient _ | filter _ => none

/-- Every registered clip path and mask draws after it has moved to a point. -/
def Definitions.Outlined (ds : Definitions Float) : Prop :=
  ∀ id d, ds.get? id = some d → ∀ ops ∈ d.outline?, OpensWithMove ops

namespace Context

variable {cx : Context}

theorem opensWithMove_of_definition? {e : Element} {d : Definition Float}
    (read : cx.definition? e = some (.ok d)) : ∀ ops ∈ d.outline?, OpensWithMove ops := by
  intro ops outlined
  unfold definition? at read
  split at read
  case h_1 | h_2 | h_5 =>
    obtain ⟨g, -, rfl⟩ := exists_of_map_eq_ok (Option.some.inj read)
    cases outlined
  case h_3 =>
    obtain ⟨c, clip, rfl⟩ := exists_of_map_eq_ok (Option.some.inj read)
    unfold Context.clipPath at clip
    obtain ⟨units, -, clip⟩ := exists_of_bind_eq_ok clip
    obtain ⟨rule, -, clip⟩ := exists_of_bind_eq_ok clip
    obtain ⟨own, -, clip⟩ := exists_of_bind_eq_ok clip
    obtain ⟨ops', children, clip⟩ := exists_of_bind_eq_ok clip
    cases clip
    cases outlined
    exact opensWithMove_of_clipOutline children
  case h_4 =>
    obtain ⟨m, mask, rfl⟩ := exists_of_map_eq_ok (Option.some.inj read)
    unfold Context.mask at mask
    obtain ⟨ofRegion, -, mask⟩ := exists_of_bind_eq_ok mask
    obtain ⟨ofContent, -, mask⟩ := exists_of_bind_eq_ok mask
    obtain ⟨region, -, mask⟩ := exists_of_bind_eq_ok mask
    obtain ⟨ops', children, mask⟩ := exists_of_bind_eq_ok mask
    cases mask
    cases outlined
    exact opensWithMove_of_clipOutline children
  case h_6 => cases read

open Gathering in
/-- What is registered and has an outline was read like that from an element of the document. -/
theorem exists_definition?_of_gathered {root : Xml.Node} {ds : Definitions Float} {id : String}
    {d : Definition Float} (fresh : cx.definitions = .empty)
    (gathered : gatherDefinitions cx root = (.ok (), ds)) (found : ds.get? id = some d)
    (outlined : d.outline?.isSome) : ∃ e ∈ root.elements, cx.definition? e = some (.ok d) := by
  obtain ⟨xs, read, -, rfl⟩ := (gatherDefinitions_eq_ok_iff fresh).mp gathered
  have entry : (id, d) ∈ (ofDeclared xs).registry.entries := Shelf.mem_of_get? found
  rcases List.mem_append.mp entry with plain | pending
  · obtain ⟨x, member, plain⟩ := List.mem_filterMap.mp plain
    obtain ⟨r, declared, rfl⟩ := exists_of_forall₂ read.flip member
    obtain ⟨e, inside, declared⟩ := List.mem_filterMap.mp declared
    obtain ⟨_, -, declared⟩ := Option.bind_eq_some_iff.mp declared
    obtain ⟨definition, defined, same⟩ := Option.bind_eq_some_iff.mp declared
    obtain ⟨d', rfl, rfl⟩ := exists_of_map_eq_ok (Option.some.inj same)
    refine ⟨e, inside, ?_⟩
    unfold Declared.plain? at plain
    split at plain
    · cases plain
    · cases plain
      exact defined
  · obtain ⟨p, -, entry⟩ := List.mem_map.mp pending
    cases entry
    cases outlined

end Context

/-- The outlines of the clip and the mask that a node carries. -/
def Base.outlines (b : Base Float) : List (List (PathOp Float)) :=
  (b.clip.map Clip.ops).toList ++ (b.mask.map Mask.ops).toList

/-- The outlines that a figure draws, is clipped to, or is masked by. -/
def Figure.outlines : Figure → List (List (PathOp Float))
  | shape s => [s.ops] ++ s.base.outlines
  | f => f.base.outlines

theorem Definitions.Refers.exists_registered {ds : Definitions Float} {β : Type}
    {kind : β → Definition Float} {id : Option String} {found : Option β}
    (h : ds.Refers kind id found) : ∀ b ∈ found, ∃ id, ds.get? id = some (kind b) := by
  cases h with
  | nothing => nofun
  | @registered id b registered =>
    rintro _ ⟨⟩
    exact ⟨id, registered⟩

namespace Context

variable {cx : Context}

theorem opensWithMove_of_base (registered : cx.definitions.Outlined) {h : Head}
    {box : Option (Rect Float)} {base : Base Float}
    (read : cx.base h (cx.properties h) box = .ok base) :
    ∀ ops ∈ base.outlines, OpensWithMove ops := by
  obtain ⟨mask, -, ⟨clipPath, clip, carried⟩⟩ := follows_of_base read
  intro ops there
  rcases List.mem_append.mp there with clipped | masked
  · rw [carried, Option.map_map] at clipped
    obtain ⟨c, given, rfl⟩ := Option.map_eq_some_iff.mp (Option.mem_toList.mp clipped)
    obtain ⟨id, found⟩ := clip.exists_registered c given
    have opens := registered id (.clipPath c) found c.ops rfl
    change OpensWithMove (c.opsFor box)
    unfold ClipPath.opsFor
    split
    · exact opens.transform _
    · exact opens
  · obtain ⟨m, given, rfl⟩ := Option.map_eq_some_iff.mp (Option.mem_toList.mp masked)
    obtain ⟨id, found⟩ := mask.exists_registered m given
    exact registered id (.mask m) found m.ops rfl

/-- No element inherits an outline, so this holds whatever is inherited. -/
theorem upholds_outlined (registered : cx.definitions.Outlined) :
    cx.Upholds (fun _ _ _ => True) fun _ f => ∀ ops ∈ f.outlines, OpensWithMove ops where
  shape := by
    intro head around paint wanted kind s _ known isShape read
    obtain ⟨outlined, -, carried⟩ := parts_of_shape read
    apply List.forall_mem_append.mpr ⟨?_, opensWithMove_of_base registered carried⟩
    intro ops own
    rw [List.mem_singleton.mp own]
    exact opensWithMove_of_outline outlined
  image := by
    intro head around paint wanted handle i _ known read
    obtain ⟨x, y, width, height, given, -, -, -, -, -, -, -, carried⟩ := parts_of_placeImage read
    exact opensWithMove_of_base registered carried
  text := by
    intro head around paint wanted start _ isText read
    refine ⟨trivial, fun style read' => ?_⟩
    obtain ⟨properties, -, -, -⟩ := parts_of_textStart read
    obtain ⟨x, y, base, -, -, carried, rfl⟩ := parts_of_textStyle read'
    rw [properties] at carried
    exact opensWithMove_of_base registered carried
  group := by
    intro head around inherited start _ isGroup read
    refine ⟨trivial, fun isNested children g read' => ?_⟩
    obtain ⟨base, place, carried, -, rfl⟩ := parts_of_groupEnd read'
    have outlined := opensWithMove_of_base registered carried
    exact ⟨_, rfl, outlined⟩

end Context

section

variable {σ : Type} {e : Embedder σ} {o : Options Float} {fonts : FontTable} {text : List Char}
  {s : σ}

namespace Rounds

variable (r : Rounds e o fonts text s)

theorem outlined_definitions : r.definitions.Outlined := by
  intro id d found ops outlined
  have isSome : d.outline?.isSome = true := Option.isSome_iff_exists.mpr ⟨ops, outlined⟩
  obtain ⟨e, -, defined⟩ := Context.exists_definition?_of_gathered rfl r.gathered found isSome
  exact Context.opensWithMove_of_definition? defined ops outlined

theorem outlined_figures :
    ∀ f ∈ r.document.root.figures, ∀ ops ∈ f.outlines, OpensWithMove ops :=
  r.forall_mem_figures (Context.upholds_outlined r.outlined_definitions) trivial

end Rounds

end

open PathData in
/-- After every group of path data, even if a fault comes later, the pen tells what is drawn by then.
An arc gets to where it was asked to. And so no outline of a document that is read draws before it
has moved to a point. -/
theorem outlines_tracked :
    (∀ text segments last rest, Reaches (α := Float) none text segments last rest →
      segments ≠ [] → Tracks (Pen.initial.after segments) (outlineFrom .initial segments)) ∧
    (∀ (pen : Pen Float) relative rx ry rotation large sweep p, StrokesTo (pen.place relative p)
      (pen.draw ⟨relative, .arc rx ry rotation large sweep p⟩).1) ∧
    ∀ (σ : Type) (e : Embedder σ) (o : Options Float) (fonts : FontTable) (text : List Char) (s : σ)
      (d : Document), (Document.read e o fonts text s).result = .ok d →
        (∀ f ∈ d.root.figures, ∀ ops ∈ f.outlines, OpensWithMove ops) ∧
          (Document.read e o fonts text s).registers.definitions.Outlined := by
  refine ⟨fun _ _ _ _ way some => way.tracks some, strokesTo_draw_arc, ?_⟩
  intro σ e o fonts text s d ok
  obtain ⟨r, rfl⟩ := Document.exists_rounds ok
  rw [r.read_eq]
  exact ⟨r.outlined_figures, r.outlined_definitions⟩

/-- A square that is clipped to another one, which is moved. -/
def clippedSquare : List Char :=
  ["<svg><clipPath id=\"a\">", "<rect width=\"1\" height=\"1\" ", "transform=\"translate(1 2)\"/>",
    "</clipPath><path d=\"M0 0h2v2h-2z\" ", "clip-path=\"url(#a)\"/></svg>"].flatMap String.toList

open PathData Decimal in
/-- A line from the start of a subpath that has been closed, and a document with two outlines. -/
theorem outlines_tracked_clipped :
    Reaches (α := Float) none "M1 2zh3".toList
        [⟨false, .move (written ⟨false, 1, 0⟩ ⟨false, 2, 0⟩)⟩, ⟨true, .close⟩]
        (some ⟨.close, true⟩) "h3".toList ∧
      Tracks (Pen.initial.after (α := Float)
          [⟨false, .move (written ⟨false, 1, 0⟩ ⟨false, 2, 0⟩)⟩, ⟨true, .close⟩])
        [.moveTo (written ⟨false, 1, 0⟩ ⟨false, 2, 0⟩), .close] ∧
      ∃ d, (Document.read Workshop.embedder .initial .empty clippedSquare {}).result = .ok d ∧
        (d.root.figures.flatMap Figure.outlines).map List.length = [5, 6] ∧
          ∀ f ∈ d.root.figures, ∀ ops ∈ f.outlines, OpensWithMove ops := by
  have reached : Reaches (α := Float) none "M1 2zh3".toList
      [⟨false, .move (written ⟨false, 1, 0⟩ ⟨false, 2, 0⟩)⟩, ⟨true, .close⟩]
      (some ⟨.close, true⟩) "h3".toList :=
    .group (k := ⟨.move, false⟩) rfl rfl (.group (k := ⟨.close, true⟩) rfl rfl .here)
  refine ⟨reached, outlines_tracked.1 _ _ _ _ reached (List.cons_ne_nil _ _), ?_⟩
  have lengths : (Document.read Workshop.embedder .initial .empty clippedSquare {}).result.toOption.map
      (fun d => (d.root.figures.flatMap Figure.outlines).map List.length) = some [5, 6] := by
    decide +kernel
  cases ok : (Document.read Workshop.embedder .initial .empty clippedSquare {}).result with
  | error problem =>
    rw [ok] at lengths
    cases lengths
  | ok d =>
    rw [ok] at lengths
    exact ⟨d, rfl, Option.some.inj lengths, (outlines_tracked.2.2 _ _ _ _ _ _ d ok).1⟩

end SvgPage

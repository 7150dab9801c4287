import SvgPage.Proofs.Paint.Validity
import SvgPage.Proofs.Scene.Resolution

/-!
# Valid scenes

Whatever a document says, what is drawn of it keeps to the ranges of its properties: the ranges hold
of every value that is read, and they go down with what is inherited. The offsets of a gradient
never go back, be the stops its own or those of its chain.
-/

namespace SvgPage

open Xml

namespace Context

variable {cx : Context}

theorem valid_of_stop {h : Head} {s : Stop Float} (read : cx.stop h = .ok s) : s.Valid := by
  unfold Context.stop at read
  obtain ⟨offset, offsetRead, read⟩ := exists_of_bind_eq_ok read
  obtain ⟨current, -, read⟩ := exists_of_bind_eq_ok read
  obtain ⟨color, -, read⟩ := exists_of_bind_eq_ok read
  obtain ⟨opacity, opacityRead, read⟩ := exists_of_bind_eq_ok read
  cases read
  constructor
  · unfold Head.read at offsetRead
    split at offsetRead
    · cases offsetRead
      exact isShare_zero
    · obtain ⟨v, valued, rfl⟩ := exists_of_map_eq_ok offsetRead
      exact Opacity.isShare_of_read? (Properties.required_eq_ok_iff.mp valued)
  · obtain ⟨-, rfl⟩ := opacity_eq_ok_iff.mp opacityRead
    cases stated : (cx.properties h).value? "stop-opacity" opacity? with
    | none => exact isShare_one
    | some v => exact forall_mem_opacity? v stated

theorem valid_notBefore {least : Option Float} {s : Stop Float} (h : s.Valid)
    (bound : ∀ l ∈ least, IsShare l) :
    (Stop.notBefore least s).Valid ∧ ∀ l ∈ least, l ≤ (Stop.notBefore least s).offset := by
  cases least with
  | none => exact ⟨h, nofun⟩
  | some l =>
    have share := bound l rfl
    have number := (Double.isNaN_eq_false_of_le h.offset.1).2
    have number' := (Double.isNaN_eq_false_of_le share.1).2
    have moved : (Stop.notBefore (some l) s).offset = Scalar.maximum s.offset l := rfl
    rcases Double.maximum_cases number number' with ⟨below, chosen⟩ | ⟨above, chosen⟩ <;>
      rw [chosen] at moved
    · refine ⟨⟨by rwa [moved], h.opacity⟩, fun k same => ?_⟩
      rw [moved, Option.some.inj same]
      exact Double.le_refl (Option.some.inj same ▸ number')
    · refine ⟨⟨by rw [moved]; exact h.offset, h.opacity⟩, fun k same => ?_⟩
      rw [moved, ← Option.some.inj same]
      exact above

/-- By induction on the elements: each stop is a lower bound for all later ones. -/
theorem valid_of_stops {tag : String} {es : List Element} {least : Option Float}
    {ss : List (Stop Float)} (bound : ∀ l ∈ least, IsShare l)
    (read : cx.stops tag least es = .ok ss) :
    (∀ s ∈ ss, s.Valid) ∧ (least.toList ++ ss.map Stop.offset).Pairwise (· ≤ ·) := by
  induction es generalizing least ss with
  | nil =>
    cases read
    exact ⟨nofun, by cases least <;> simp⟩
  | cons e es ih =>
    unfold Context.stops at read
    obtain ⟨kind, -, read⟩ := exists_of_bind_eq_ok read
    split at read
    · obtain ⟨s, stop, read⟩ := exists_of_bind_eq_ok read
      obtain ⟨more, rest, read⟩ := exists_of_bind_eq_ok read
      cases read
      obtain ⟨valid, notBefore⟩ := valid_notBefore (valid_of_stop stop) bound
      obtain ⟨valids, ascending⟩ := ih (fun l same => Option.some.inj same ▸ valid.offset) rest
      refine ⟨List.forall_mem_cons.mpr ⟨valid, valids⟩, ?_⟩
      cases least with
      | none => exact ascending
      | some l =>
        have first : l ≤ (Stop.notBefore (some l) s).offset := notBefore l rfl
        refine List.pairwise_cons.mpr ⟨List.forall_mem_cons.mpr ⟨first, ?_⟩, ascending⟩
        exact fun v member => Double.le_trans first (List.rel_of_pairwise_cons ascending member)
    split at read
    · obtain ⟨-, -, read⟩ := exists_of_bind_eq_ok read
      exact ih bound read
    · cases read

theorem valid_of_gradient {kind : ElementKind} {e : Element} {g : Gradient Float}
    (read : cx.gradient kind e = .ok g) : g.Valid := by
  unfold Context.gradient at read
  obtain ⟨units, -, read⟩ := exists_of_bind_eq_ok read
  obtain ⟨transform, -, read⟩ := exists_of_bind_eq_ok read
  obtain ⟨spread, -, read⟩ := exists_of_bind_eq_ok read
  obtain ⟨shape, -, read⟩ := exists_of_bind_eq_ok read
  obtain ⟨stops, stopsRead, read⟩ := exists_of_bind_eq_ok read
  cases read
  obtain ⟨valids, ascending⟩ := valid_of_stops (by nofun) stopsRead
  exact ⟨valids, ascending⟩

theorem valid_of_declaredGradients {root : Xml.Node} {id : String} {g : Gradient Float}
    (declared : (cx.declaredGradients root).get? id = some g) : g.Valid := by
  obtain ⟨r, member, pending⟩ := List.mem_filterMap.mp (Shelf.mem_of_get? declared)
  obtain ⟨p, waits, entry⟩ := Option.map_eq_some_iff.mp pending
  cases entry
  obtain ⟨x, read, waits⟩ := Option.bind_eq_some_iff.mp waits
  obtain ⟨e, -, declared⟩ := List.mem_filterMap.mp member
  obtain ⟨id, -, declared⟩ := Option.bind_eq_some_iff.mp declared
  obtain ⟨definition, defined, same⟩ := Option.bind_eq_some_iff.mp declared
  cases same
  cases definition with
  | error problem => cases read
  | ok d =>
    cases read
    cases d with
    | gradient g =>
      cases waits
      unfold Context.definition? at defined
      split at defined
      · obtain ⟨g', gradient, same⟩ := exists_of_map_eq_ok (Option.some.inj defined)
        cases same
        exact valid_of_gradient gradient
      · obtain ⟨g', gradient, same⟩ := exists_of_map_eq_ok (Option.some.inj defined)
        cases same
        exact valid_of_gradient gradient
      · obtain ⟨c, -, same⟩ := exists_of_map_eq_ok (Option.some.inj defined)
        cases same
      · obtain ⟨m, -, same⟩ := exists_of_map_eq_ok (Option.some.inj defined)
        cases same
      · obtain ⟨f, -, same⟩ := exists_of_map_eq_ok (Option.some.inj defined)
        cases same
      · cases defined
    | clipPath | mask | filter => cases waits

end Context

theorem GradientMap.Leads.exists_gradient {gs : GradientMap Float} {n : Nat} {id : String}
    {stops : List (Stop Float)} (h : gs.Leads n id stops) :
    ∃ id' g, gs.get? id' = some g ∧ g.stops = stops := by
  induction h with
  | @here id g found _ => exact ⟨id, g, found, rfl⟩
  | step _ _ _ _ ih => exact ih

theorem GradientMap.Settles.valid {gs : GradientMap Float} {id : String} {g : Gradient Float}
    (h : gs.Settles id g) (all : ∀ id g, gs.get? id = some g → g.Valid) : g.Valid := by
  cases h with
  | leading found leads =>
    obtain ⟨id', giver, given, rfl⟩ := leads.exists_gradient
    exact ⟨(all id' giver given).stops, (all id' giver given).ascending⟩
  | alone found never => exact all id g found

structure TextStyle.Valid (style : TextStyle Float) : Prop where
  size : 0 ≤ style.size
  fill : ∀ p ∈ style.fill, p.Valid
  fillOpacity : ∀ v ∈ style.fillOpacity, IsShare v
  stroke : ∀ p ∈ style.stroke, p.Valid
  strokeOpacity : ∀ v ∈ style.strokeOpacity, IsShare v

structure PlacedImage.Valid (i : PlacedImage Float) : Prop where
  width : ¬i.box.width < 0
  height : ¬i.box.height < 0
  opacity : ∀ v ∈ i.opacity, IsShare v

namespace Figure

/-- What is set keeps to its range. -/
def Styled : Figure → Prop
  | shape s => s.paint.Valid
  | image i => i.Valid
  | text style => style.Valid
  | group paint _ _ => paint.Valid

structure Valid (f : Figure) : Prop where
  styled : f.Styled
  blended : f.base.blendMode ≠ some .normal

end Figure

namespace Context

variable {cx : Context}

theorem blendMode_ne_of_base {h : Head} {ps : Properties} {box : Option (Rect Float)}
    {base : Base Float} (read : cx.base h ps box = .ok base) : base.blendMode ≠ some .normal := by
  unfold Context.base at read
  obtain ⟨transform, -, read⟩ := exists_of_bind_eq_ok read
  obtain ⟨clip, -, read⟩ := exists_of_bind_eq_ok read
  obtain ⟨mask, -, read⟩ := exists_of_bind_eq_ok read
  obtain ⟨filter, -, read⟩ := exists_of_bind_eq_ok read
  obtain ⟨mode, blended, read⟩ := exists_of_bind_eq_ok read
  cases read
  unfold Context.blendMode at blended
  obtain ⟨stated, -, blended⟩ := exists_of_bind_eq_ok blended
  cases blended
  intro normal
  obtain ⟨-, other⟩ := Option.filter_eq_some_iff.mp normal
  cases other

theorem nonneg_of_textAttributes {tag : String} {ps : Properties}
    {inherited wanted : TextAttributes} (inherits : 0 ≤ inherited.size)
    (read : textAttributes tag ps inherited = .ok wanted) : 0 ≤ wanted.size := by
  unfold textAttributes at read
  obtain ⟨size, sized, read⟩ := exists_of_bind_eq_ok read
  cases read
  obtain ⟨-, rfl⟩ := Properties.read_eq_ok_iff.mp sized
  unfold TextAttributes.descend
  cases stated : ps.value? "font-size" fun raw => readFontSize? raw.toList inherited.size with
  | none => exact inherits
  | some v =>
    refine Properties.forall_mem_value? (P := (0 ≤ ·)) (fun raw v read => ?_) v stated
    obtain ⟨w, -, accepted⟩ := Option.bind_eq_some_iff.mp read
    split at accepted <;> cases accepted
    assumption

theorem not_neg_of_nonNegative {h : Head} {name : String} {axis : Axis} {given : Option Float}
    (n : Nat) (read : cx.nonNegative h name axis = .ok given) : ¬given.getD n.toFloat < 0 := by
  unfold nonNegative Head.read at read
  split at read
  · cases read
    exact Double.not_natCast_lt_zero n
  · obtain ⟨v, valued, rfl⟩ := exists_of_map_eq_ok read
    obtain ⟨w, -, accepted⟩ := Option.bind_eq_some_iff.mp (Properties.required_eq_ok_iff.mp valued)
    split at accepted <;> cases accepted
    assumption

/-- What the contents of an element inherit is valid, and so is every figure. -/
theorem upholds_valid (registered : ∀ id g, cx.definitions.gradient? id = some g → g.Valid) :
    cx.Upholds (fun _ paint wanted => paint.Valid ∧ 0 ≤ wanted.size) fun _ f => f.Valid where
  shape := by
    intro head around paint wanted kind s inherits known isShape read
    obtain ⟨-, painted, carried⟩ := parts_of_shape read
    exact ⟨PaintStyle.valid_of_paintStyle registered inherits.1 painted,
      blendMode_ne_of_base carried⟩
  image := by
    intro head around paint wanted handle i inherits known read
    obtain ⟨x, y, width, height, given, -, -, widthRead, heightRead, box, opacityRead, opacity,
      carried⟩ := parts_of_placeImage read
    obtain ⟨-, rfl⟩ := opacity_eq_ok_iff.mp opacityRead
    refine ⟨⟨?width, ?height, ?opacity⟩, blendMode_ne_of_base carried⟩
    case width => exact box ▸ not_neg_of_nonNegative _ widthRead
    case height => exact box ▸ not_neg_of_nonNegative _ heightRead
    case opacity => exact opacity ▸ forall_mem_or forall_mem_opacity? inherits.1.opacity
  text := by
    intro head around paint wanted start inherits isText read
    obtain ⟨-, painted, attributes, -⟩ := parts_of_textStart read
    have valid := PaintStyle.valid_of_paintStyle registered inherits.1 painted
    have size := nonneg_of_textAttributes inherits.2 attributes
    refine ⟨⟨valid, size⟩, fun style read => ?_⟩
    obtain ⟨x, y, base, -, -, carried, rfl⟩ := parts_of_textStyle read
    exact ⟨⟨size, valid.fill, valid.fillOpacity, valid.stroke, valid.strokeOpacity⟩,
      blendMode_ne_of_base carried⟩
  group := by
    intro head around inherited start inherits isGroup read
    obtain ⟨painted, attributes, -⟩ := parts_of_groupStart read
    have valid := PaintStyle.valid_of_paintStyle registered inherits.1 painted
    refine ⟨⟨valid, nonneg_of_textAttributes inherits.2 attributes⟩,
      fun isNested children g read => ?_⟩
    obtain ⟨base, place, carried, -, rfl⟩ := parts_of_groupEnd read
    have blended := blendMode_ne_of_base carried
    -- The matrix of a nested picture blends nothing.
    exact ⟨_, rfl, valid, blended⟩

end Context

section

variable {σ : Type} {e : Embedder σ} {o : Options Float} {fonts : FontTable} {text : List Char}
  {s : σ}

namespace Rounds

variable (r : Rounds e o fonts text s)

theorem valid_of_gradient? {id : String} {g : Gradient Float}
    (found : r.definitions.gradient? id = some g) : g.Valid := by
  have registered : r.definitions.get? id = some (.gradient g) := by
    unfold Definitions.gradient? at found
    split at found
    · next entry => rw [entry, Option.some.inj found]
    · cases found
  exact (r.get?_definitions_eq_gradient_iff.mp registered).valid fun _ _ =>
    Context.valid_of_declaredGradients

theorem valid_figures (size : 0 ≤ o.fontSize) : ∀ f ∈ r.document.root.figures, f.Valid :=
  r.forall_mem_figures (Context.upholds_valid fun _ _ => r.valid_of_gradient?)
    ⟨PaintStyle.valid_initial, size⟩

end Rounds

/-- In a document that is read, what every node sets keeps to its range, and so do the stops of
every gradient that is registered. -/
theorem Document.figures_valid {d : Document} (size : 0 ≤ o.fontSize)
    (ok : (Document.read e o fonts text s).result = .ok d) :
    (∀ f ∈ d.root.figures, f.Valid) ∧ ∀ id g,
      (Document.read e o fonts text s).registers.definitions.get? id = some (.gradient g) →
        g.Valid := by
  obtain ⟨r, rfl⟩ := Document.exists_rounds ok
  refine ⟨r.valid_figures size, fun id g found => ?_⟩
  rw [r.read_eq] at found
  have known : r.definitions.gradient? id = some g := by
    unfold Definitions.gradient?
    exact found ▸ rfl
  exact r.valid_of_gradient? known

end

/-- A shape with a gradient that has its stops from another one, whose stops go back, with dashes of
odd number, and with too large an opacity. -/
def ragged : List Char :=
  ["<svg><linearGradient id=\"a\">", "<stop offset=\"50%\"/>", "<stop offset=\"20%\"/>",
    "</linearGradient>", "<linearGradient id=\"b\" ", "href=\"#a\"/>", "<rect fill=\"url(#b)\" ",
    "stroke-dasharray=\"1\" ", "stroke-opacity=\"2\"/></svg>"].flatMap String.toList

/-- The offsets, the dashes and the opacity of a shape. -/
def Figure.strokes? : Figure → Option (Option (List Float) × Option (List Float) × Option Float)
  | shape s =>
    some ((s.paint.fill.bind Paint.gradient?).map fun g => g.stops.map Stop.offset,
      s.paint.dash.map Dash.pattern, s.paint.strokeOpacity)
  | _ => none

/-- The second stop moves up to the first one, the dashes are doubled, and the opacity is full. -/
theorem figures_valid_ragged : ∃ d,
    (Document.read Workshop.embedder .initial .empty ragged {}).result = .ok d ∧
      (∀ f ∈ d.root.figures, f.Valid) ∧
        d.root.figures.filterMap Figure.strokes? = [(some [0.5, 0.5], some [1, 1], some 1)] := by
  have drawn : (Document.read Workshop.embedder .initial .empty ragged {}).result.toOption.map
      (fun d => d.root.figures.filterMap Figure.strokes?) =
        some [(some [0.5, 0.5], some [1, 1], some 1)] := by decide +kernel
  cases ok : (Document.read Workshop.embedder .initial .empty ragged {}).result with
  | error problem =>
    rw [ok] at drawn
    cases drawn
  | ok d =>
    rw [ok] at drawn
    exact ⟨d, rfl, (Document.figures_valid (by decide +kernel) ok).1, Option.some.inj drawn⟩

end SvgPage

import SvgPage.Proofs.Page.Likeness

/-!
# Compilation paints the scene

Run on the machine, the operators of a node leave the marks of its paintings, in order, and restore
the state they started from. The parts of compilation are taken one by one, each with the resources
of any later time.
-/

namespace SvgPage

open Machine

namespace Machine

variable {r : Resources} {s : State}

theorem State.adopt_adopt (p : Settings) (s : State) : (s.adopt p).adopt p = s.adopt p := by
  have getD_getD : ∀ {α : Type} (o : Option α) (x : α), o.getD (o.getD x) = o.getD x := by
    intro α o x
    cases o <;> rfl
  have or_or : ∀ {α : Type} (o o' : Option α), o.or (o.or o') = o.or o' := by
    intro α o o'
    cases o <;> rfl
  simp only [State.adopt, getD_getD, or_or]

theorem Shows.transforms (ms : List (Matrix Float)) (s : State) :
    Shows r (ms.map .concat) s (s.through ms) [] :=
  .change (Draws.concats ms) fun _ ht => ht.through ms

theorem Shows.clip (path : List (PathOp Float)) (rule : FillRule) (s : State) :
    Shows r (Drawing.clip path rule) s (s.cutTo path rule) [] :=
  .change (Draws.clip path rule) fun _ ht => ht.cutTo path rule

theorem Shows.clipping (clip : Option (Clip Float)) (s : State) :
    Shows r (Drawing.clipping clip) s (s.cutToClip clip) [] := by
  cases clip with
  | none => exact .nil s
  | some c => exact .clip c.ops c.rule s

theorem Shows.setting {α : Type} {op : α → Operator} {p : Option α → Settings}
    (absent : p none = {})
    (present : ∀ a c, step r c (op a) = some (c.update (.adopt (p (some a))))) (o : Option α)
    (s : State) : Shows r (o.map op).toList s (s.adopt (p o)) [] := by
  cases o with
  | none =>
    rw [absent]
    exact .nil s
  | some a =>
    refine .change (Draws.update (present a)) fun t ht => ?_
    exact ht.adopt (p (some a)) (State.sameFont_refl _)

/-- Operators that save the state and then enter a scope. -/
def Opens (r : Resources) (ops : List Operator) (f : Scope) : Prop :=
  ∀ s, ∃ inner, ops = .push :: inner ∧ Shows r inner s (s.enter f) []

theorem Opens.paints {start body : List Operator} {f : Scope} {s' : State} {ms : List Mark}
    (hstart : Opens r start f) (hbody : Shows r body (s.enter f) s' ms) :
    Paints r (start ++ body ++ [.pop]) s ms := by
  obtain ⟨inner, rfl, opened⟩ := hstart s
  simpa using (opened.append hbody).bracket

/-- A computation of operators that leave the marks of some paintings, from any state and with the
resources of any later time. -/
def Renders (m : StateM Resources (List Operator)) (ps : List Painting) : Prop :=
  Lasting (fun final ops => ∀ s, Paints final ops s (ps.map (Painting.mark s))) m

theorem Renders.nothing : Renders (pure []) [] := .pure fun _ s => .nil s

end Machine

namespace Drawing

variable {r : Resources} {s : State}

theorem lasting_graphicsState (g : GraphicsState) :
    Lasting (fun final ops => ∀ s, Shows final ops s (s.impose g) []) (graphicsState g) := by
  unfold graphicsState
  split
  · next empty =>
    refine .pure fun final s => ?_
    obtain ⟨fill, stroke, blend⟩ := g
    obtain ⟨⟨rfl, rfl⟩, rfl⟩ : (fill = none ∧ stroke = none) ∧ blend = none := by
      simpa [GraphicsState.isEmpty] using empty
    exact .nil s
  · refine (Resources.lasting_state g).bind fun name => .pure fun final named s => ?_
    obtain ⟨g', found, alike⟩ := named
    have draws : ∀ t, Draws final [.graphicsState name] t (t.impose g') [] :=
      Draws.update fun c => by simp [step, found]
    exact .change draws fun t ht => ht.impose alike

theorem lasting_opening (base : Base Float) (g : GraphicsState) :
    Lasting (fun final ops => Opens final ops (.ofNode base g)) (opening base g) := by
  refine (lasting_graphicsState g).bind fun state => .pure fun final hstate s => ?_
  refine ⟨_, rfl, ?_⟩
  exact ((Shows.transforms base.transform s).append (.clipping base.clip _)).append (hstate _)

theorem renders_placedGradient (s : Shape Float) (g : Gradient Float)
    (placed : PlacedGradient Float) :
    Renders
      (do let name ← Registry.allocateShading (.ofGradient placed.ramp g.stops)
          return .push :: clip s.ops s.paint.fillRule ++
            [.concat placed.matrix, .paintShading name, .pop])
      [s.gradientPainting g placed] := by
  refine (Resources.lasting_shading _).bind fun name => .pure fun final named t => ?_
  obtain ⟨shading, found, alike⟩ := named
  have painted : ∀ u, Paints final [.paintShading name] u
      [⟨.shading (.ofGradient placed.ramp g.stops), u⟩] :=
    Paints.mark (fun c => by simp only [step, found, Option.map_some])
      (show Act.Like (.shading shading) (.shading _) from alike)
  have inner := ((Shows.clip s.ops s.paint.fillRule t).append
    (.transforms [placed.matrix] _)).append (painted _).shows
  simpa [Shape.gradientPainting, Painting.mark] using inner.bracket

theorem renders_gradientOf (s : Shape Float) : Renders (gradientOf s) s.gradientPaintings := by
  unfold gradientOf Shape.gradientPaintings
  cases s.paint.fill with
  | none => exact .nothing
  | some paint =>
    cases paint with
    | solid c => exact .nothing
    | gradient g =>
      unfold gradientFill
      dsimp only
      cases (Path.bbox? s.ops).bind g.place? with
      | none => exact .nothing
      | some placed => exact renders_placedGradient s g placed

theorem shows_strokeSettings (paint : PaintStyle Float) (color : Color Float) (s : State) :
    Shows r (strokeSettings paint color) s (s.adopt
      { strokeColor := some color, lineWidth := paint.strokeWidth, lineJoin := paint.strokeJoin,
        miterLimit := paint.miterLimit, lineCap := paint.strokeCap, dash := paint.dash }) [] := by
  have stroke : Shows r [.strokeColor color] s _ [] :=
    .setting (p := fun o => { strokeColor := o }) rfl (fun _ _ => rfl) (some color) s
  exact ((((stroke.append
    (.setting (p := fun o => { lineWidth := o }) rfl (fun _ _ => rfl) paint.strokeWidth _)).append
    (.setting (p := fun o => { lineJoin := o }) rfl (fun _ _ => rfl) paint.strokeJoin _)).append
    (.setting (p := fun o => { miterLimit := o }) rfl (fun _ _ => rfl) paint.miterLimit _)).append
    (.setting (p := fun o => { lineCap := o }) rfl (fun _ _ => rfl) paint.strokeCap _)).append
    (.setting (p := fun o => { dash := o }) rfl (fun _ _ => rfl) paint.dash _)

theorem paints_path (s : Shape Float) (t : State) :
    Paints r (path s.ops ++ [pathEnd s.paint.fillColor?.isSome s.paint.strokeColor?.isSome
      s.paint.fillRule]) t (s.outlineAct?.toList.map (⟨·, t⟩)) := by
  intro u hu
  refine ⟨s.outlineAct?.toList.map (⟨·, u⟩), fun saved marks => ?_, ?_⟩
  · unfold Shape.outlineAct?
    cases s.paint.fillColor? <;> cases s.paint.strokeColor? <;>
      simp [Draws.run_path, step, pathEnd, Config.idle, Config.mark, Config.finish]
  · cases s.outlineAct? with
    | none => exact .nil
    | some act => exact .cons ⟨.refl act, hu⟩ .nil

theorem shows_outline (s : Shape Float) (t : State) :
    Shows r (outline s) t (t.adopt (.ofShape s.paint))
      (s.outlinePaintings.map (Painting.mark t)) := by
  have fill : Shows r (s.paint.fillColor?.map .fillColor).toList t
      (t.adopt { fillColor := s.paint.fillColor? }) [] :=
    .setting (p := fun o => { fillColor := o }) rfl (fun _ _ => rfl) _ t
  have line : Shows r ((s.paint.strokeColor?.map (strokeSettings s.paint)).getD [])
      (t.adopt { fillColor := s.paint.fillColor? }) (t.adopt (.ofShape s.paint)) [] := by
    unfold Settings.ofShape
    cases s.paint.strokeColor? with
    | none => exact .nil _
    | some color => exact shows_strokeSettings s.paint color _
  have painted := fill.append (line.append (paints_path s (t.adopt (.ofShape s.paint))).shows)
  have marks : s.outlinePaintings.map (Painting.mark t) =
      s.outlineAct?.toList.map (⟨·, t.adopt (.ofShape s.paint)⟩) := by
    simp [Shape.outlinePaintings, Painting.mark]
  rw [marks, outline_eq]
  exact painted

theorem lasting_openingShape (s : Shape Float) :
    Lasting (fun final ops => Opens final ops (.ofShape s)) (opening s.base (shapeState s)) := by
  have opens := lasting_opening s.base (shapeState s)
  unfold shapeState at opens ⊢
  simp only [opacityOf_eq] at opens ⊢
  exact opens

theorem lasting_openingText (t : TextStyle Float) :
    Lasting (fun final ops => Opens final ops (.ofText t)) (opening t.base (textState t)) := by
  have opens := lasting_opening t.base (textState t)
  unfold textState at opens ⊢
  simp only [opacityOf_eq] at opens ⊢
  exact opens

theorem renders_shape (s : Shape Float) : Renders (shape s) s.paintings := by
  refine (lasting_openingShape s).bind fun start => ?_
  refine (renders_gradientOf s).bind fun gradient => .pure fun final hgradient hstart t => ?_
  have inner := (hgradient (t.enter (.ofShape s))).shows.append (shows_outline s _)
  rw [Shape.paintings, Painting.map_mark_within, List.map_append]
  exact hstart.paints inner

theorem renders_image (i : PlacedImage Float) : Renders (image i) i.paintings := by
  refine (lasting_opening i.base _).bind fun start => ?_
  refine (Resources.lasting_image i.image).bind fun name => .pure fun final named hstart t => ?_
  obtain ⟨handle, found, same⟩ := named
  have painted : ∀ u, Paints final [.drawImage name] u [⟨.image i.image, u⟩] :=
    Paints.mark (fun c => by simp only [step, found, Option.map_some])
      (show Act.Like (.image handle) (.image _) from same)
  have inner : ∀ u, Shows final _ u _ _ := fun u =>
    (Shows.transforms [.translate i.box.x (i.box.y + i.box.height),
      .scale i.box.width (-i.box.height)] u).append (painted _).shows
  simpa [PlacedImage.paintings, Painting.mark] using hstart.paints (inner (t.enter _))

theorem shows_glyphs {name : String} (t : TextStyle Float) (named : r.NamesFont name t.font)
    (m : Matrix Float) (bytes : List UInt8) (s : State) :
    Shows r ([.beginText, .font name t.size] ++ (if t.mode = 0 then [] else [.renderMode t.mode]) ++
        [.textMatrix m, .showText bytes, .endText]) s (s.adopt (.ofGlyphs t))
      [⟨.glyphs bytes m, s.adopt (.ofGlyphs t)⟩] := by
  obtain ⟨f, found, same⟩ := named
  intro u hu
  let u' := u.adopt { Settings.ofGlyphs t with font := some (f, t.size) }
  have like : u'.Like (s.adopt (.ofGlyphs t)) := hu.adopt (.ofGlyphs t) (.some ⟨same, rfl⟩)
  refine ⟨u', [⟨.glyphs bytes m, u'⟩], fun saved marks => ?_, like, .cons ⟨.refl _, like⟩ .nil⟩
  by_cases plain : t.mode = 0 <;>
    simp [u', Settings.ofGlyphs, plain, step, found, Config.idle, Config.update, Config.mark,
      State.adopt]

theorem shows_run {name : String} (t : TextStyle Float) (named : r.NamesFont name t.font)
    (pen : Point Float) (characters : List Char) (s : State) :
    Shows r (run t name pen characters) s (s.adopt (.ofRun t))
      [⟨.glyphs (t.font.encode (String.ofList characters)) ⟨1, 0, 0, -1, pen.x, pen.y⟩,
        s.adopt (.ofRun t)⟩] := by
  have fill : Shows r (t.fillColor?.map .fillColor).toList s _ [] :=
    .setting (p := fun o => { fillColor := o }) rfl (fun _ _ => rfl) _ s
  have stroke : ∀ u, Shows r (t.strokeColor?.map .strokeColor).toList u _ [] :=
    .setting (p := fun o => { strokeColor := o }) rfl (fun _ _ => rfl) _
  have shown := (fill.append (stroke _)).append (shows_glyphs t named ⟨1, 0, 0, -1, pen.x, pen.y⟩
    (t.font.encode (String.ofList characters)) _)
  rw [run_eq]
  exact shown

/-- The state inside a text that has shown characters of its own, or has not. -/
def inside (t : TextStyle Float) (shown : Bool) (s : State) : State :=
  (Run.scopesOf t shown).foldl State.enter s

theorem inside_true (t : TextStyle Float) (s : State) :
    inside t true s = (s.enter (.ofText t)).adopt (.ofRun t) := by
  simp [inside, Run.scopesOf, Scope.ofRun]

theorem adopt_inside (t : TextStyle Float) (shown : Bool) (s : State) :
    (inside t shown s).adopt (.ofRun t) = inside t true s := by
  cases shown with
  | false => exact (inside_true t s).symm
  | true => rw [inside_true, State.adopt_adopt]

theorem map_mark_within (t : TextStyle Float) (shown : Bool) (s : State) (runs : List Run) :
    (runs.map (Run.within t shown)).map (Run.mark s) = runs.map (Run.mark (inside t shown s)) := by
  simp [Function.comp_def, Run.mark, Run.within, Run.painting, Painting.mark, inside]

theorem mark_literal (t : TextStyle Float) (shown : Bool) (characters : List Char)
    (pen : Point Float) (s : State) :
    Run.mark s ⟨[(t, shown)], t, characters, pen⟩ =
      ⟨.glyphs (t.font.encode (String.ofList characters)) ⟨1, 0, 0, -1, pen.x, pen.y⟩,
        inside t true s⟩ := by
  rw [← adopt_inside t shown]
  simp [Run.mark, Run.painting, Painting.mark, inside, Scope.ofRun]

/-- The name at a cursor leads to the font of the text. -/
def Cursor.Fits (r : Resources) (t : TextStyle Float) (c : Cursor) : Prop :=
  ∀ name, c.font = some name → r.NamesFont name t.font

/-- What writing a part of a text has come to: its runs, where the pen is, and whether the text has
shown characters of its own. -/
structure Written (r : Resources) (t : TextStyle Float) (c : Cursor) (runs : List Run)
    (pen : Point Float) (shown : Bool) (out : List Operator × Cursor) : Prop where
  penAt : out.2.pen = pen
  begun : out.2.font.isSome = shown
  fits : out.2.Fits r t
  shows : ∀ s, Shows r out.1 (inside t c.font.isSome s) (inside t shown s) (runs.map (Run.mark s))

theorem lasting_fontName (t : TextStyle Float) (c : Cursor) :
    Lasting (fun final name => c.Fits final t → final.NamesFont name t.font)
      (fontName t c.font) := by
  unfold Cursor.Fits
  cases c.font with
  | none => exact (Resources.lasting_font t.font).mono fun _ _ named _ => named
  | some name => exact .pure fun _ fits => fits name rfl

theorem lasting_literal (t : TextStyle Float) (characters : List Char) (c : Cursor) :
    Lasting (fun final out => c.Fits final t →
      Written final t c [⟨[(t, c.font.isSome)], t, characters, c.pen⟩] (t.after characters c.pen)
        true out) (textItem t (.literal characters) c) := by
  unfold textItem
  refine (lasting_fontName t c).bind fun name => .pure fun final hname fits => ?_
  have named := hname fits
  refine ⟨rfl, rfl, ?_, fun s => ?_⟩
  · rintro _ ⟨⟩
    exact named
  · have shown := shows_run t named c.pen characters (inside t c.font.isSome s)
    rw [adopt_inside] at shown
    simpa only [List.map_cons, List.map_nil, mark_literal] using shown

theorem Written.ofNested {t : TextStyle Float} {c : Cursor} {runs : List Run} {pen : Point Float}
    {out : List Operator × Cursor} (cursor : out.2 = { c with pen := pen })
    (paints : ∀ s, Paints r out.1 s (runs.map (Run.mark s))) (fits : c.Fits r t) :
    Written r t c (runs.map (Run.within t c.font.isSome)) pen c.font.isSome out where
  penAt := by rw [cursor]
  begun := by rw [cursor]
  fits := by
    rw [cursor]
    exact fits
  shows s := by
    rw [map_mark_within]
    exact (paints _).shows

theorem Written.append {t : TextStyle Float} {c : Cursor} {runs runs' : List Run}
    {pen pen' : Point Float} {shown shown' : Bool} {first rest : List Operator × Cursor}
    (h : Written r t c runs pen shown first) (h' : Written r t first.2 runs' pen' shown' rest) :
    Written r t c (runs ++ runs') pen' shown' (first.1 ++ rest.1, rest.2) where
  penAt := h'.penAt
  begun := h'.begun
  fits := h'.fits
  shows s := by
    have after := h'.shows s
    rw [h.begun] at after
    rw [List.map_append]
    exact (h.shows s).append after

mutual

theorem lasting_textItem (t : TextStyle Float) (item : TextItem Float) (c : Cursor) :
    Lasting (fun final out => c.Fits final t →
      Written final t c (item.runs t c.font.isSome c.pen) (item.endPen t c.pen)
        (c.font.isSome || item.isLiteral) out) (textItem t item c) := by
  cases item with
  | literal characters =>
    simpa [TextItem.runs, TextItem.endPen, TextItem.isLiteral] using lasting_literal t characters c
  | nested inner items =>
    refine (lasting_nested t inner items c).mono fun final out ⟨cursor, paints⟩ fits => ?_
    simpa [TextItem.runs, TextItem.endPen, TextItem.isLiteral] using
      Written.ofNested cursor paints fits

/-- A text inside another starts with nothing shown, and is painted from any state. -/
theorem lasting_nested (t inner : TextStyle Float) (items : List (TextItem Float)) (c : Cursor) :
    Lasting (fun final out =>
      out.2 = { c with pen := TextItem.endPens inner (inner.origin c.pen) items } ∧
      ∀ s, Paints final out.1 s
        ((TextItem.runsOf inner false (inner.origin c.pen) items).map (Run.mark s)))
      (textItem t (.nested inner items) c) := by
  unfold textItem
  refine (lasting_openingText inner).bind fun start => ?_
  refine (lasting_textItems inner items ⟨inner.origin c.pen, none⟩).bind fun body => ?_
  refine .pure fun final hbody hstart => ?_
  have written := hbody (by rintro _ ⟨⟩)
  refine ⟨by rw [← written.penAt], fun s => ?_⟩
  exact hstart.paints (written.shows s)

theorem lasting_textItems (t : TextStyle Float) (items : List (TextItem Float)) (c : Cursor) :
    Lasting (fun final out => c.Fits final t →
      Written final t c (TextItem.runsOf t c.font.isSome c.pen items)
        (TextItem.endPens t c.pen items) (c.font.isSome || items.any TextItem.isLiteral) out)
      (textItems t items c) := by
  cases items with
  | nil =>
    unfold textItems
    refine .pure fun _ fits => ⟨rfl, by simp, fits, fun s => ?_⟩
    simpa [TextItem.runsOf] using Shows.nil _
  | cons i is =>
    unfold textItems
    refine (lasting_textItem t i c).bind fun first => ?_
    refine (lasting_textItems t is first.2).bind fun rest => ?_
    refine .pure fun final hrest hfirst fits => ?_
    have before := hfirst fits
    have after := hrest before.fits
    rw [before.penAt, before.begun] at after
    simpa [TextItem.runsOf, TextItem.endPens, Bool.or_assoc] using before.append after

end

theorem renders_text (t : TextStyle Float) (items : List (TextItem Float)) :
    Renders (text t items) ((t.runs items).map Run.painting) := by
  unfold text
  refine (lasting_nested t t items _).bind fun out => .pure fun final ⟨_, paints⟩ s => ?_
  rw [List.map_map]
  exact paints s

end Drawing

namespace Node

mutual

/-- By induction on the scene: what is compiled from a node leaves the marks of its paintings. -/
theorem renders_compile (n : Node Float) : Renders n.compile n.paintings := by
  cases n with
  | shape s =>
    unfold compile paintings
    exact Drawing.renders_shape s
  | image i =>
    unfold compile paintings
    exact Drawing.renders_image i
  | text t items =>
    unfold compile paintings
    exact Drawing.renders_text t items
  | group paint base children =>
    unfold compile paintings
    refine (Drawing.lasting_opening base _).bind fun start => ?_
    refine (renders_compileAll children).bind fun body => .pure fun final hbody hstart s => ?_
    rw [Painting.map_mark_within]
    exact hstart.paints (hbody _).shows

theorem renders_compileAll (ns : List (Node Float)) :
    Renders (compileAll ns) (paintingsOf ns) := by
  cases ns with
  | nil =>
    unfold compileAll paintingsOf
    exact .nothing
  | cons n ns =>
    unfold compileAll paintingsOf
    refine (renders_compile n).bind fun first => ?_
    refine (renders_compileAll ns).bind fun rest => .pure fun final hrest hfirst s => ?_
    rw [List.map_append]
    exact (hfirst s).append (hrest s)

end

end Node

end SvgPage

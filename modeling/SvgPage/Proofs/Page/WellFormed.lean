import SvgPage.Proofs.Page.Grammar

/-!
# Compilation writes well-formed operators

Each part of compilation yields content, whatever names it is given for resources, and each node
yields a block. So the operators of a scene are well-formed, and those of a document with them.
-/

namespace SvgPage

namespace Content

variable {ops ops' : List Operator} {op : Operator}

theorem nil : Content [] := fun _ => rfl

theorem append (h : Content ops) (h' : Content ops') : Content (ops ++ ops') := fun d => by
  simp [h d, h' d]

theorem other (h : op.role = .other) : Content [op] := fun d => by
  simp [h, Position.move]

theorem ofAll (h : ∀ op ∈ ops, op.role = .other) : Content ops := by
  induction ops with
  | nil => exact nil
  | cons op ops ih =>
    rw [List.forall_mem_cons] at h
    exact (other h.1).append (ih h.2)

theorem ofOption {α : Type} {f : α → Operator} (h : ∀ a, (f a).role = .other) (o : Option α) :
    Content (o.map f).toList := by
  cases o with
  | none => exact nil
  | some a => exact other (h a)

theorem read_path (d : Nat) (path : List (PathOp Float)) :
    Position.read ⟨d, .outline⟩ (Drawing.path path) = some ⟨d, .outline⟩ := by
  induction path with
  | nil => rfl
  | cons o path ih =>
    have build : (Operator.ofPath o).role = .build := by cases o <;> rfl
    simpa [Drawing.path, Position.move, build] using ih

theorem pathThen {tail : List Operator}
    (h : ∀ d place, place = .page ∨ place = .outline →
      Position.read ⟨d, place⟩ tail = some ⟨d, .page⟩) (path : List (PathOp Float)) :
    Content (Drawing.path path ++ tail) := fun d => by
  cases path with
  | nil => simpa [Drawing.path] using h d .page (.inl rfl)
  | cons o path =>
    have build : (Operator.ofPath o).role = .build := by cases o <;> rfl
    have rest := read_path d path
    simp only [Drawing.path] at rest
    simp [Drawing.path, Position.move, build, rest, h d .outline (.inr rfl)]

theorem clip (path : List (PathOp Float)) (rule : FillRule) : Content (Drawing.clip path rule) :=
  pathThen (by rintro d place (rfl | rfl) <;> rfl) path

theorem pathEnd (path : List (PathOp Float)) (fills strokes : Bool) (rule : FillRule) :
    Content (Drawing.path path ++ [Drawing.pathEnd fills strokes rule]) :=
  pathThen (by
    rintro d place (rfl | rfl) <;> cases fills <;> cases strokes <;> rfl) path

end Content

section

variable {ρ α β : Type}

/-- Every result of a computation has a property, whatever resources it starts with. -/
def Yields (P : α → Prop) (m : StateM ρ α) : Prop := ∀ r, P (m r).1

namespace Yields

variable {P : α → Prop} {Q : β → Prop}

theorem pure {a : α} (h : P a) : Yields P (pure a : StateM ρ α) := fun _ => h

theorem bind {m : StateM ρ α} {f : α → StateM ρ β} (hm : Yields P m)
    (hf : ∀ a, P a → Yields Q (f a)) : Yields Q (m >>= f) := fun r => hf _ (hm r) _

theorem any (m : StateM ρ α) : Yields (fun _ => True) m := fun _ => trivial

end Yields

end

namespace Drawing

variable {ρ : Type} [Registry ρ]

theorem yields_graphicsState (s : GraphicsState) :
    Yields Content (graphicsState s : StateM ρ (List Operator)) := by
  unfold graphicsState
  split
  · exact .pure .nil
  · exact (Yields.any _).bind fun _ _ => .pure (.other rfl)

theorem yields_opening (base : Base Float) (s : GraphicsState) :
    Yields (fun ops => ∃ inner, ops = .push :: inner ∧ Content inner)
      (opening base s : StateM ρ (List Operator)) := by
  refine (yields_graphicsState s).bind fun state hstate => .pure ⟨_, rfl, ?_⟩
  refine ((Content.ofAll (by simp [Operator.role])).append ?_).append hstate
  unfold clipping
  cases base.clip with
  | none => exact .nil
  | some c => exact .clip c.ops c.rule

theorem block_of_opening {start body : List Operator}
    (hstart : ∃ inner, start = .push :: inner ∧ Content inner) (hbody : Content body) :
    Block (start ++ body ++ [.pop]) := by
  obtain ⟨inner, rfl, content⟩ := hstart
  exact ⟨inner ++ body, by simp, content.append hbody⟩

theorem yields_gradientFill (path : List (PathOp Float)) (rule : FillRule) (g : Gradient Float) :
    Yields Content (gradientFill path rule g : StateM ρ (List Operator)) := by
  unfold gradientFill
  split
  · exact .pure .nil
  · next placed _ =>
    refine (Yields.any _).bind fun name _ => .pure (Block.content ?_)
    exact ⟨clip path rule ++ [.concat placed.matrix, .paintShading name], by simp,
      (Content.clip path rule).append (.ofAll (by simp [Operator.role]))⟩

theorem content_strokeSettings (paint : PaintStyle Float) (color : Color Float) :
    Content (strokeSettings paint color) := by
  unfold strokeSettings
  exact (((((Content.other rfl).append (.ofOption (fun _ => rfl) _)).append
    (.ofOption (fun _ => rfl) _)).append (.ofOption (fun _ => rfl) _)).append
    (.ofOption (fun _ => rfl) _)).append (.ofOption (fun _ => rfl) _)

theorem yields_gradientOf (s : Shape Float) :
    Yields Content (gradientOf s : StateM ρ (List Operator)) := by
  unfold gradientOf
  split
  · exact yields_gradientFill _ _ _
  · exact .pure .nil

theorem content_outline (s : Shape Float) : Content (outline s) := by
  unfold outline
  rw [List.append_assoc]
  refine ((Content.ofOption (fun _ => rfl) _).append ?_).append (.pathEnd _ _ _ _)
  cases s.paint.stroke.bind soleColor? with
  | none => exact .nil
  | some color => exact content_strokeSettings s.paint color

theorem yields_shape (s : Shape Float) : Yields Block (shape s : StateM ρ (List Operator)) := by
  refine (yields_opening s.base (shapeState s)).bind fun start hstart => ?_
  refine (yields_gradientOf s).bind fun gradient hgradient => .pure ?_
  exact block_of_opening hstart (hgradient.append (content_outline s))

theorem yields_image (i : PlacedImage Float) :
    Yields Block (image i : StateM ρ (List Operator)) := by
  refine (yields_opening i.base _).bind fun start hstart => ?_
  refine (Yields.any _).bind fun name _ => .pure ?_
  exact block_of_opening hstart (.ofAll (by simp [Operator.role]))

theorem content_run (t : TextStyle Float) (font : String) (pen : Point Float)
    (characters : List Char) : Content (run t font pen characters) := by
  have text : ∀ d mode, Position.read ⟨d, .page⟩
      ([.beginText, .font font t.size] ++ (if mode = 0 then [] else [.renderMode mode]) ++
        [.textMatrix ⟨1, 0, 0, -1, pen.x, pen.y⟩,
          .showText (t.font.encode (String.ofList characters)), .endText]) = some ⟨d, .page⟩ := by
    intro d mode
    by_cases plain : mode = 0 <;> simp [plain, Position.move, Operator.role]
  unfold run
  simp only [List.append_assoc]
  refine (Content.ofOption (fun _ => rfl) _).append
    ((Content.ofOption (fun _ => rfl) _).append fun d => ?_)
  simpa only [List.append_assoc] using text d _

mutual

/-- A run is content; a text inside another is a block, and so content too. -/
theorem yields_textItem (t : TextStyle Float) (item : TextItem Float) (c : Cursor) :
    Yields (fun written => Content written.1)
      (textItem t item c : StateM ρ (List Operator × Cursor)) := by
  cases item with
  | literal characters =>
    unfold textItem
    exact (Yields.any _).bind fun name _ => .pure (content_run t name c.pen characters)
  | nested inner items =>
    exact fun r => (yields_nested t inner items c r).content

theorem yields_nested (t inner : TextStyle Float) (items : List (TextItem Float)) (c : Cursor) :
    Yields (fun written => Block written.1)
      (textItem t (.nested inner items) c : StateM ρ (List Operator × Cursor)) := by
  unfold textItem
  refine (yields_opening inner.base (textState inner)).bind fun start hstart => ?_
  refine (yields_textItems inner items _).bind fun body hbody => .pure ?_
  exact block_of_opening hstart hbody

theorem yields_textItems (t : TextStyle Float) (items : List (TextItem Float)) (c : Cursor) :
    Yields (fun written => Content written.1)
      (textItems t items c : StateM ρ (List Operator × Cursor)) := by
  cases items with
  | nil =>
    unfold textItems
    exact .pure .nil
  | cons i is =>
    unfold textItems
    refine (yields_textItem t i c).bind fun first hfirst => ?_
    refine (yields_textItems t is first.2).bind fun rest hrest => .pure ?_
    exact hfirst.append hrest

end

theorem yields_text (t : TextStyle Float) (items : List (TextItem Float)) :
    Yields Block (text t items : StateM ρ (List Operator)) := by
  unfold text
  exact (yields_nested t t items _).bind fun written hwritten => .pure hwritten

end Drawing

namespace Node

variable {ρ : Type} [Registry ρ]

mutual

/-- By induction on the scene: every node is a block, and nodes in a row are content. -/
theorem yields_compile (n : Node Float) : Yields Block (n.compile : StateM ρ (List Operator)) := by
  cases n with
  | shape s =>
    unfold compile
    exact Drawing.yields_shape s
  | image i =>
    unfold compile
    exact Drawing.yields_image i
  | text t items =>
    unfold compile
    exact Drawing.yields_text t items
  | group paint base children =>
    unfold compile
    refine (Drawing.yields_opening base _).bind fun start hstart => ?_
    refine (yields_compileAll children).bind fun body hbody => .pure ?_
    exact Drawing.block_of_opening hstart hbody

theorem yields_compileAll (ns : List (Node Float)) :
    Yields Content (compileAll ns : StateM ρ (List Operator)) := by
  cases ns with
  | nil =>
    unfold compileAll
    exact .pure .nil
  | cons n ns =>
    unfold compileAll
    refine (yields_compile n).bind fun first hfirst => ?_
    refine (yields_compileAll ns).bind fun rest hrest => .pure ?_
    exact hfirst.content.append hrest

end

end Node

namespace Document

variable {ρ : Type} [Registry ρ]

theorem yields_compile (d : Document) (o : Options Float) :
    Yields Block (d.compile o : StateM ρ (List Operator)) := by
  refine d.root.yields_compile.bind fun body hbody => .pure ?_
  cases o.placement d.viewBox d.size with
  | none => exact hbody
  | some m => exact ⟨.concat m :: body, by simp, (Content.other rfl).append hbody.content⟩

end Document

/-- Any scene compiles to well-formed operators, whatever gives names to its resources, and any
document that is converted does, with a viewport or without. -/
theorem operators_wellFormed {ρ : Type} [Registry ρ] :
    (∀ (n : Node Float) (r : ρ), WellFormed (n.compile r).1) ∧
    ∀ {σ : Type} (e : Embedder σ) (o : Options Float) (text : List Char) (p : Press σ ρ)
      (ops : List Operator), (convert e o text p).1 = .ok ops → WellFormed ops := by
  refine ⟨fun n r => (n.yields_compile r).wellFormed, ?_⟩
  intro σ e o text p ops converted
  unfold convert at converted
  cases document : (Document.read e o .empty text p.state).result with
  | error problem => simp [document] at converted
  | ok d =>
    have same : (d.compile o p.resources).1 = ops := by
      simp only [document] at converted
      exact Except.ok.inj converted
    rw [← same]
    exact (d.yields_compile o p.resources).wellFormed

/-- A clipped group with a shape and nested texts, put in a viewport. -/
theorem operators_wellFormed_clipped_group :
    ∃ ops, (convert (⟨fun _ _ s => (none, s), fun _ _ s => (none, s)⟩ : Embedder Unit)
        { Options.initial with viewport := some ⟨20, 20⟩ }
        ("<svg viewBox=\"0 0 10 10\"><g clip-path=\"url(#c)\"><rect width=\"4\" height=\"4\" " ++
          "stroke=\"red\"/><text>a<tspan fill=\"none\">b</tspan></text></g>" ++
          "<clipPath id=\"c\"><rect width=\"5\" height=\"5\"/></clipPath></svg>").toList
        (⟨(), .empty⟩ : Press Unit Resources)).1 = .ok ops ∧ ops.length = 42 ∧ WellFormed ops := by
  generalize converted : (convert (_ : Embedder Unit) _ _ (_ : Press Unit Resources)).1 = outcome
  have count : outcome.toOption.map List.length = some 42 := by
    rw [← converted]
    decide +kernel
  cases outcome with
  | error problem => cases count
  | ok ops => exact ⟨ops, rfl, by simpa [Except.toOption] using count,
      operators_wellFormed.2 _ _ _ _ ops converted⟩

end SvgPage

import SvgPage.Proofs.Scene.Figures
import SvgPage.Proofs.Scene.Rounds

/-!
# Descending a document

What the walk has read when it gives a result, one case for each sort of element; and by induction
on the tree, a rule by which properties of what is inherited go down to every drawn element.
-/

namespace SvgPage

open Xml

namespace Context

theorem exists_of_settled_bind {σ α β : Type} {r : Except Problem α} {f : α → Reading σ β}
    {s s' : σ} {b : β} (h : (settled r >>= f) s = (.ok b, s')) :
    ∃ a, r = .ok a ∧ f a s = (.ok b, s') := by
  obtain ⟨a, _, settled, rest⟩ := Reading.exists_of_bind_eq_ok h
  cases settled
  exact ⟨a, rfl, rest⟩

theorem isDrawn_of_isTextRemark {k : ElementKind} : isTextRemark k = true → k.isDrawn = false := by
  cases k <;> decide

section

variable {cx : Context} {h : Head} {inherited : PaintStyle Float}

theorem parts_of_shape {kind : ElementKind} {s : Shape Float}
    (read : cx.shape kind h inherited = .ok s) :
    cx.outline kind h = .ok s.ops ∧
      paintStyle cx.definitions h.tag (cx.properties h) inherited = .ok s.paint ∧
      cx.base h (cx.properties h) (Path.bbox? s.ops) = .ok s.base := by
  unfold Context.shape at read
  obtain ⟨ops, outlined, read⟩ := exists_of_bind_eq_ok read
  obtain ⟨own, painted, read⟩ := exists_of_bind_eq_ok read
  obtain ⟨base, carried, read⟩ := exists_of_bind_eq_ok read
  cases read
  exact ⟨outlined, painted, carried⟩

theorem parts_of_placeImage {handle : ImageHandle} {i : PlacedImage Float}
    (read : cx.placeImage h inherited handle = .ok i) :
    ∃ x y width height given, cx.lengthOr h "x" .x 0 = .ok x ∧ cx.lengthOr h "y" .y 0 = .ok y ∧
      cx.nonNegative h "width" .x = .ok width ∧ cx.nonNegative h "height" .y = .ok height ∧
      i.box = ⟨x, y, width.getD handle.width.toFloat, height.getD handle.height.toFloat⟩ ∧
      opacity "image" (cx.properties h) "opacity" = .ok given ∧
      i.opacity = given.or inherited.opacity ∧
      cx.base h (cx.properties h) (some i.box) = .ok i.base := by
  unfold Context.placeImage at read
  obtain ⟨x, xRead, read⟩ := exists_of_bind_eq_ok read
  obtain ⟨y, yRead, read⟩ := exists_of_bind_eq_ok read
  obtain ⟨width, widthRead, read⟩ := exists_of_bind_eq_ok read
  obtain ⟨height, heightRead, read⟩ := exists_of_bind_eq_ok read
  obtain ⟨given, opacityRead, read⟩ := exists_of_bind_eq_ok read
  obtain ⟨base, carried, read⟩ := exists_of_bind_eq_ok read
  cases read
  exact ⟨x, y, width, height, given, xRead, yRead, widthRead, heightRead, rfl, opacityRead, rfl,
    carried⟩

theorem parts_of_textStart {wanted : TextAttributes} {start : TextStart}
    (read : cx.textStart h inherited wanted = .ok start) :
    start.properties = cx.properties h ∧
      paintStyle cx.definitions h.tag (cx.properties h) inherited = .ok start.paint ∧
      textAttributes h.tag (cx.properties h) wanted = .ok start.wanted ∧
      cx.fonts.resolve h.tag start.wanted cx.strict = .ok start.font := by
  unfold Context.textStart at read
  obtain ⟨own, painted, read⟩ := exists_of_bind_eq_ok read
  obtain ⟨asked, attributes, read⟩ := exists_of_bind_eq_ok read
  obtain ⟨font, resolved, read⟩ := exists_of_bind_eq_ok read
  cases read
  exact ⟨rfl, painted, attributes, resolved⟩

theorem parts_of_textStyle {start : TextStart} {style : TextStyle Float}
    (read : cx.textStyle h start = .ok style) :
    ∃ x y base, cx.firstPosition h "x" .x = .ok x ∧ cx.firstPosition h "y" .y = .ok y ∧
      cx.base h start.properties none = .ok base ∧
        style = ⟨start.font, start.wanted.size, start.paint.fill, start.paint.stroke,
          start.paint.fillOpacity, start.paint.strokeOpacity, x, y, base⟩ := by
  unfold Context.textStyle at read
  obtain ⟨x, xRead, read⟩ := exists_of_bind_eq_ok read
  obtain ⟨y, yRead, read⟩ := exists_of_bind_eq_ok read
  obtain ⟨base, carried, read⟩ := exists_of_bind_eq_ok read
  cases read
  exact ⟨x, y, base, xRead, yRead, carried, rfl⟩

theorem parts_of_groupStart {outer start : Inherited} (read : cx.groupStart h outer = .ok start) :
    paintStyle cx.definitions h.tag (cx.properties h) outer.paint = .ok start.paint ∧
      textAttributes h.tag (cx.properties h) outer.text = .ok start.text ∧
      start.parent = some h.tag := by
  unfold Context.groupStart at read
  obtain ⟨own, painted, read⟩ := exists_of_bind_eq_ok read
  obtain ⟨text, attributes, read⟩ := exists_of_bind_eq_ok read
  cases read
  exact ⟨painted, attributes, rfl⟩

theorem parts_of_groupEnd {isNested : Bool} {paint : PaintStyle Float}
    {children : List (Node Float)} {g : Node Float}
    (read : cx.groupEnd h isNested paint children = .ok g) :
    ∃ base place, cx.base h (cx.properties h) (Node.group paint .plain children).bbox? = .ok base ∧
      (if isNested then cx.nestedPlace h else .ok []) = .ok place ∧
        g = .group paint { base with transform := place ++ base.transform } children := by
  unfold Context.groupEnd at read
  obtain ⟨base, carried, read⟩ := exists_of_bind_eq_ok read
  dsimp only at read
  cases isNested with
  | false | true =>
    obtain ⟨place, placed, read⟩ := exists_of_bind_eq_ok read
    cases read
    exact ⟨base, place, carried, placed, rfl⟩

end

/-- The part that a node makes of the text around it. -/
inductive ReadsItem (cx : Context) (tag : String) (start : TextStart) :
    Xml.Node → Option (TextItem Float) → Prop
  | literal (content) :
      ReadsItem cx tag start (.text content) (some (.literal (TextItem.collapse content)))
  | span {head children kind inner items style} : head.kind = .ok kind →
      kind = .tspan ∨ kind = .textPath → cx.textStart head start.paint start.wanted = .ok inner →
      cx.textItems head.tag inner children = .ok items → cx.textStyle head inner = .ok style →
      ReadsItem cx tag start (.element head children) (some (.nested style items))
  | remark {head children kind} : head.kind = .ok kind → isTextRemark kind = true →
      ReadsItem cx tag start (.element head children) none
  | other {n} : n.element? = none → ReadsItem cx tag start n none

theorem readsItem_of_eq_ok {cx : Context} {tag : String} {start : TextStart} {n : Xml.Node}
    {item : Option (TextItem Float)} (h : cx.textItem tag start n = .ok item) :
    cx.ReadsItem tag start n item := by
  cases n with
  | text content =>
    unfold textItem at h
    cases h
    exact .literal content
  | element head children =>
    unfold textItem at h
    obtain ⟨kind, known, h⟩ := exists_of_bind_eq_ok h
    split at h
    · next spans =>
      have read : ∃ inner items style, cx.textStart head start.paint start.wanted = .ok inner ∧
          cx.textItems head.tag inner children = .ok items ∧ cx.textStyle head inner = .ok style ∧
            item = some (.nested style items) := by
        have inside (h : (do
            let inner ← cx.textStart head start.paint start.wanted
            let items ← cx.textItems head.tag inner children
            let style ← cx.textStyle head inner
            return some (TextItem.nested style items)) = .ok item) : ∃ inner items style,
              cx.textStart head start.paint start.wanted = .ok inner ∧
              cx.textItems head.tag inner children = .ok items ∧
              cx.textStyle head inner = .ok style ∧ item = some (.nested style items) := by
          obtain ⟨inner, started, h⟩ := exists_of_bind_eq_ok h
          obtain ⟨items, contents, h⟩ := exists_of_bind_eq_ok h
          obtain ⟨style, styled, h⟩ := exists_of_bind_eq_ok h
          cases h
          exact ⟨inner, items, style, started, contents, styled, rfl⟩
        dsimp only at h
        split at h
        · obtain ⟨-, -, h⟩ := exists_of_bind_eq_ok h
          exact inside h
        · exact inside h
      obtain ⟨inner, items, style, started, contents, styled, rfl⟩ := read
      exact .span known spans started contents styled
    · split at h
      · next remark =>
        obtain ⟨-, -, h⟩ := exists_of_bind_eq_ok h
        cases h
        exact .remark known remark
      · cases h
  | comment content | instruction =>
    unfold textItem at h
    cases h
    exact .other rfl

/-- The node that the walk makes of an element, and the state that it leaves. -/
inductive ReadsNode {σ : Type} (cx : Context) (e : Embedder σ) (inherited : Inherited) (head : Head)
    (children : List Xml.Node) (s : σ) : ElementKind → Option (Node Float) → σ → Prop
  | shape {kind shape} : kind.isShape = true → cx.shape kind head inherited.paint = .ok shape →
      ReadsNode cx e inherited head children s kind (some (.shape shape)) s
  | image {handle image s'} : cx.placeImage head inherited.paint handle = .ok image →
      ReadsNode cx e inherited head children s .image (some (.image image)) s'
  | text {start items style} : cx.textStart head inherited.paint inherited.text = .ok start →
      cx.textItems head.tag start children = .ok items → cx.textStyle head start = .ok style →
      ReadsNode cx e inherited head children s .text (some (.text style (TextItem.tidy items))) s
  | group {kind start nodes isNested group s'} : kind = .group ∨ kind = .svg →
      cx.groupStart head inherited = .ok start → cx.nodes e start children s = (.ok nodes, s') →
      cx.groupEnd head isNested start.paint nodes = .ok group →
      ReadsNode cx e inherited head children s kind (some group) s'
  | defs : cx.checkAllDefs children = .ok () →
      ReadsNode cx e inherited head children s .defs none s
  | hidden {kind} : kind.isDrawn = false → kind ≠ .defs →
      ReadsNode cx e inherited head children s kind none s

theorem readsNode_of_eq_ok {σ : Type} {cx : Context} {e : Embedder σ} {inherited : Inherited}
    {head : Head} {children : List Xml.Node} {s s' : σ} {found : Option (Node Float)}
    (h : cx.node e inherited (.element head children) s = (.ok found, s')) :
    ∃ kind, head.kind = .ok kind ∧ cx.ReadsNode e inherited head children s kind found s' := by
  unfold node at h
  obtain ⟨kind, known, read⟩ := exists_of_settled_bind h
  refine ⟨kind, known, ?_⟩
  split at read
  · next isShape =>
    obtain ⟨shape, outlined, last⟩ := exists_of_settled_bind read
    cases last
    exact .shape isShape outlined
  split at read
  · next isImage =>
    subst isImage
    obtain ⟨image, s₁, placed, last⟩ := Reading.exists_of_bind_eq_ok read
    cases last
    unfold Context.image at placed
    obtain ⟨data, -, placed⟩ := exists_of_settled_bind placed
    obtain ⟨handle, s₂, -, placed⟩ := Reading.exists_of_bind_eq_ok placed
    exact .image (congrArg Prod.fst placed)
  split at read
  · next isText =>
    subst isText
    obtain ⟨text, set, last⟩ := exists_of_settled_bind read
    cases last
    unfold Context.text at set
    obtain ⟨start, started, set⟩ := exists_of_bind_eq_ok set
    obtain ⟨items, contents, set⟩ := exists_of_bind_eq_ok set
    obtain ⟨style, styled, set⟩ := exists_of_bind_eq_ok set
    cases set
    exact .text started contents styled
  split at read
  · next isGroup =>
    obtain ⟨start, started, read⟩ := exists_of_settled_bind read
    obtain ⟨nodes, s₁, members, read⟩ := Reading.exists_of_bind_eq_ok read
    obtain ⟨group, ended, last⟩ := exists_of_settled_bind read
    cases last
    exact .group isGroup started members ended
  split at read
  · next isDefs =>
    subst isDefs
    obtain ⟨⟨⟩, checked, last⟩ := exists_of_settled_bind read
    cases last
    exact .defs checked
  split at read
  · cases read
  · next noShape noImage noText noGroup noDefs noSpan =>
    -- What is left is passed over or contributes nothing, whatever the policy.
    have undrawn : kind.isDrawn = false := by
      revert noShape noImage noText noGroup noSpan
      cases kind <;> decide
    split at read
    · obtain ⟨-, -, last⟩ := exists_of_settled_bind read
      cases last
      exact .hidden undrawn noDefs
    · cases read
      exact .hidden undrawn noDefs

/-- A property of what elements inherit that goes down from each element to its contents, and a
relation that then holds between each drawn element and its figure. -/
structure Upholds (cx : Context) (I : List Head → PaintStyle Float → TextAttributes → Prop)
    (F : Site → Figure → Prop) : Prop where
  shape : ∀ {head around paint wanted kind s}, I around paint wanted → head.kind = .ok kind →
    kind.isShape = true → cx.shape kind head paint = .ok s → F ⟨head, around⟩ (.shape s)
  image : ∀ {head around paint wanted handle i}, I around paint wanted →
    head.kind = .ok .image → cx.placeImage head paint handle = .ok i → F ⟨head, around⟩ (.image i)
  text : ∀ {head around paint wanted start}, I around paint wanted →
    head.isOf ElementKind.isText = true → cx.textStart head paint wanted = .ok start →
      I (head :: around) start.paint start.wanted ∧
        ∀ style, cx.textStyle head start = .ok style → F ⟨head, around⟩ (.text style)
  group : ∀ {head around inherited start}, I around inherited.paint inherited.text →
    head.isOf ElementKind.isGroup = true → cx.groupStart head inherited = .ok start →
      I (head :: around) start.paint start.text ∧ ∀ isNested children g,
        cx.groupEnd head isNested start.paint children = .ok g → ∃ base,
          g = .group start.paint base children ∧
            F ⟨head, around⟩ (.ofGroup start.paint base children)

namespace Upholds

variable {cx : Context} {I : List Head → PaintStyle Float → TextAttributes → Prop}
  {F : Site → Figure → Prop}

mutual

theorem textItem (h : cx.Upholds I F) {tag : String} {start : TextStart} {around : List Head}
    (inherits : I around start.paint start.wanted) {n : Xml.Node} {item : Option (TextItem Float)}
    (read : cx.textItem tag start n = .ok item) :
    List.Forall₂ F (n.drawn around) (item.toList.flatMap TextItem.figures) := by
  cases n with
  | element head children =>
    cases readsItem_of_eq_ok read with
    | @span _ _ kind inner items style known spans started contents styled =>
      have isText : kind.isText = true := by rcases spans with rfl | rfl <;> rfl
      have isOpen : kind.isOpen = true := Bool.or_eq_true_iff.mpr (.inr isText)
      obtain ⟨within, figure⟩ := h.text inherits ((Head.isOf_eq known _).trans isText) started
      rw [Node.drawn_open around known children isOpen]
      have figures : (some (TextItem.nested style items)).toList.flatMap TextItem.figures =
          .text style :: items.flatMap TextItem.figures := by
        simp [TextItem.figures, TextItem.figuresAmong_eq]
      rw [figures]
      exact .cons (figure style styled) (textItems h within contents)
    | @remark _ _ kind known remark =>
      have undrawn := isDrawn_of_isTextRemark remark
      have closed := ElementKind.isOpen_of_not_isDrawn undrawn
      rw [Node.drawn_closed around known children closed, undrawn]
      exact .nil
    | other noElement => cases noElement
  | text content | comment content | instruction =>
    unfold Context.textItem at read
    cases read
    exact .nil

theorem textItems (h : cx.Upholds I F) {tag : String} {start : TextStart} {around : List Head}
    (inherits : I around start.paint start.wanted) {ns : List Xml.Node}
    {items : List (TextItem Float)} (read : cx.textItems tag start ns = .ok items) :
    List.Forall₂ F (Node.drawnAmong around ns) (items.flatMap TextItem.figures) := by
  cases ns with
  | nil =>
    unfold Context.textItems at read
    cases read
    exact .nil
  | cons n ns =>
    unfold Context.textItems at read
    obtain ⟨first, one, read⟩ := exists_of_bind_eq_ok read
    obtain ⟨rest, others, read⟩ := exists_of_bind_eq_ok read
    cases read
    rw [Node.drawnAmong_cons, List.flatMap_append]
    exact List.rel_append (textItem h inherits one) (textItems h inherits others)

end

variable {σ : Type} {e : Embedder σ}

mutual

/-- By induction on the tree: the property goes down, so the relation holds all the way. -/
theorem node (h : cx.Upholds I F) {inherited : Inherited} {around : List Head}
    (inherits : I around inherited.paint inherited.text) {n : Xml.Node} {s s' : σ}
    {found : Option (SvgPage.Node Float)} (read : cx.node e inherited n s = (.ok found, s')) :
    List.Forall₂ F (n.drawn around) (found.toList.flatMap SvgPage.Node.figures) := by
  cases n with
  | element head children =>
    obtain ⟨kind, known, reads⟩ := readsNode_of_eq_ok read
    cases reads with
    | @shape _ s isShape outlined =>
      have drawn := ElementKind.isDrawn_of_isShape isShape
      rw [Node.drawn_closed around known children (ElementKind.isOpen_of_isShape isShape), drawn]
      exact .cons (h.shape inherits known isShape outlined) .nil
    | image placed =>
      rw [Node.drawn_closed around known children rfl]
      exact .cons (h.image inherits known placed) .nil
    | @text start items style started contents styled =>
      obtain ⟨within, figure⟩ := h.text inherits ((Head.isOf_eq known _).trans rfl) started
      rw [Node.drawn_open around known children rfl]
      have figures : (some (SvgPage.Node.text style (TextItem.tidy items))).toList.flatMap
          SvgPage.Node.figures = .text style :: items.flatMap TextItem.figures := by
        simp [SvgPage.Node.figures, TextItem.figuresAmong_tidy, ← TextItem.figuresAmong_eq]
      rw [figures]
      exact .cons (figure style styled) (textItems h within contents)
    | @group _ start members isNested g _ isGroup started contents ended =>
      have isGroup : kind.isGroup = true := by rcases isGroup with rfl | rfl <;> rfl
      have isOpen : kind.isOpen = true := Bool.or_eq_true_iff.mpr (.inl isGroup)
      obtain ⟨within, figure⟩ := h.group inherits ((Head.isOf_eq known _).trans isGroup) started
      obtain ⟨base, rfl, figure⟩ := figure isNested members g ended
      rw [Node.drawn_open around known children isOpen]
      have figures : (some (SvgPage.Node.group start.paint base members)).toList.flatMap
          SvgPage.Node.figures = .ofGroup start.paint base members ::
            members.flatMap SvgPage.Node.figures := by
        simp [SvgPage.Node.figures, SvgPage.Node.figuresAmong_eq]
      rw [figures]
      exact .cons figure (nodes h within contents)
    | defs checked =>
      rw [Node.drawn_closed around known children rfl]
      exact .nil
    | hidden undrawn other =>
      have closed := ElementKind.isOpen_of_not_isDrawn undrawn
      rw [Node.drawn_closed around known children closed, undrawn]
      exact .nil
  | text content | comment content | instruction =>
    unfold Context.node at read
    cases read
    exact .nil

theorem nodes (h : cx.Upholds I F) {inherited : Inherited} {around : List Head}
    (inherits : I around inherited.paint inherited.text) {ns : List Xml.Node} {s s' : σ}
    {members : List (SvgPage.Node Float)} (read : cx.nodes e inherited ns s = (.ok members, s')) :
    List.Forall₂ F (Node.drawnAmong around ns) (members.flatMap SvgPage.Node.figures) := by
  cases ns with
  | nil =>
    unfold Context.nodes at read
    cases read
    exact .nil
  | cons n ns =>
    unfold Context.nodes at read
    obtain ⟨first, s₁, one, read⟩ := Reading.exists_of_bind_eq_ok read
    obtain ⟨rest, s₂, others, read⟩ := Reading.exists_of_bind_eq_ok read
    cases read
    rw [Node.drawnAmong_cons, List.flatMap_append]
    exact List.rel_append (node h inherits one) (nodes h inherits others)

end

end Upholds

end Context

namespace Rounds

variable {σ : Type} {e : Embedder σ} {o : Options Float} {fonts : FontTable} {text : List Char}
  {s : σ} (r : Rounds e o fonts text s)

/-- The context in which a document is drawn. -/
def context : Context :=
  { Context.start o.strict r.viewBox r.size r.desk with definitions := r.definitions }

/-- From the initial styles a property goes down to all that is drawn. -/
theorem forall₂_figures {I : List Head → PaintStyle Float → TextAttributes → Prop}
    {F : Site → Figure → Prop} (upholds : r.context.Upholds I F)
    (initial : I [] .initial (.initial o.fontSize)) :
    List.Forall₂ F (r.root.drawn []) r.document.root.figures := by
  have drawn := r.drawn
  unfold Document.scene at drawn
  obtain ⟨found, state, node, last⟩ := Reading.exists_of_bind_eq_ok drawn
  cases found with
  | none => cases last
  | some n =>
    cases last
    have figures := upholds.node initial node
    rwa [Option.toList_some, List.flatMap_singleton] at figures

end Rounds

end SvgPage

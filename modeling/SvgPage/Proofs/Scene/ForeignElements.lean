import SvgPage.Proofs.Scene.TypeInheritance

/-!
# Elements of other languages

An empty element of another namespace, put among the contents of some element. Under the lenient
policy nothing of the document changes by it, but where it comes to stand in a text that is shown:
there the reading fails. A filter takes no element at all.
-/

namespace SvgPage

open Xml

namespace Xml

instance (slot : Slot) : Decidable slot.IsOpen :=
  inferInstanceAs (Decidable (∀ h ∈ slot.heads, h.isOf ElementKind.isOpen = true))

def Head.IsForeign (h : Head) : Prop := ∃ space, h.name.space = some space ∧ space ≠ svgSpace

theorem Head.IsForeign.kind_eq {h : Head} (foreign : h.IsForeign) : h.kind = .ok .foreign := by
  obtain ⟨space, named, other⟩ := foreign
  unfold Head.kind
  rw [if_pos (by simp [named, other])]

namespace Head

variable {h : Head}

theorem isOf_of_imp {p q : ElementKind → Bool} (imp : ∀ kind, p kind = true → q kind = true)
    (holds : h.isOf p = true) : h.isOf q = true := by
  unfold isOf at holds ⊢
  split at holds
  · exact imp _ holds
  · cases holds

theorem isOpen_of_isGroup : h.isOf ElementKind.isGroup = true → h.isOf ElementKind.isOpen = true := by
  apply isOf_of_imp
  intro kind
  cases kind <;> decide

theorem isOpen_of_isText : h.isOf ElementKind.isText = true → h.isOf ElementKind.isOpen = true := by
  apply isOf_of_imp
  intro kind
  cases kind <;> decide

theorem not_isGroup_of_isText (isText : h.isOf ElementKind.isText = true) :
    ¬h.isOf ElementKind.isGroup = true := by
  unfold isOf at isText ⊢
  split at isText
  · next kind _ =>
    revert isText
    cases kind <;> decide
  · cases isText

end Head

namespace Node

/-- Contents, and these with a node put between two nodes or into a text. -/
inductive Receives (d : Node) : List Node → List Node → Prop
  | between {before after} : Receives d (before ++ after) (before ++ d :: after)
  | within {before a b after} :
      Receives d (before ++ .text (a ++ b) :: after) (before ++ .text a :: d :: .text b :: after)

variable {head : Head} {children children' : List Node}

theorem Receives.exists_inner (h : Receives (.element head []) children children') :
    ∃ es es', children.filterMap element? = es ++ es' ∧
      children'.filterMap element? = es ++ ⟨head, []⟩ :: es' := by
  cases h <;> exact ⟨_, _, List.filterMap_append, List.filterMap_append⟩

end Node

end Xml

namespace Context

variable {cx : Context}

theorem passOver_of_lenient (lenient : cx.strict = false) (h : Head) (inside : Option String) :
    cx.passOver h inside = .ok () := by
  unfold passOver
  rw [lenient]
  rfl

variable {foreign host : Head}

theorem stops_foreign (lenient : cx.strict = false) (isForeign : foreign.IsForeign) (tag : String)
    (least : Option Float) (es es' : List Element) :
    cx.stops tag least (es ++ ⟨foreign, []⟩ :: es') = cx.stops tag least (es ++ es') := by
  induction es generalizing least with
  | nil =>
    rw [List.nil_append, stops]
    dsimp only
    rw [isForeign.kind_eq]
    change (do cx.passOver foreign (some tag); cx.stops tag least es') = _
    rw [passOver_of_lenient lenient]
    rfl
  | cons e es ih => simp only [List.cons_append, stops, ih]

theorem clipOutline_foreign (lenient : cx.strict = false) (isForeign : foreign.IsForeign)
    (tag : String) (m : Matrix Float) (es es' : List Element) :
    cx.clipOutline tag m (es ++ ⟨foreign, []⟩ :: es') = cx.clipOutline tag m (es ++ es') := by
  induction es with
  | nil =>
    rw [List.nil_append, clipOutline]
    dsimp only
    rw [isForeign.kind_eq]
    change (do
      let first ← (cx.passOver foreign (some tag)).map fun _ => []
      let more ← cx.clipOutline tag m es'
      return first ++ more) = _
    rw [passOver_of_lenient lenient, List.nil_append]
    cases cx.clipOutline tag m es' <;> rfl
  | cons e es ih => simp only [List.cons_append, clipOutline, ih]

/-- Every definition but a filter passes over a foreign element in it. -/
theorem declared?_receives (lenient : cx.strict = false) (isForeign : foreign.IsForeign)
    (noFilter : host.kind ≠ .ok .filter) {children children' : List Xml.Node}
    (receives : Xml.Node.Receives (.element foreign []) children children') :
    cx.declared? ⟨host, children'⟩ = cx.declared? ⟨host, children⟩ := by
  obtain ⟨es, es', inner, inner'⟩ := receives.exists_inner
  have stops (tag : String) : cx.stops tag none (children'.filterMap Xml.Node.element?) =
      cx.stops tag none (children.filterMap Xml.Node.element?) := by
    rw [inner, inner', stops_foreign lenient isForeign]
  have outline (tag : String) (m : Matrix Float) :
      cx.clipOutline tag m (children'.filterMap Xml.Node.element?) =
        cx.clipOutline tag m (children.filterMap Xml.Node.element?) := by
    rw [inner, inner', clipOutline_foreign lenient isForeign]
  have defined : cx.definition? ⟨host, children'⟩ = cx.definition? ⟨host, children⟩ := by
    unfold definition?
    dsimp only
    split
    · simp only [gradient, Element.inner, stops]
    · simp only [gradient, Element.inner, stops]
    · simp only [clipPath, Element.inner, outline]
    · simp only [mask, Element.inner, outline]
    · next known => exact absurd known noFilter
    · rfl
  simp only [declared?, defined]

theorem declared_receives (lenient : cx.strict = false) (isForeign : foreign.IsForeign)
    (noFilter : host.kind ≠ .ok .filter) {children children' : List Xml.Node}
    (receives : Xml.Node.Receives (.element foreign []) children children') :
    cx.declared (.element host children') = cx.declared (.element host children) := by
  have undeclared : cx.declared? ⟨foreign, []⟩ = none := by
    simp only [declared?, definition?, isForeign.kind_eq]
    cases foreign.id? <;> rfl
  have among : (Xml.Node.elementsAmong children').filterMap cx.declared? =
      (Xml.Node.elementsAmong children).filterMap cx.declared? := by
    cases receives <;>
      simp [Xml.Node.elementsAmong_append, Xml.Node.elementsAmong, Xml.Node.elements, undeclared]
  unfold declared
  rw [Xml.Node.filterMap_elements, Xml.Node.filterMap_elements, among,
    declared?_receives lenient isForeign noFilter receives]

/-- By induction on the levels: around an element, its declaration looks at its head only. -/
theorem declared_fill (slot : Slot) {children children' : List Xml.Node}
    (same : cx.declared (.element host children') = cx.declared (.element host children)) :
    cx.declared (slot.fill (.element host children')) =
      cx.declared (slot.fill (.element host children)) := by
  induction slot generalizing host children children' with
  | nil => exact same
  | cons level slot ih =>
    apply ih
    have own : cx.declared? ⟨level.head, level.before ++ .element host children' :: level.after⟩ =
        cx.declared? ⟨level.head, level.before ++ .element host children :: level.after⟩ :=
      cx.declared?_congr rfl (by simp [Element.inner, Xml.Node.element?])
    unfold declared at same ⊢
    rw [Xml.Node.filterMap_elements, Xml.Node.filterMap_elements, own]
    simp only [Xml.Node.elementsAmong_append, Xml.Node.elementsAmong, List.filterMap_append, same]

end Context

theorem gatherDefinitions_of_declared_eq {cx : Context} {root root' : Xml.Node}
    {ds : Definitions Float} (fresh : cx.definitions = .empty)
    (same : cx.declared root' = cx.declared root)
    (gathered : gatherDefinitions cx root = (.ok (), ds)) :
    gatherDefinitions cx root' = (.ok (), ds) := by
  obtain ⟨xs, read, distinct, rfl⟩ := (gatherDefinitions_eq_ok_iff fresh).mp gathered
  exact (gatherDefinitions_eq_ok_iff fresh).mpr ⟨xs, same ▸ read, distinct, rfl⟩

namespace Xml.Node

variable {cx : Context} {foreign host : Head} {n n' : Node} {children children' : List Node}

theorem ContentsAlike.otherLanguage (lenient : cx.strict = false) (isForeign : foreign.IsForeign)
    (after : List Node) : ContentsAlike cx after (.element foreign [] :: after) := by
  apply ContentsAlike.undrawn
  · intro σ e inherited
    unfold Context.node
    rw [isForeign.kind_eq]
    change (do Context.settled (cx.passOver foreign inherited.parent); pure none) = _
    rw [Context.passOver_of_lenient lenient]
    rfl
  · unfold Context.checkDefs
    rw [isForeign.kind_eq]
    exact Context.passOver_of_lenient lenient _ _

theorem ContentsAlike.receives (lenient : cx.strict = false) (isForeign : foreign.IsForeign)
    (receives : Receives (.element foreign []) children children') :
    ContentsAlike cx children children' := by
  cases receives with
  | between => exact (otherLanguage lenient isForeign _).prepend _
  | within => exact (divided (otherLanguage lenient isForeign) _ _ _).prepend _

theorem DrawnAlike.receives (lenient : cx.strict = false) (isForeign : foreign.IsForeign)
    (noText : host.isOf ElementKind.isText = false)
    (receives : Receives (.element foreign []) children children') :
    DrawnAlike cx (.element host children) (.element host children') := by
  have alike := ContentsAlike.receives lenient isForeign receives
  refine .element (fun _ => alike.nodes) (fun isText => ?_) alike.checkAllDefs
  cases noText.symm.trans isText

/-- By induction on the levels: what stands in a closed one is only ever looked at in the check of a
definition list. -/
theorem DrawnAlike.fill (slot : Slot) (checked : cx.checkDefs n' = cx.checkDefs n)
    (shown : slot.IsOpen → DrawnAlike cx n n') :
    DrawnAlike cx (slot.fill n) (slot.fill n') := by
  induction slot generalizing n n' with
  | nil => exact shown nofun
  | cons level slot ih =>
    have contents : cx.checkAllDefs (level.before ++ n' :: level.after) =
        cx.checkAllDefs (level.before ++ n :: level.after) := by
      rw [cx.checkAllDefs_append, cx.checkAllDefs_append, Context.checkAllDefs,
        Context.checkAllDefs, checked]
    apply ih
    · unfold Context.checkDefs
      simp only [contents]
    · intro outer
      by_cases own : level.head.isOf ElementKind.isOpen = true
      · exact (shown (List.forall_mem_cons.mpr ⟨own, outer⟩)).inside _ _ _
      · exact .element (fun isGroup => absurd (Head.isOpen_of_isGroup isGroup) own)
          (fun isText => absurd (Head.isOpen_of_isText isText) own) contents

/-- A foreign element is passed over, unless the walk comes to it in a text. -/
theorem DrawnAlike.fill_receives (lenient : cx.strict = false) (isForeign : foreign.IsForeign)
    (receives : Receives (.element foreign []) children children') (slot : Slot)
    (unwritten : ¬(slot.IsOpen ∧ host.isOf ElementKind.isText = true)) :
    DrawnAlike cx (slot.fill (.element host children)) (slot.fill (.element host children')) := by
  apply DrawnAlike.fill
  · have contents := (ContentsAlike.receives lenient isForeign receives).checkAllDefs
    unfold Context.checkDefs
    simp only [contents]
  · intro isOpen
    apply DrawnAlike.receives lenient isForeign _ receives
    rw [Bool.eq_false_iff]
    exact fun isText => unwritten ⟨isOpen, isText⟩

end Xml.Node

namespace Xml.Node

/-- Where the reading of one node gives a result, that of the other has a problem. -/
structure FailsInstead (cx : Context) (problem : Problem) (n n' : Node) : Prop where
  node : ∀ {σ : Type} {e : Embedder σ} {inherited : Inherited} {s s' found},
    cx.node e inherited n s = (.ok found, s') →
      ∃ s'', cx.node e inherited n' s = (.error problem, s'')
  textItem : ∀ {tag : String} {start : Context.TextStart} {item},
    cx.textItem tag start n = .ok item → cx.textItem tag start n' = .error problem

variable {cx : Context} {problem : Problem} {foreign host head : Head} {n n' : Node}
  {children children' : List Node}

theorem FailsInstead.element (lenient : cx.strict = false)
    (isOpen : head.isOf ElementKind.isOpen = true)
    (nodes : head.isOf ElementKind.isGroup = true → ∀ {σ : Type} {e : Embedder σ}
      {inherited : Inherited} {s s' members},
      cx.nodes e inherited children s = (.ok members, s') →
        ∃ s'', cx.nodes e inherited children' s = (.error problem, s''))
    (texts : head.isOf ElementKind.isText = true → ∀ {start : Context.TextStart} {items},
      cx.textItems head.tag start children = .ok items →
        cx.textItems head.tag start children' = .error problem) :
    FailsInstead cx problem (.element head children) (.element head children') := by
  constructor
  · intro σ e inherited s s' found read
    obtain ⟨kind, known, reads⟩ := Context.readsNode_of_eq_ok read
    rw [Head.isOf_eq known] at isOpen nodes texts
    unfold Context.node
    rw [known]
    cases reads with
    | shape isShape _ => cases isOpen.symm.trans (ElementKind.isOpen_of_isShape isShape)
    | image _ => cases isOpen
    | text started contents _ =>
      have failed : cx.text head children' inherited = .error problem := by
        unfold Context.text
        rw [started]
        change (cx.textItems head.tag _ children' >>= _) = _
        rw [texts rfl contents]
        rfl
      refine ⟨s, ?_⟩
      change (Context.settled (cx.text head children' inherited) >>= fun t => pure (some t)) s = _
      rw [failed]
      rfl
    | @group _ start _ isNested _ _ isGroup started contents _ =>
      obtain ⟨s'', failed⟩ := nodes (by rcases isGroup with rfl | rfl <;> rfl) contents
      refine ⟨s'', ?_⟩
      have other : kind.isShape = false ∧ kind ≠ .image ∧ kind ≠ .text := by
        rcases isGroup with rfl | rfl <;> decide
      obtain ⟨shape, image, text⟩ := other
      change (if kind.isShape = true then _ else _ : Reading σ _) s = _
      rw [shape, if_neg Bool.false_ne_true, if_neg image, if_neg text, if_pos isGroup, started]
      change (cx.nodes e start children' >>= _) s = _
      exact Reading.bind_eq_of_error failed
    | defs _ => cases isOpen
    | hidden undrawn _ => cases isOpen.symm.trans (ElementKind.isOpen_of_not_isDrawn undrawn)
  · intro tag start item read
    cases Context.readsItem_of_eq_ok read with
    | @span _ _ kind inner _ _ known spans started contents _ =>
      have failed : cx.textItems head.tag inner children' = .error problem := by
        apply texts _ contents
        rw [Head.isOf_eq known]
        rcases spans with rfl | rfl <;> rfl
      have nested : (do
          let inner ← cx.textStart head start.paint start.wanted
          let items ← cx.textItems head.tag inner children'
          let style ← cx.textStyle head inner
          return some (TextItem.nested style items)) = .error problem := by
        rw [started]
        change (cx.textItems head.tag inner children' >>= _) = _
        rw [failed]
        rfl
      unfold Context.textItem
      rw [known]
      rcases spans with rfl | rfl
      · exact nested
      · change (cx.passOver head (some tag) >>= fun _ => _) = _
        rw [Context.passOver_of_lenient lenient]
        exact nested
    | remark known remark =>
      rw [Head.isOf_eq known] at isOpen
      have undrawn := Context.isDrawn_of_isTextRemark remark
      cases isOpen.symm.trans (ElementKind.isOpen_of_not_isDrawn undrawn)
    | other noElement => cases noElement

/-- What fails in itself fails among other nodes, which are read without a problem before it. -/
theorem FailsInstead.inside (lenient : cx.strict = false) (fails : FailsInstead cx problem n n')
    (isOpen : head.isOf ElementKind.isOpen = true) (before after : List Node) :
    FailsInstead cx problem (.element head (before ++ n :: after))
      (.element head (before ++ n' :: after)) := by
  refine .element lenient isOpen ?_ ?_
  · intro _ σ e inherited s s' members read
    rw [cx.nodes_append] at read
    obtain ⟨first, s₁, started, read⟩ := Reading.exists_of_bind_eq_ok read
    obtain ⟨rest, s₂, read, -⟩ := Reading.exists_of_bind_eq_ok read
    rw [Context.nodes] at read
    obtain ⟨found, s₃, own, -⟩ := Reading.exists_of_bind_eq_ok read
    obtain ⟨s'', failed⟩ := fails.node own
    refine ⟨s'', ?_⟩
    rw [cx.nodes_append, Reading.bind_eq_of_ok started, Context.nodes]
    exact Reading.bind_eq_of_error (Reading.bind_eq_of_error failed)
  · intro _ start items read
    rw [cx.textItems_append] at read
    obtain ⟨first, started, read⟩ := exists_of_bind_eq_ok read
    obtain ⟨rest, read, -⟩ := exists_of_bind_eq_ok read
    rw [Context.textItems] at read
    obtain ⟨item, own, -⟩ := exists_of_bind_eq_ok read
    rw [cx.textItems_append, started, Context.textItems, fails.textItem own]
    rfl

theorem FailsInstead.receives (lenient : cx.strict = false) (isForeign : foreign.IsForeign)
    (isText : host.isOf ElementKind.isText = true)
    (receives : Receives (.element foreign []) children children') :
    FailsInstead cx (.unsupportedElement foreign.tag (some host.tag)) (.element host children)
      (.element host children') := by
  have refused (start : Context.TextStart) : cx.textItem host.tag start (.element foreign []) =
      .error (.unsupportedElement foreign.tag (some host.tag)) := by
    unfold Context.textItem
    rw [isForeign.kind_eq]
    rfl
  refine .element lenient (Head.isOpen_of_isText isText)
    (fun isGroup => absurd isGroup (Head.not_isGroup_of_isText isText)) ?_
  intro _ start items read
  cases receives with
  | between =>
    rw [cx.textItems_append] at read
    obtain ⟨first, started, -⟩ := exists_of_bind_eq_ok read
    rw [cx.textItems_append, started, Context.textItems, refused]
    rfl
  | within =>
    rw [cx.textItems_append] at read
    obtain ⟨first, started, -⟩ := exists_of_bind_eq_ok read
    rw [cx.textItems_append, started, Context.textItems, Context.textItems, refused]
    rfl

/-- By induction on the levels, all of which are read. -/
theorem FailsInstead.fill (lenient : cx.strict = false) {slot : Slot} (isOpen : slot.IsOpen)
    (fails : FailsInstead cx problem n n') :
    FailsInstead cx problem (slot.fill n) (slot.fill n') := by
  induction slot generalizing n n' with
  | nil => exact fails
  | cons level slot ih =>
    obtain ⟨own, outer⟩ := List.forall_mem_cons.mp isOpen
    exact ih outer (fails.inside lenient own _ _)

end Xml.Node

namespace Xml

variable {foreign host : Head} {children children' : List Node} {n n' : Node}

theorem Node.Receives.styleText_eq (h : Receives (.element foreign []) children children') :
    children'.flatMap styleText = children.flatMap styleText := by
  cases h <;> simp [styleText]

theorem Node.styles_receives (isForeign : foreign.IsForeign)
    (receives : Receives (.element foreign []) children children') :
    (element host children').styles = (element host children).styles := by
  have own : Element.style? ⟨host, children'⟩ = Element.style? ⟨host, children⟩ := by
    unfold Element.style?
    rw [receives.styleText_eq]
  have plain : Element.style? ⟨foreign, []⟩ = none := by
    apply Element.style?_of_other
    rw [isForeign.kind_eq]
    nofun
  have among : (elementsAmong children').filterMap Element.style? =
      (elementsAmong children).filterMap Element.style? := by
    cases receives <;> simp [elementsAmong_append, elementsAmong, elements, plain]
  unfold styles
  rw [filterMap_elements, filterMap_elements, own, among]

/-- By induction on the levels: of an element in a style sheet only the text at its head counts. -/
theorem Slot.styles_fill (slot : Slot)
    (same : (Node.element host children').styles = (Node.element host children).styles)
    (sheets : ∀ level ∈ slot.head?, level.head.kind = .ok .style →
      (Node.element host children').styleText = (Node.element host children).styleText) :
    (slot.fill (.element host children')).styles = (slot.fill (.element host children)).styles := by
  induction slot generalizing host children children' with
  | nil => exact same
  | cons level slot ih =>
    have own : Element.style? ⟨level.head, level.before ++ .element host children' :: level.after⟩ =
        Element.style? ⟨level.head, level.before ++ .element host children :: level.after⟩ := by
      by_cases isSheet : level.head.kind = .ok .style
      · unfold Element.style?
        simp only [List.flatMap_append, List.flatMap_cons, sheets level rfl isSheet]
      · rw [Element.style?_of_other isSheet, Element.style?_of_other isSheet]
    apply ih
    · unfold Node.styles at same ⊢
      rw [Node.filterMap_elements, Node.filterMap_elements, own]
      simp only [Node.elementsAmong_append, Node.elementsAmong, List.filterMap_append, same]
    · intro outer _ _
      cases level.before with
      | nil => rfl
      | cons n before => cases n <;> rfl

theorem Slot.exists_head (slot : Slot) : ∃ head cs cs',
    slot.fill (.element host children) = .element head cs ∧
      slot.fill (.element host children') = .element head cs' := by
  induction slot generalizing host children children' with
  | nil => exact ⟨host, children, children', rfl, rfl⟩
  | cons level slot ih => exact ih

end Xml

section

variable {σ : Type} {e : Embedder σ} {o : Options Float} {fonts : FontTable} {s : σ}
  {text text' : List Char} {root root' : Xml.Node}

/-- A document that has the same style sheets and declares the same comes to its last round in the
same context. -/
theorem Rounds.read_eq_scene (r : Rounds e o fonts text s) {head : Head}
    {children children' : List Xml.Node}
    (read : Xml.Node.read? text = some (.element head children))
    (read' : Xml.Node.read? text' = some (.element head children'))
    (styles : Xml.Node.styles (.element head children') = Xml.Node.styles (.element head children))
    (declared : ∀ cx : Context, cx.strict = o.strict →
      cx.declared (.element head children') = cx.declared (.element head children)) :
    r.root = .element head children ∧ Document.read e o fonts text' s =
      let drawn := Document.scene e r.context o.fontSize (.element head children') r.desk.state
      ⟨drawn.1.map fun node => ⟨node, r.viewBox, r.size⟩,
        ⟨r.desk.classes, r.definitions, r.desk.fonts⟩, drawn.2⟩ := by
  have top := Document.frame_congr read read
  have framed := Document.frame_congr read read'
  rw [r.framed] at top framed
  have root : r.root = .element head children := congrArg Prod.fst (Except.ok.inj top)
  have styled := r.styled
  rw [root, ← StyleBlock.applyAll_congr e styles] at styled
  have gathered := r.gathered
  rw [root] at gathered
  have gathered := gatherDefinitions_of_declared_eq rfl (declared _ rfl) gathered
  refine ⟨root, ?_⟩
  unfold Rounds.context
  unfold Context.start at gathered ⊢
  simp only [Document.read, framed, Except.map, styled, gathered]
  rfl

open Xml.Node

variable {foreign host : Head} {slot : Slot} {children children' : List Xml.Node}

/-- What is read leniently is read the same with an empty element of another language among the
contents of some element other than a filter, unless that stands in a text that is shown. There the
element is not supported. In an element of a style sheet it must not cut the text of the sheet. -/
theorem Document.read_receives (lenient : o.strict = false) (isForeign : foreign.IsForeign)
    (noFilter : host.kind ≠ .ok .filter)
    (receives : Xml.Node.Receives (.element foreign []) children children')
    (read : Xml.Node.read? text = some (slot.fill (.element host children)))
    (read' : Xml.Node.read? text' = some (slot.fill (.element host children')))
    (sheets : ∀ level ∈ slot.head?, level.head.kind = .ok .style →
      (Xml.Node.element host children').styleText = (Xml.Node.element host children).styleText)
    {d : Document} (ok : (Document.read e o fonts text s).result = .ok d) :
    (¬(slot.IsOpen ∧ host.isOf ElementKind.isText = true) →
      Document.read e o fonts text' s = Document.read e o fonts text s) ∧
    (slot.IsOpen ∧ host.isOf ElementKind.isText = true →
      (Document.read e o fonts text' s).result =
        .error (.unsupportedElement foreign.tag (some host.tag))) := by
  obtain ⟨r, -⟩ := exists_rounds ok
  obtain ⟨head, cs, cs', filled, filled'⟩ : ∃ head cs cs',
      slot.fill (.element host children) = .element head cs ∧
        slot.fill (.element host children') = .element head cs' := slot.exists_head
  have declared (cx : Context) (same : cx.strict = o.strict) :
      cx.declared (.element head cs') = cx.declared (.element head cs) := by
    rw [← filled, ← filled']
    apply cx.declared_fill
    exact cx.declared_receives (same.trans lenient) isForeign noFilter receives
  have styles := slot.styles_fill (styles_receives isForeign receives) sheets
  rw [filled] at read styles
  rw [filled'] at read' styles
  obtain ⟨root, whole⟩ := r.read_eq_scene read read' styles declared
  have policy : r.context.strict = false := lenient
  have drawn : scene e r.context o.fontSize r.root r.desk.state = (.ok r.node, r.state) := r.drawn
  rw [root, ← filled] at drawn
  rw [whole, ← filled', r.read_eq]
  obtain ⟨found, s', first, last⟩ := Reading.exists_of_bind_eq_ok drawn
  constructor
  · intro unwritten
    have alike := DrawnAlike.fill_receives policy isForeign receives slot unwritten
    have same : scene e r.context o.fontSize (slot.fill (.element host children')) =
        scene e r.context o.fontSize (slot.fill (.element host children)) := by
      unfold scene
      rw [alike.node]
    rw [same, drawn]
    rfl
  · rintro ⟨isOpen, isText⟩
    have fails := (FailsInstead.receives policy isForeign isText receives).fill policy isOpen
    obtain ⟨s'', failed⟩ := fails.node first
    unfold scene
    rw [Reading.bind_eq_of_error failed]
    rfl

end

/-- A clip path and a text, either of which may hold something else. -/
def remarkedText (inClip inText : List String) : List Char :=
  (["<svg>", "<clipPath ", "id=\"c\">"] ++ inClip ++ ["</clipPath>", "<text>a"] ++ inText ++
    ["b</text></svg>"]).flatMap String.toList

def editorElement : List String := ["<x:e xmlns", ":x=\"u\"/>"]

def editorHead : Head := ⟨⟨some "u", "e"⟩, []⟩

def clipHead : Head := plainHead "clipPath" [("id", "c")]

def pictureSlot (before after : List Xml.Node) : Slot := [⟨plainHead "svg" [], before, after⟩]

/-- An editor may leave its own elements in a clip path, and in a text it may not. -/
theorem Document.read_receives_editorElement :
    let read (text : List Char) :=
      Document.read Workshop.embedder .lenient .empty text ({} : Workshop)
    (read (remarkedText [] [])).result.toOption.isSome ∧
      read (remarkedText editorElement []) = read (remarkedText [] []) ∧
      (read (remarkedText [] editorElement)).result =
        .error (.unsupportedElement "e" (some "text")) := by
  intro read
  have isForeign : editorHead.IsForeign := ⟨"u", rfl, by decide⟩
  let editor : Xml.Node := .element editorHead []
  let text : Xml.Node := .element (plainHead "text" []) [.text ['a', 'b']]
  let clip : Xml.Node := .element clipHead []
  have inClip : Xml.Node.Receives editor [] [editor] := @Xml.Node.Receives.between _ [] []
  have inText : Xml.Node.Receives editor [.text ['a', 'b']] [.text ['a'], editor, .text ['b']] :=
    @Xml.Node.Receives.within _ [] ['a'] ['b'] []
  have found : (read (remarkedText [] [])).result.toOption.isSome := by decide +kernel
  refine ⟨found, ?_⟩
  cases ok : (read (remarkedText [] [])).result with
  | error problem => simp [ok, Except.toOption] at found
  | ok d =>
    have aroundClip : Xml.Node.read? (remarkedText [] []) =
      some ((pictureSlot [] [text]).fill (.element clipHead [])) := by cbv
    have aroundText : Xml.Node.read? (remarkedText [] []) =
      some ((pictureSlot [clip] []).fill (.element (plainHead "text" []) [.text ['a', 'b']])) := by
        cbv
    have clipped : Xml.Node.read? (remarkedText editorElement []) =
      some ((pictureSlot [] [text]).fill (.element clipHead [editor])) := by cbv
    have written : Xml.Node.read? (remarkedText [] editorElement) =
      some ((pictureSlot [clip] []).fill
        (.element (plainHead "text" []) [.text ['a'], editor, .text ['b']])) := by cbv
    constructor
    · refine (Document.read_receives rfl isForeign ?_ inClip aroundClip clipped ?_ ok).1 ?_
      · decide
      · decide
      · decide
    · refine (Document.read_receives rfl isForeign ?_ inText aroundText written ?_ ok).2 ?_
      · decide
      · decide
      · decide

/-- Elements in which an element of another language is none of the reader's business. -/
def ElementKind.isHost (k : ElementKind) : Bool :=
  [svg, group, defs, linearGradient, radialGradient, clipPath, mask, text, tspan].contains k

theorem Document.not_read_receives : ¬∀ (text text' : List Char) (foreign host : Head) (slot : Slot)
    (children children' : List Xml.Node), foreign.IsForeign →
      host.isOf ElementKind.isHost = true →
      Xml.Node.Receives (.element foreign []) children children' →
      Xml.Node.read? text = some (slot.fill (.element host children)) →
      Xml.Node.read? text' = some (slot.fill (.element host children')) →
      (Document.read Workshop.embedder .lenient .empty text {}).result.toOption.isSome →
        (Document.read Workshop.embedder .lenient .empty text' {}).result.toOption.isSome := by
  intro all
  have failed : ¬(Document.read Workshop.embedder .lenient .empty
      (remarkedText [] editorElement) {}).result.toOption.isSome := by decide +kernel
  apply failed
  refine all (remarkedText [] []) _ editorHead (plainHead "text" []) (pictureSlot
    [.element clipHead []] []) [.text ['a', 'b']] _ ⟨"u", rfl, ?_⟩ ?_
      (@Xml.Node.Receives.within _ [] ['a'] ['b'] []) ?_ ?_ ?_
  · decide
  · decide
  · cbv
  · cbv
  · decide +kernel

end SvgPage

import SvgPage.Proofs.Scene.Figures
import SvgPage.Proofs.Scene.Gathering

/-!
# Nodes put into a tree

A definition put among the contents of a picture, a group or a definition list is passed over by the
walk and by the checks of definition lists and texts. The elements around it declare what they
declared before.
-/

namespace SvgPage

namespace Xml

def Head.IsContainer (h : Head) : Prop :=
  h.kind = .ok .svg ∨ h.kind = .ok .group ∨ h.kind = .ok .defs

namespace Node

def IsDefinition (n : Node) : Prop :=
  ∃ head children kind, n = .element head children ∧ head.kind = .ok kind ∧
    kind.isDefinition = true

/-- A tree, and that tree with a node put among the contents of an element of some kind. The node
stands between two nodes, or divides a text. -/
inductive Inserted (P : Head → Prop) (d : Node) : Node → Node → Prop
  | between {head before after} : P head →
      Inserted P d (.element head (before ++ after)) (.element head (before ++ d :: after))
  | within {head before a b after} : P head →
      Inserted P d (.element head (before ++ .text (a ++ b) :: after))
        (.element head (before ++ .text a :: d :: .text b :: after))
  | inside {head before n n' after} : Inserted P d n n' →
      Inserted P d (.element head (before ++ n :: after)) (.element head (before ++ n' :: after))

theorem Inserted.exists_head {P : Head → Prop} {d n n' : Node} (h : Inserted P d n n') :
    ∃ head children children', n = .element head children ∧ n' = .element head children' := by
  cases h <;> exact ⟨_, _, _, rfl, rfl⟩

end Node

end Xml

open Xml

namespace Context

variable {σ : Type} (cx : Context) (e : Embedder σ)

theorem checkAllDefs_append (ns ms : List Xml.Node) :
    cx.checkAllDefs (ns ++ ms) = (do cx.checkAllDefs ns; cx.checkAllDefs ms) := by
  induction ns with
  | nil => rfl
  | cons n ns ih => simp only [List.cons_append, checkAllDefs, ih, bind_assoc]

theorem nodes_append (inherited : Inherited) (ns ms : List Xml.Node) :
    cx.nodes e inherited (ns ++ ms) = (do
      let first ← cx.nodes e inherited ns
      let rest ← cx.nodes e inherited ms
      return first ++ rest) := by
  induction ns with
  | nil => simp [nodes]
  | cons n ns ih =>
    simp only [List.cons_append, nodes, ih, bind_assoc, pure_bind, List.append_assoc]

theorem textItems_append (tag : String) (start : TextStart) (ns ms : List Xml.Node) :
    cx.textItems tag start (ns ++ ms) = (do
      let first ← cx.textItems tag start ns
      let rest ← cx.textItems tag start ms
      return first ++ rest) := by
  induction ns with
  | nil => cases read : cx.textItems tag start ms <;> simp [textItems, read] <;> rfl
  | cons n ns ih =>
    simp only [List.cons_append, textItems, ih, bind_assoc, pure_bind, List.append_assoc]

end Context

namespace Xml.Node

/-- Trees between which the walk and its checks make no difference. -/
structure DrawnAlike (cx : Context) (n n' : Node) : Prop where
  node : ∀ {σ : Type} (e : Embedder σ) (inherited : Inherited),
    cx.node e inherited n' = cx.node e inherited n
  textItem : ∀ (tag : String) (start : Context.TextStart),
    cx.textItem tag start n' = cx.textItem tag start n
  checkDefs : cx.checkDefs n' = cx.checkDefs n

/-- Contents between which the walk and the check of definition lists make no difference. -/
structure ContentsAlike (cx : Context) (ns ns' : List Node) : Prop where
  nodes : ∀ {σ : Type} (e : Embedder σ) (inherited : Inherited),
    cx.nodes e inherited ns' = cx.nodes e inherited ns
  checkAllDefs : cx.checkAllDefs ns' = cx.checkAllDefs ns

variable {cx : Context}

namespace ContentsAlike

variable {ns ns' ns'' : List Node}

theorem symm (h : ContentsAlike cx ns ns') : ContentsAlike cx ns' ns :=
  ⟨fun e inherited => (h.nodes e inherited).symm, h.checkAllDefs.symm⟩

theorem trans (h : ContentsAlike cx ns ns') (h' : ContentsAlike cx ns' ns'') :
    ContentsAlike cx ns ns'' :=
  ⟨fun e inherited => (h'.nodes e inherited).trans (h.nodes e inherited),
    h'.checkAllDefs.trans h.checkAllDefs⟩

theorem prepend (before : List Node) (h : ContentsAlike cx ns ns') :
    ContentsAlike cx (before ++ ns) (before ++ ns') where
  nodes e inherited := by rw [cx.nodes_append, cx.nodes_append, h.nodes]
  checkAllDefs := by rw [cx.checkAllDefs_append, cx.checkAllDefs_append, h.checkAllDefs]

theorem cons {n n' : Node} (h : DrawnAlike cx n n') (after : List Node) :
    ContentsAlike cx (n :: after) (n' :: after) where
  nodes e inherited := by rw [Context.nodes, Context.nodes, h.node]
  checkAllDefs := by rw [Context.checkAllDefs, Context.checkAllDefs, h.checkDefs]

/-- A node of which nothing is drawn, and that may stand in a definition list, makes no
difference. -/
theorem undrawn {n : Node} (node : ∀ {σ : Type} (e : Embedder σ) (inherited : Inherited),
    cx.node e inherited n = pure none) (checked : cx.checkDefs n = .ok ()) (after : List Node) :
    ContentsAlike cx after (n :: after) where
  nodes e inherited := by
    rw [Context.nodes, node, pure_bind]
    exact bind_pure _
  checkAllDefs := by
    rw [Context.checkAllDefs, checked]
    rfl

/-- Text is neither drawn nor checked outside of text elements. -/
theorem text (content : List Char) (after : List Node) :
    ContentsAlike cx after (.text content :: after) := by
  apply undrawn
  · intro σ e inherited
    unfold Context.node
    rfl
  · unfold Context.checkDefs
    rfl

/-- A node that divides a text makes no difference where it makes none between two nodes. -/
theorem divided {d : Node} (passed : ∀ after, ContentsAlike cx after (d :: after))
    (a b : List Char) (after : List Node) :
    ContentsAlike cx (.text (a ++ b) :: after) (.text a :: d :: .text b :: after) :=
  (text (a ++ b) after).symm.trans
    (((text b after).trans (passed _)).trans (text a _))

theorem definition {d : Node} (defines : d.IsDefinition) (after : List Node) :
    ContentsAlike cx after (d :: after) := by
  obtain ⟨head, children, kind, rfl, known, defines⟩ := defines
  have passed : kind.isShape = false ∧ kind ≠ .image ∧ kind ≠ .text ∧
      ¬(kind = .group ∨ kind = .svg) ∧ kind ≠ .defs ∧ ¬(kind = .tspan ∨ kind = .textPath) ∧
        kind.isUnsupported = false ∧ ¬(kind = .defs ∨ kind = .group) := by
    revert defines
    cases kind <;> decide
  obtain ⟨shape, image, text, group, defs, span, unsupported, list⟩ := passed
  apply undrawn
  · intro σ e inherited
    unfold Context.node
    rw [known]
    change (if kind.isShape = true then _ else _) = _
    simp only [shape, image, text, group, defs, span, unsupported, if_false, Bool.false_eq_true]
  · unfold Context.checkDefs
    rw [known]
    change (if kind.isUnsupported = true then _ else _) = _
    simp only [unsupported, list, if_false, Bool.false_eq_true]
    rfl

end ContentsAlike

/-- Of its contents, an element lets be drawn or written what its kind asks for. -/
theorem DrawnAlike.element {head : Head} {children children' : List Node}
    (nodes : head.isOf ElementKind.isGroup = true → ∀ {σ : Type} (e : Embedder σ)
      (inherited : Inherited), cx.nodes e inherited children' = cx.nodes e inherited children)
    (texts : head.isOf ElementKind.isText = true → ∀ (tag : String) (start : Context.TextStart),
      cx.textItems tag start children' = cx.textItems tag start children)
    (checked : cx.checkAllDefs children' = cx.checkAllDefs children) :
    DrawnAlike cx (.element head children) (.element head children') := by
  cases known : head.kind with
  | error problem =>
    constructor
    · intro σ e inherited
      unfold Context.node
      rw [known]
      rfl
    · intro tag start
      unfold Context.textItem
      rw [known]
      rfl
    · unfold Context.checkDefs
      rw [known]
      rfl
  | ok kind =>
    rw [Head.isOf_eq known] at nodes texts
    constructor
    · intro σ e inherited
      unfold Context.node
      rw [known]
      change (if kind.isShape = true then _ else _) = ite _ _ _
      split
      · rfl
      split
      · rfl
      split
      · next isText =>
        subst isText
        simp only [Context.text, texts rfl]
      split
      · next isGroup =>
        simp only [nodes (by rcases isGroup with rfl | rfl <;> rfl)]
      · simp only [checked]
    · intro tag start
      unfold Context.textItem
      rw [known]
      change (if kind = .tspan ∨ kind = .textPath then _ else _) = ite _ _ _
      split
      · next spans =>
        simp only [texts (by rcases spans with rfl | rfl <;> rfl)]
      · rfl
    · unfold Context.checkDefs
      simp only [checked]

theorem DrawnAlike.container {head : Head} {children children' : List Node}
    (container : head.IsContainer) (alike : ContentsAlike cx children children') :
    DrawnAlike cx (.element head children) (.element head children') := by
  refine .element (fun _ => alike.nodes) (fun isText => ?_) alike.checkAllDefs
  rcases container with known | known | known <;> rw [Head.isOf_eq known] at isText <;> cases isText

theorem DrawnAlike.inside {n n' : Node} (alike : DrawnAlike cx n n') (head : Head)
    (before after : List Node) :
    DrawnAlike cx (.element head (before ++ n :: after)) (.element head (before ++ n' :: after)) := by
  have contents := (ContentsAlike.cons alike after).prepend before
  refine .element (fun _ => contents.nodes) (fun _ tag start => ?_) contents.checkAllDefs
  rw [cx.textItems_append, cx.textItems_append, Context.textItems, Context.textItems,
    alike.textItem]

/-- By induction on the place: a definition is passed over wherever it may stand. -/
theorem Inserted.drawnAlike {d n n' : Node} (defines : d.IsDefinition)
    (h : Inserted Head.IsContainer d n n') : DrawnAlike cx n n' := by
  induction h with
  | @between head before after container =>
    exact .container container ((ContentsAlike.definition defines after).prepend before)
  | @within head before a b after container =>
    apply DrawnAlike.container container
    apply ContentsAlike.prepend
    exact .divided (ContentsAlike.definition defines) a b after
  | @inside head before n n' after _ ih => exact ih.inside head before after

end Xml.Node

namespace Context

variable (cx : Context)

theorem stops_congr {es es' : List Element} (heads : es'.map (·.head) = es.map (·.head))
    (tag : String) (least : Option Float) : cx.stops tag least es' = cx.stops tag least es := by
  induction es generalizing es' least with
  | nil => rw [List.map_eq_nil_iff.mp heads]
  | cons e es ih =>
    cases es' with
    | nil => cases heads
    | cons e' es' =>
      obtain ⟨head, heads⟩ := List.cons.inj heads
      simp only [stops, head, ih heads]

theorem clipOutline_congr {es es' : List Element} (heads : es'.map (·.head) = es.map (·.head))
    (tag : String) (m : Matrix Float) : cx.clipOutline tag m es' = cx.clipOutline tag m es := by
  induction es generalizing es' with
  | nil => rw [List.map_eq_nil_iff.mp heads]
  | cons e es ih =>
    cases es' with
    | nil => cases heads
    | cons e' es' =>
      obtain ⟨head, heads⟩ := List.cons.inj heads
      simp only [clipOutline, head, ih heads]

/-- Of the contents of an element, its declaration looks at the heads only. -/
theorem declared?_congr {e e' : Element} (head : e'.head = e.head)
    (heads : e'.inner.map (·.head) = e.inner.map (·.head)) :
    cx.declared? e' = cx.declared? e := by
  have effects : filter e' = filter e := by
    unfold filter
    cases contents : e.inner <;> cases contents' : e'.inner <;> simp_all
  simp only [declared?, definition?, gradient, clipPath, mask, head, cx.stops_congr heads,
    cx.clipOutline_congr heads, effects]

theorem declared?_container {head : Head} (container : head.IsContainer)
    (children : List Xml.Node) : cx.declared? ⟨head, children⟩ = none := by
  have undefined : cx.definition? ⟨head, children⟩ = none := by
    unfold definition?
    rcases container with known | known | known <;> rw [known]
  cases named : head.id? <;> simp [declared?, named, undefined]

end Context

namespace Xml.Node

theorem elementsAmong_append (ns ms : List Node) :
    elementsAmong (ns ++ ms) = elementsAmong ns ++ elementsAmong ms := by
  induction ns with
  | nil => rw [List.nil_append, elementsAmong, List.nil_append]
  | cons n ns ih => rw [List.cons_append, elementsAmong, elementsAmong, ih, List.append_assoc]

theorem filterMap_elements {β : Type} (f : Element → Option β) (head : Head)
    (children : List Node) : (element head children).elements.filterMap f =
      (f ⟨head, children⟩).toList ++ (elementsAmong children).filterMap f := by
  rw [elements, List.filterMap_cons]
  cases f ⟨head, children⟩ <;> rfl

/-- What is collected from the elements of a tree is collected as before, and what the node brings
along is collected at one place. -/
theorem Inserted.exists_split {P : Head → Prop} {d n n' : Node} (h : Inserted P d n n') {β : Type}
    (f : Element → Option β) (holder : ∀ head children, P head → f ⟨head, children⟩ = none)
    (around : ∀ head before m m' after, ⟨head, before ++ m :: after⟩ ∈ n.elements →
      Inserted P d m m' → f ⟨head, before ++ m' :: after⟩ = f ⟨head, before ++ m :: after⟩) :
    ∃ left right, n.elements.filterMap f = left ++ right ∧
      n'.elements.filterMap f = left ++ d.elements.filterMap f ++ right := by
  induction h with
  | @between head before after held =>
    refine ⟨(elementsAmong before).filterMap f, (elementsAmong after).filterMap f, ?_, ?_⟩ <;>
      simp [elements, elementsAmong, elementsAmong_append, holder _ _ held]
  | @within head before a b after held =>
    refine ⟨(elementsAmong before).filterMap f, (elementsAmong after).filterMap f, ?_, ?_⟩ <;>
      simp [elements, elementsAmong, elementsAmong_append, holder _ _ held]
  | @inside head before m m' after inner ih =>
    obtain ⟨left, right, whole, whole'⟩ := ih fun head before k k' after member =>
      around head before k k' after (by
        simp [elements, elementsAmong, elementsAmong_append, member])
    have own := around head before m m' after (by simp [elements]) inner
    refine ⟨(f ⟨head, before ++ m :: after⟩).toList ++ (elementsAmong before).filterMap f ++ left,
      right ++ (elementsAmong after).filterMap f, ?_, ?_⟩
    · simp only [filterMap_elements, elementsAmong_append, elementsAmong, List.filterMap_append,
        whole, List.append_assoc]
    · simp only [filterMap_elements, elementsAmong_append, elementsAmong, List.filterMap_append,
        whole', own, List.append_assoc]

end Xml.Node

theorem Xml.Node.Inserted.declared_perm (cx : Context) {d n n' : Xml.Node}
    (h : Inserted Head.IsContainer d n n') :
    (cx.declared n').Perm (cx.declared d ++ cx.declared n) := by
  obtain ⟨left, right, whole, whole'⟩ := h.exists_split cx.declared?
    (fun head children container => cx.declared?_container container children) (by
      rintro head before m m' after - inner
      obtain ⟨h, children, children', rfl, rfl⟩ := inner.exists_head
      exact cx.declared?_congr rfl (by simp [Element.inner, Xml.Node.element?]))
  rw [Context.declared, Context.declared, Context.declared, whole, whole', List.append_assoc]
  exact List.perm_append_comm_assoc _ _ _

end SvgPage

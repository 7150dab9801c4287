import SvgPage.Proofs.Scene.Descent
import SvgPage.Proofs.Scene.Registration

/-!
# Recognition

An element whose tag is not recognized fails the reading of its document, under either policy, if a
pass looks at it. The walk looks at all that stands in pictures, groups, texts and definition lists,
and the definitions with an id look at their contents. At what stands in a shape nothing looks.
-/

namespace SvgPage

open Xml

namespace Xml

/-- An element of the format whose tag is none of the known ones. -/
structure Head.IsUnrecognized (h : Head) : Prop where
  space : h.name.space = none ∨ h.name.space = some svgSpace
  tag : ElementKind.ofTag? h.tag = none

theorem Head.IsUnrecognized.kind_ne_ok {h : Head} (unknown : h.IsUnrecognized)
    (kind : ElementKind) : h.kind ≠ .ok kind := by
  have own : (h.name.space.isSome && h.name.space != some svgSpace) = false := by
    rcases unknown.space with space | space <;> simp [space]
  unfold Head.kind
  rw [own, unknown.tag]
  simp

namespace Node

/-- The elements of a definition list at which its check looks: its own, and those in the lists and
groups inside. -/
inductive Listed : Node → Head → Prop
  | here {head children} : Listed (element head children) head
  | inside {head children kind n h} : head.kind = .ok kind → kind = .defs ∨ kind = .group →
      n ∈ children → Listed n h → Listed (element head children) h

/-- The elements of a tree at which the walk looks. -/
inductive Visited : Node → Head → Prop
  | here {head children} : Visited (element head children) head
  | inside {head children kind n h} : head.kind = .ok kind → kind.isOpen = true → n ∈ children →
      Visited n h → Visited (element head children) h
  | listed {head children n h} : head.kind = .ok .defs → n ∈ children → Listed n h →
      Visited (element head children) h

/-- The elements of a document at which some pass looks. -/
inductive Examined (root : Node) : Head → Prop
  | visited {h} : Visited root h → Examined root h
  | defining {e inner} : e ∈ root.elements → e.defined?.isSome = true → inner ∈ e.inner →
      Examined root inner.head

end Node

end Xml

namespace Context

variable {cx : Context}

theorem checkDefs_of_mem {ns : List Xml.Node} (h : cx.checkAllDefs ns = .ok ()) {n : Xml.Node}
    (member : n ∈ ns) : cx.checkDefs n = .ok () := by
  induction ns with
  | nil => cases member
  | cons m ns ih =>
    unfold checkAllDefs at h
    obtain ⟨⟨⟩, first, rest⟩ := exists_of_bind_eq_ok h
    rcases List.mem_cons.mp member with rfl | member
    · exact first
    · exact ih rest member

theorem kind_of_listed {n : Xml.Node} {h : Head} (listed : n.Listed h)
    (checked : cx.checkDefs n = .ok ()) : ∃ kind, h.kind = .ok kind := by
  induction listed with
  | here =>
    unfold checkDefs at checked
    obtain ⟨kind, known, -⟩ := exists_of_bind_eq_ok checked
    exact ⟨kind, known⟩
  | @inside head children kind n h known list member _ ih =>
    unfold checkDefs at checked
    obtain ⟨kind', known', checked⟩ := exists_of_bind_eq_ok checked
    cases known.symm.trans known'
    have supported : ¬kind.isUnsupported = true := by rcases list with rfl | rfl <;> decide
    rw [if_neg supported, if_pos list] at checked
    exact ih (checkDefs_of_mem checked member)

variable {σ : Type} {e : Embedder σ}

theorem exists_node_of_mem {inherited : Inherited} {ns : List Xml.Node} {s s' : σ}
    {members : List (Node Float)} (read : cx.nodes e inherited ns s = (.ok members, s'))
    {n : Xml.Node} (member : n ∈ ns) :
    ∃ found s₁ s₂, cx.node e inherited n s₁ = (.ok found, s₂) := by
  induction ns generalizing s members with
  | nil => cases member
  | cons m ns ih =>
    unfold nodes at read
    obtain ⟨found, s₁, first, read⟩ := Reading.exists_of_bind_eq_ok read
    obtain ⟨rest, s₂, others, last⟩ := Reading.exists_of_bind_eq_ok read
    cases last
    rcases List.mem_cons.mp member with rfl | member
    · exact ⟨found, s, s₁, first⟩
    · exact ih others member

theorem exists_textItem_of_mem {tag : String} {start : TextStart} {ns : List Xml.Node}
    {items : List (TextItem Float)} (read : cx.textItems tag start ns = .ok items) {n : Xml.Node}
    (member : n ∈ ns) : ∃ item, cx.textItem tag start n = .ok item := by
  induction ns generalizing items with
  | nil => cases member
  | cons m ns ih =>
    unfold textItems at read
    obtain ⟨item, first, read⟩ := exists_of_bind_eq_ok read
    obtain ⟨rest, others, -⟩ := exists_of_bind_eq_ok read
    rcases List.mem_cons.mp member with rfl | member
    · exact ⟨item, first⟩
    · exact ih others member

theorem exists_kind_of_textItem {tag : String} {start : TextStart} {head : Head}
    {children : List Xml.Node} {item : Option (TextItem Float)}
    (read : cx.textItem tag start (.element head children) = .ok item) :
    ∃ kind, head.kind = .ok kind := by
  unfold textItem at read
  obtain ⟨kind, known, -⟩ := exists_of_bind_eq_ok read
  exact ⟨kind, known⟩

/-- By induction on the way to the element, which leads through nodes and then through parts of a
text. -/
theorem kind_of_visited {n : Xml.Node} {h : Head} (visited : n.Visited h) :
    (∀ {inherited s found s'}, cx.node e inherited n s = (.ok found, s') →
      ∃ kind, h.kind = .ok kind) ∧
    ∀ {tag start item}, cx.textItem tag start n = .ok item → ∃ kind, h.kind = .ok kind := by
  induction visited with
  | @here head children =>
    refine ⟨fun read => ?_, fun read => exists_kind_of_textItem read⟩
    obtain ⟨kind, known, -⟩ := readsNode_of_eq_ok read
    exact ⟨kind, known⟩
  | @inside head children kind n h known isOpen member _ ih =>
    constructor
    · intro inherited s found s' read
      obtain ⟨kind', known', reads⟩ := readsNode_of_eq_ok read
      cases known.symm.trans known'
      cases reads with
      | shape isShape _ =>
        cases isOpen.symm.trans (ElementKind.isOpen_of_isShape isShape)
      | image _ => cases isOpen
      | text _ contents _ =>
        obtain ⟨item, read⟩ := exists_textItem_of_mem contents member
        exact ih.2 read
      | group _ _ contents _ =>
        obtain ⟨found, s₁, s₂, read⟩ := exists_node_of_mem contents member
        exact ih.1 read
      | defs _ => cases isOpen
      | hidden undrawn _ =>
        cases isOpen.symm.trans (ElementKind.isOpen_of_not_isDrawn undrawn)
    · intro tag start item read
      cases readsItem_of_eq_ok read with
      | span _ _ _ contents _ =>
        obtain ⟨item, read⟩ := exists_textItem_of_mem contents member
        exact ih.2 read
      | remark known' remark =>
        cases known.symm.trans known'
        have undrawn := isDrawn_of_isTextRemark remark
        cases isOpen.symm.trans (ElementKind.isOpen_of_not_isDrawn undrawn)
      | other noElement => cases noElement
  | @listed head children n h known member listed =>
    -- No walk goes into a definition list, only the check of its contents does.
    constructor
    · intro inherited s found s' read
      obtain ⟨kind', known', reads⟩ := readsNode_of_eq_ok read
      cases known.symm.trans known'
      cases reads with
      | shape isShape _ => cases isShape
      | group isGroup _ _ _ => rcases isGroup with no | no <;> cases no
      | defs checked => exact kind_of_listed listed (checkDefs_of_mem checked member)
      | hidden _ other => exact absurd rfl other
    · intro tag start item read
      cases readsItem_of_eq_ok read with
      | span known' spans _ _ _ =>
        cases known.symm.trans known'
        rcases spans with no | no <;> cases no
      | remark known' remark =>
        cases known.symm.trans known'
        cases remark
      | other noElement => cases noElement

theorem kind_of_stops {tag : String} {least : Option Float} {es : List Element}
    {stops : List (Stop Float)} (read : cx.stops tag least es = .ok stops) {inner : Element}
    (member : inner ∈ es) : ∃ kind, inner.head.kind = .ok kind := by
  induction es generalizing least stops with
  | nil => cases member
  | cons e es ih =>
    unfold Context.stops at read
    obtain ⟨kind, known, read⟩ := exists_of_bind_eq_ok read
    rcases List.mem_cons.mp member with rfl | member
    · exact ⟨kind, known⟩
    split at read
    · obtain ⟨s, -, read⟩ := exists_of_bind_eq_ok read
      obtain ⟨more, rest, -⟩ := exists_of_bind_eq_ok read
      exact ih rest member
    split at read
    · obtain ⟨-, -, rest⟩ := exists_of_bind_eq_ok read
      exact ih rest member
    · cases read

theorem kind_of_clipOutline {container : String} {m : Matrix Float} {es : List Element}
    {ops : List (PathOp Float)} (read : cx.clipOutline container m es = .ok ops) {inner : Element}
    (member : inner ∈ es) : ∃ kind, inner.head.kind = .ok kind := by
  induction es generalizing ops with
  | nil => cases member
  | cons e es ih =>
    unfold Context.clipOutline at read
    obtain ⟨kind, known, read⟩ := exists_of_bind_eq_ok read
    rcases List.mem_cons.mp member with rfl | member
    · exact ⟨kind, known⟩
    have rest {first : List (PathOp Float)} (h : (do
        let more ← cx.clipOutline container m es
        return first ++ more) = Except.ok ops) : ∃ kind, inner.head.kind = .ok kind := by
      obtain ⟨more, others, -⟩ := exists_of_bind_eq_ok h
      exact ih others member
    dsimp only at read
    split at read
    · obtain ⟨outline, -, read⟩ := exists_of_bind_eq_ok read
      obtain ⟨own, -, read⟩ := exists_of_bind_eq_ok read
      exact rest read
    split at read
    · obtain ⟨first, -, read⟩ := exists_of_bind_eq_ok read
      exact rest read
    · cases read

theorem kind_of_definition? {e : Element} {d : Definition Float}
    (read : cx.definition? e = some (.ok d)) {inner : Element} (member : inner ∈ e.inner) :
    ∃ kind, inner.head.kind = .ok kind := by
  have gradient {kind : ElementKind} (read : (cx.gradient kind e).map Definition.gradient = .ok d) :
      ∃ kind, inner.head.kind = .ok kind := by
    obtain ⟨g, read, -⟩ := exists_of_map_eq_ok read
    unfold Context.gradient at read
    obtain ⟨units, -, read⟩ := exists_of_bind_eq_ok read
    obtain ⟨transform, -, read⟩ := exists_of_bind_eq_ok read
    obtain ⟨spread, -, read⟩ := exists_of_bind_eq_ok read
    obtain ⟨shape, -, read⟩ := exists_of_bind_eq_ok read
    obtain ⟨stops, contents, -⟩ := exists_of_bind_eq_ok read
    exact kind_of_stops contents member
  unfold definition? at read
  split at read
  · exact gradient (Option.some.inj read)
  · exact gradient (Option.some.inj read)
  · obtain ⟨c, read, -⟩ := exists_of_map_eq_ok (Option.some.inj read)
    unfold Context.clipPath at read
    obtain ⟨units, -, read⟩ := exists_of_bind_eq_ok read
    obtain ⟨rule, -, read⟩ := exists_of_bind_eq_ok read
    obtain ⟨own, -, read⟩ := exists_of_bind_eq_ok read
    obtain ⟨ops, contents, -⟩ := exists_of_bind_eq_ok read
    exact kind_of_clipOutline contents member
  · obtain ⟨m, read, -⟩ := exists_of_map_eq_ok (Option.some.inj read)
    unfold Context.mask at read
    obtain ⟨ofRegion, -, read⟩ := exists_of_bind_eq_ok read
    obtain ⟨ofContent, -, read⟩ := exists_of_bind_eq_ok read
    obtain ⟨region, -, read⟩ := exists_of_bind_eq_ok read
    obtain ⟨ops, contents, -⟩ := exists_of_bind_eq_ok read
    exact kind_of_clipOutline contents member
  · obtain ⟨f, read, -⟩ := exists_of_map_eq_ok (Option.some.inj read)
    unfold Context.filter at read
    split at read
    · cases read
    · next empty =>
      rw [empty] at member
      cases member
  · cases read

open Gathering in
theorem kind_of_gathered {root : Xml.Node} {xs : List Declared}
    (read : AllRead (cx.declared root) xs) {e inner : Element} (member : e ∈ root.elements)
    (defines : e.defined?.isSome = true) (within : inner ∈ e.inner) :
    ∃ kind, inner.head.kind = .ok kind := by
  have spec := cx.declared?_eq e
  cases found : cx.declared? e with
  | none =>
    rw [found] at spec
    rw [spec] at defines
    cases defines
  | some r =>
    have among : r ∈ cx.declared root := List.mem_filterMap.mpr ⟨e, member, found⟩
    obtain ⟨x, -, rfl⟩ := exists_of_forall₂ read among
    obtain ⟨id, -, found⟩ := Option.bind_eq_some_iff.mp found
    obtain ⟨definition, found, result⟩ := Option.bind_eq_some_iff.mp found
    obtain ⟨d, rfl, -⟩ := exists_of_map_eq_ok (Option.some.inj result)
    exact kind_of_definition? found within

end Context

section

variable {σ : Type} {e : Embedder σ} {o : Options Float} {fonts : FontTable} {text : List Char}
  {s : σ}

theorem Rounds.kind_of_examined (r : Rounds e o fonts text s) {h : Head}
    (examined : r.root.Examined h) : ∃ kind, h.kind = .ok kind := by
  cases examined with
  | visited visited =>
    have drawn := r.drawn
    unfold Document.scene at drawn
    obtain ⟨found, s₁, read, -⟩ := Reading.exists_of_bind_eq_ok drawn
    exact (Context.kind_of_visited visited).1 read
  | defining member defines within =>
    obtain ⟨xs, read, -, -⟩ := (gatherDefinitions_eq_ok_iff rfl).mp r.gathered
    exact Context.kind_of_gathered read member defines within

/-- An element that is not recognized fails its document under either policy, provided that some
pass looks at it. -/
theorem Document.unrecognized_rejected {root : Xml.Node} {head : Head}
    (tree : Xml.Node.read? text = some root) (examined : root.Examined head)
    (unknown : head.IsUnrecognized) (e : Embedder σ) (o : Options Float) (fonts : FontTable)
    (s : σ) : ∃ problem, (read e o fonts text s).result = .error problem := by
  cases result : (read e o fonts text s).result with
  | error problem => exact ⟨problem, rfl⟩
  | ok d =>
    obtain ⟨r, -⟩ := exists_rounds result
    cases (read?_of_frame r.framed).symm.trans tree
    obtain ⟨kind, known⟩ := r.kind_of_examined examined
    exact absurd known (unknown.kind_ne_ok kind)

end

/-- A picture with a definition list and a shape, both of which have contents. -/
def strangeText (listed drawn : List String) : List Char :=
  (["<svg><defs><g>"] ++ listed ++ ["</g></defs>", "<rect>"] ++ drawn ++ ["</rect></svg>"]).flatMap
    String.toList

def strangeTree (listed drawn : List Xml.Node) : Xml.Node :=
  .element ⟨⟨none, "svg"⟩, []⟩ [
    .element ⟨⟨none, "defs"⟩, []⟩ [.element ⟨⟨none, "g"⟩, []⟩ listed],
    .element ⟨⟨none, "rect"⟩, []⟩ drawn]

def strangeHead : Head := ⟨⟨none, "foo"⟩, []⟩

theorem strangeHead_isUnrecognized : strangeHead.IsUnrecognized := ⟨.inl rfl, by decide +kernel⟩

/-- In the definition list the element is seen. -/
theorem unrecognized_rejected_listed :
    Xml.Node.read? (strangeText ["<foo/>"] []) = some (strangeTree [.element strangeHead []] []) ∧
      strangeHead.IsUnrecognized ∧ ∃ problem, (Document.read Workshop.embedder .initial .empty
        (strangeText ["<foo/>"] []) {}).result = .error problem := by
  have tree : Xml.Node.read? (strangeText ["<foo/>"] []) =
      some (strangeTree [.element strangeHead []] []) := by
    unfold strangeText strangeTree
    cbv
  have listed : (Xml.Node.element ⟨⟨none, "g"⟩, []⟩ [.element strangeHead []]).Listed strangeHead :=
    .inside rfl (.inr rfl) (List.mem_singleton_self _) .here
  have visited : (strangeTree [.element strangeHead []] []).Visited strangeHead :=
    .inside rfl rfl List.mem_cons_self (.listed rfl (List.mem_singleton_self _) listed)
  exact ⟨tree, strangeHead_isUnrecognized, Document.unrecognized_rejected tree (.visited visited)
    strangeHead_isUnrecognized _ _ _ _⟩

/-- In the shape nothing looks at it, so the document is read under either policy. -/
theorem unrecognized_read :
    Xml.Node.read? (strangeText [] ["<foo/>"]) = some (strangeTree [] [.element strangeHead []]) ∧
      (∃ e ∈ (strangeTree [] [.element strangeHead []]).elements, e.head.IsUnrecognized) ∧
        ∀ strict, (Document.read Workshop.embedder { Options.initial with strict := strict } .empty
          (strangeText [] ["<foo/>"]) {}).result.toOption.isSome = true := by
  refine ⟨?_, ⟨⟨strangeHead, []⟩, ?_, strangeHead_isUnrecognized⟩, ?_⟩
  · unfold strangeText strangeTree
    cbv
  · simp [strangeTree, Xml.Node.elements, Xml.Node.elementsAmong]
  · decide +kernel

end SvgPage

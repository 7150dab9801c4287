import SvgPage.Proofs.Scene.References
import SvgPage.Proofs.Scene.Registration

/-!
# Resolution

In a document that is read, every drawn element refers to what is registered only, its figure
carries just that, and the registered gradients have the stops of their chains. An element that
refers to anything else makes a problem wherever it is drawn.
-/

namespace SvgPage

open Xml

namespace Figure

def fill : Figure → Option (Paint Float)
  | shape s => s.paint.fill
  | image _ => none
  | text style => style.fill
  | group paint _ _ => paint.fill

def stroke : Figure → Option (Paint Float)
  | shape s => s.paint.stroke
  | image _ => none
  | text style => style.stroke
  | group paint _ _ => paint.stroke

end Figure

namespace Registers

/-- A figure fits its element, and it carries exactly what the element refers to. -/
structure Resolves (registers : Registers) (site : Site) (f : Figure) : Prop where
  kind : site.head.isOf f.fits = true
  paint : site.head.isOf ElementKind.isPainted = true →
    PaintStyle.Follows registers.classes registers.definitions (site.head :: site.around) f.fill
      f.stroke
  base : f.base.Follows registers.classes registers.definitions site.head f.box

/-- The properties that refer to something, and what it must be. -/
def referring : List (String × DefinitionKind) :=
  [("fill", .gradient), ("stroke", .gradient), ("clip-path", .clipPath), ("mask", .mask),
    ("filter", .filter)]

/-- The elements in which a reference of a kind counts: only those that are painted need a gradient.
-/
def counts : DefinitionKind → ElementKind → Bool
  | .gradient => ElementKind.isPainted
  | _ => ElementKind.isDrawn

/-- The element refers to something that is not registered with the kind that it must be of. -/
def Dangling (registers : Registers) (site : Site) : Prop :=
  ∃ name kind id, (name, kind) ∈ referring ∧ site.head.isOf (counts kind) = true ∧
    (site.head.properties registers.classes).named? name = some id ∧
      (registers.definitions.get? id).map Definition.kind ≠ some kind

end Registers

theorem Definitions.Refers.kind_eq {ds : Definitions Float} {β : Type} {wrap : β → Definition Float}
    {id : String} {found : Option β} (h : ds.Refers wrap (some id) found) {kind : DefinitionKind}
    (same : ∀ b, (wrap b).kind = kind) : (ds.get? id).map Definition.kind = some kind := by
  cases h with
  | registered found => rw [found, Option.map_some, same]

theorem Registers.Dangling.isDrawn {registers : Registers} {site : Site}
    (h : registers.Dangling site) : site.head.isOf ElementKind.isDrawn = true := by
  obtain ⟨name, kind, id, -, counted, -⟩ := h
  cases kind with
  | gradient =>
    unfold Head.isOf at counted ⊢
    cases known : site.head.kind with
    | error problem => simp [known] at counted
    | ok k =>
      rw [known] at counted
      exact Bool.or_eq_true_iff.mpr (.inl counted)
  | clipPath | mask | filter => exact counted

theorem Registers.Resolves.not_dangling {registers : Registers} {site : Site} {f : Figure}
    (h : registers.Resolves site f) : ¬registers.Dangling site := by
  rintro ⟨name, kind, id, member, counted, named, unregistered⟩
  have stated {name : String}
      (named : (site.head.properties registers.classes).named? name = some id) :
      (Head.effective? registers.classes name (site.head :: site.around)).bind Reference.id? =
        some id := by
    obtain ⟨value, stated, refers⟩ := Properties.stated?_of_named? named
    rw [Head.effective?, List.findSome?_cons, stated]
    exact refers
  refine unregistered ?_
  simp only [referring, List.mem_cons, List.not_mem_nil, or_false, Prod.mk.injEq] at member
  rcases member with ⟨rfl, rfl⟩ | ⟨rfl, rfl⟩ | ⟨rfl, rfl⟩ | ⟨rfl, rfl⟩ | ⟨rfl, rfl⟩
  · have fill := (h.paint counted).fill
    rw [stated named] at fill
    exact fill.kind_eq fun _ => rfl
  · have stroke := (h.paint counted).stroke
    rw [stated named] at stroke
    exact stroke.kind_eq fun _ => rfl
  · obtain ⟨clipPath, clip, -⟩ := h.base.clip
    rw [named] at clip
    exact clip.kind_eq fun _ => rfl
  · have mask := h.base.mask
    rw [named] at mask
    exact mask.kind_eq fun _ => rfl
  · have filter := h.base.filter
    rw [named] at filter
    exact filter.kind_eq fun _ => rfl

/-- What the contents of an element inherit refers to what is registered, and so does every figure.
-/
theorem Context.upholds_resolves (cx : Context) :
    cx.Upholds (fun around paint _ =>
        PaintStyle.Follows cx.classes cx.definitions around paint.fill paint.stroke)
      (Registers.Resolves ⟨cx.classes, cx.definitions, cx.fonts⟩) where
  shape := by
    intro head around paint wanted kind s inherits known isShape read
    obtain ⟨-, painted, carried⟩ := parts_of_shape read
    exact ⟨(Head.isOf_eq known _).trans isShape, fun _ => follows_of_paintStyle inherits painted,
      follows_of_base carried⟩
  image := by
    intro head around paint wanted handle i inherits known read
    obtain ⟨x, y, width, height, given, -, -, -, -, -, -, -, carried⟩ := parts_of_placeImage read
    refine ⟨Head.isOf_eq known _, fun isPainted => ?_, follows_of_base carried⟩
    rw [Head.isOf_eq known] at isPainted
    cases isPainted
  text := by
    intro head around paint wanted start inherits isText read
    obtain ⟨properties, painted, -, -⟩ := parts_of_textStart read
    have follows := follows_of_paintStyle inherits painted
    refine ⟨follows, fun style read => ?_⟩
    obtain ⟨x, y, base, -, -, carried, rfl⟩ := parts_of_textStyle read
    rw [properties] at carried
    exact ⟨isText, fun _ => follows, follows_of_base carried⟩
  group := by
    intro head around inherited start inherits isGroup read
    obtain ⟨painted, -, -⟩ := parts_of_groupStart read
    have follows := follows_of_paintStyle inherits painted
    refine ⟨follows, fun isNested children g read => ?_⟩
    obtain ⟨base, place, carried, -, rfl⟩ := parts_of_groupEnd read
    have carried := follows_of_base carried
    -- The matrix of a nested picture refers to nothing.
    exact ⟨_, rfl, isGroup, fun _ => follows, carried.mask, carried.filter, carried.clip⟩

/-- A gradient of a map with the stops to which its chain of links leads, if it leads to any. -/
inductive GradientMap.Settles (gs : GradientMap Float) (id : String) : Gradient Float → Prop
  | leading {own n stops} : gs.get? id = some own → gs.Leads n id stops →
      Settles gs id { own with stops := stops }
  | alone {own} : gs.get? id = some own → (∀ n stops, ¬gs.Leads n id stops) → Settles gs id own

theorem GradientMap.settled?_eq_some_iff {gs : GradientMap Float} {id : String}
    {g : Gradient Float} : gs.settled? id = some g ↔ gs.Settles id g := by
  constructor
  · intro h
    obtain ⟨own, found, -⟩ := Option.map_eq_some_iff.mp h
    by_cases leads : ∃ n stops, gs.Leads n id stops
    · obtain ⟨n, stops, leads⟩ := leads
      cases (settled?_of_leads found leads).symm.trans h
      exact .leading found leads
    · simp only [not_exists] at leads
      cases (settled?_of_not_leads found leads).symm.trans h
      exact .alone found leads
  · rintro (⟨found, leads⟩ | ⟨found, never⟩)
    · exact settled?_of_leads found leads
    · exact settled?_of_not_leads found never

def Context.declaredGradients (cx : Context) (root : Xml.Node) : GradientMap Float :=
  (cx.declared root).filterMap fun r =>
    (r.toOption.bind Declared.pending?).map fun p => (p.id, p.gradient)

namespace Gathering

theorem chains_ofDeclared {rs : List (Except Problem Declared)} {xs : List Declared}
    (read : AllRead rs xs) : (ofDeclared xs).chains = rs.filterMap fun r =>
      (r.toOption.bind Declared.pending?).map fun p => (p.id, p.gradient) := by
  induction read with
  | nil => rfl
  | @cons r x rs xs first rest ih =>
    subst first
    rw [List.filterMap_cons, ← ih, chains, chains, ofDeclared, ofDeclared]
    simp only [Except.toOption, Option.bind_some, List.filterMap_cons]
    cases x.pending? <;> rfl

theorem isSome_settled?_iff {g : Gathering} {id : String} :
    (g.chains.settled? id).isSome ↔ ∃ p ∈ g.pending, p.id = id := by
  rw [GradientMap.settled?, Option.isSome_map]
  refine Shelf.isSome_get?_iff.trans ?_
  simp [Shelf.keys, chains]

/-- A registered gradient is one that waited, with the stops that it takes from its chain. -/
theorem get?_registry_eq_gradient_iff {xs : List Declared} (distinct : (ids xs).Nodup)
    {id : String} {g : Gradient Float} :
    (ofDeclared xs).registry.get? id = some (.gradient g) ↔
      (ofDeclared xs).chains.settled? id = some g := by
  have entries : (id, Definition.gradient g) ∈ (ofDeclared xs).registry.entries ↔
      ∃ p ∈ (ofDeclared xs).pending, (ofDeclared xs).entry p = (id, .gradient g) := by
    simp [registry, gradient_notMem_definitions]
  have distinct := nodup_keys_registry distinct
  refine ((Shelf.get?_eq_some_iff distinct).trans entries).trans ⟨?_, fun settled => ?_⟩
  · rintro ⟨p, member, entry⟩
    obtain ⟨rfl, same⟩ := Prod.ext_iff.mp entry
    obtain ⟨own, settled⟩ := Option.isSome_iff_exists.mp (isSome_settled?_iff.mpr ⟨p, member, rfl⟩)
    simp only [Gathering.entry, settled, Option.getD_some, Definition.gradient.injEq] at same
    exact settled.trans (congrArg some same)
  · obtain ⟨p, member, rfl⟩ := isSome_settled?_iff.mp (Option.isSome_iff_exists.mpr ⟨g, settled⟩)
    exact ⟨p, member, by rw [Gathering.entry, settled, Option.getD_some]⟩

end Gathering

section

variable {σ : Type} {e : Embedder σ} {o : Options Float} {fonts : FontTable} {text : List Char}
  {s : σ}

namespace Rounds

variable (r : Rounds e o fonts text s)

theorem forall₂_resolves : List.Forall₂ r.outcome.registers.Resolves (r.root.drawn [])
    r.document.root.figures := by
  have initial : PaintStyle.Follows r.desk.classes r.definitions []
      (PaintStyle.initial (α := Float)).fill (PaintStyle.initial (α := Float)).stroke :=
    ⟨.nothing, .nothing⟩
  exact r.forall₂_figures (Context.upholds_resolves _) initial

theorem forall_mem_figures {I : List Head → PaintStyle Float → TextAttributes → Prop}
    {P : Figure → Prop} (upholds : r.context.Upholds I fun _ f => P f)
    (initial : I [] .initial (.initial o.fontSize)) : ∀ f ∈ r.document.root.figures, P f := by
  intro f member
  obtain ⟨-, -, holds⟩ := exists_of_forall₂ (r.forall₂_figures upholds initial).flip member
  exact holds

theorem get?_definitions_eq_gradient_iff {id : String} {g : Gradient Float} :
    r.definitions.get? id = some (.gradient g) ↔
      ((Context.start o.strict r.viewBox r.size r.desk).declaredGradients r.root).Settles id g := by
  obtain ⟨xs, read, distinct, registered⟩ := (gatherDefinitions_eq_ok_iff rfl).mp r.gathered
  rw [registered, Gathering.get?_registry_eq_gradient_iff distinct,
    Gathering.chains_ofDeclared read, GradientMap.settled?_eq_some_iff]
  rfl

end Rounds

/-- An element that is reached and refers to what is not registered makes a problem. In a document
that is read, the drawn elements and the figures correspond, each figure carries exactly what its
element refers to, and gradients have the stops of their chains. -/
theorem Document.references_resolved (e : Embedder σ) (o : Options Float) (fonts : FontTable)
    (text : List Char) (s : σ) :
    let outcome := Document.read e o fonts text s
    (∀ root, Xml.Node.read? text = some root →
      (∃ site ∈ root.visible [], outcome.registers.Dangling site) →
        ∃ problem, outcome.result = .error problem) ∧
    ∀ d, outcome.result = .ok d → ∃ root, Xml.Node.read? text = some root ∧
      List.Forall₂ outcome.registers.Resolves (root.drawn []) d.root.figures ∧
      ∀ id g, outcome.registers.definitions.get? id = some (.gradient g) ↔
        ((Context.start o.strict d.viewBox d.size ⟨outcome.registers.classes,
          outcome.registers.fonts, outcome.state⟩).declaredGradients root).Settles id g := by
  intro outcome
  have resolved (d : Document) (ok : outcome.result = .ok d) :
      ∃ r : Rounds e o fonts text s, outcome = r.outcome ∧ r.document = d := by
    obtain ⟨r, same⟩ := Document.exists_rounds ok
    exact ⟨r, r.read_eq, same⟩
  refine ⟨fun root read ⟨site, reached, dangling⟩ => ?_, fun d ok => ?_⟩
  · cases ok : outcome.result with
    | error problem => exact ⟨problem, rfl⟩
    | ok d =>
      obtain ⟨r, same, rfl⟩ := resolved d ok
      cases (read?_of_frame r.framed).symm.trans read
      have counted : site.head.isOf ElementKind.isDrawn = true := dangling.isDrawn
      have drawn : site ∈ r.root.drawn [] := List.mem_filter.mpr ⟨reached, counted⟩
      obtain ⟨f, -, resolves⟩ := exists_of_forall₂ r.forall₂_resolves drawn
      rw [same] at dangling
      exact absurd dangling resolves.not_dangling
  · obtain ⟨r, same, rfl⟩ := resolved d ok
    rw [same]
    exact ⟨r.root, read?_of_frame r.framed, r.forall₂_resolves,
      fun id g => r.get?_definitions_eq_gradient_iff⟩

end

def passedText (fill : String) : List Char :=
  ["<svg fill=\"", fill, "\"><rect fill=", "\"inherit\"/>", "<linearGradient ", "id=\"a\"/></svg>"]
    |>.flatMap String.toList

def passedTree (fill : String) : Xml.Node :=
  .element ⟨⟨none, "svg"⟩, [⟨⟨none, "fill"⟩, fill⟩]⟩ [
    .element ⟨⟨none, "rect"⟩, [⟨⟨none, "fill"⟩, "inherit"⟩]⟩ [],
    .element ⟨⟨none, "linearGradient"⟩, [⟨⟨none, "id"⟩, "a"⟩]⟩ []]

/-- The shape has the gradient of the picture. Where that is not registered, nothing is read. -/
theorem references_resolved_passed :
    let read (fill : String) :=
      Document.read Workshop.embedder .initial .empty (passedText fill) {}
    (∃ problem, (read "url(#b)").result = .error problem) ∧
      ∃ d root, (read "url(#a)").result = .ok d ∧
        Xml.Node.read? (passedText "url(#a)") = some root ∧
        List.Forall₂ (read "url(#a)").registers.Resolves (root.drawn []) d.root.figures ∧
          (d.root.figures.map fun f => (f.fill.bind Paint.gradient?).isSome) = [true, true] := by
  intro read
  constructor
  · have text : Xml.Node.read? (passedText "url(#b)") = some (passedTree "url(#b)") := by
      unfold passedText passedTree
      cbv
    refine (Document.references_resolved _ _ _ _ _).1 (passedTree "url(#b)") text ?_
    refine ⟨_, List.mem_cons_self, "fill", .gradient, "b", by decide +kernel⟩
  · have passed : (read "url(#a)").result.toOption.map (fun d => d.root.figures.map fun f =>
        (f.fill.bind Paint.gradient?).isSome) = some [true, true] := by decide +kernel
    cases ok : (read "url(#a)").result with
    | error problem =>
      rw [ok] at passed
      cases passed
    | ok d =>
      rw [ok] at passed
      obtain ⟨root, tree, resolves, -⟩ := (Document.references_resolved _ _ _ _ _).2 d ok
      exact ⟨d, root, rfl, tree, resolves, Option.some.inj passed⟩

end SvgPage

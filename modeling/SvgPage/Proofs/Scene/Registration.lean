import Mathlib
import SvgPage.Proofs.Scene.Clashes
import SvgPage.Proofs.Scene.Gathering
import SvgPage.Proofs.Scene.Rounds

/-!
# Registration

The definitions of a document are its gradients, clip paths, masks and filters that have an id.
Their ids alone decide whether some of them clash, wherever they stand and in whatever order; and if
all of them are read, exactly they are registered, each with its kind.
-/

namespace SvgPage

open Xml

def ElementKind.defines? : ElementKind → Option DefinitionKind
  | linearGradient | radialGradient => some .gradient
  | clipPath => some .clipPath
  | mask => some .mask
  | filter => some .filter
  | _ => none

namespace Xml

def Element.kind? (e : Element) : Option DefinitionKind :=
  e.head.kind.toOption.bind ElementKind.defines?

def Element.defined? (e : Element) : Option (String × DefinitionKind) := do
  let id ← e.head.id?
  let kind ← e.kind?
  some (id, kind)

def Node.defined (n : Node) : List (String × DefinitionKind) :=
  n.elements.filterMap Element.defined?

/-- The ids that a tree defines, as often as it does. -/
def Node.definedIds (n : Node) : List String := n.defined.map Prod.fst

end Xml

theorem exists_of_forall₂ {α β : Type} {R : α → β → Prop} {xs : List α} {ys : List β}
    (h : List.Forall₂ R xs ys) {x : α} (member : x ∈ xs) : ∃ y ∈ ys, R x y := by
  obtain ⟨i, inside, rfl⟩ := List.getElem_of_mem member
  exact ⟨_, List.getElem_mem _, h.get inside (h.length_eq ▸ inside)⟩

/-- The reading of a definition of some kind: it may fail, but not because of its id. -/
structure Defines (kind : DefinitionKind) (r : Except Problem (Definition Float)) : Prop where
  clashless : Clashless r
  kind : ∀ d, r = .ok d → d.kind = kind

theorem Defines.map {β : Type} {kind : DefinitionKind} {x : Except Problem β}
    {f : β → Definition Float} (h : Clashless x) (same : ∀ b, (f b).kind = kind) :
    Defines kind (x.map f) := by
  refine ⟨h.map f, fun d read => ?_⟩
  cases x with
  | error problem => cases read
  | ok b =>
    cases read
    exact same b

namespace Context

variable (cx : Context) (e : Element)

theorem definition?_eq :
    match cx.definition? e with
    | none => e.kind? = none
    | some r => ∃ kind, e.kind? = some kind ∧ Defines kind r := by
  unfold definition? Element.kind?
  cases e.head.kind with
  | error problem => rfl
  | ok kind =>
    cases kind with
    | linearGradient | radialGradient =>
      exact ⟨.gradient, rfl, .map (cx.clashless_gradient ..) fun _ => rfl⟩
    | clipPath => exact ⟨.clipPath, rfl, .map (cx.clashless_clipPath e) fun _ => rfl⟩
    | mask => exact ⟨.mask, rfl, .map (cx.clashless_mask e) fun _ => rfl⟩
    | filter => exact ⟨.filter, rfl, .map (clashless_filter e) fun _ => rfl⟩
    | _ => rfl

theorem declared?_eq :
    match cx.declared? e with
    | none => e.defined? = none
    | some r => ∃ id kind, e.defined? = some (id, kind) ∧ Clashless r ∧
        ∀ x, r = .ok x → x.id = id ∧ x.definition.kind = kind := by
  have spec := cx.definition?_eq e
  unfold declared? Element.defined?
  cases e.head.id? with
  | none => rfl
  | some id =>
    cases found : cx.definition? e with
    | none =>
      rw [found] at spec
      simp only [spec]
      rfl
    | some r =>
      rw [found] at spec
      obtain ⟨kind, defined, defines⟩ := spec
      refine ⟨id, kind, by rw [defined]; rfl, defines.clashless.map _, fun x read => ?_⟩
      obtain ⟨d, definition, rfl⟩ := exists_of_map_eq_ok read
      exact ⟨rfl, defines.kind d definition⟩

end Context

namespace Gathering

variable {cx : Context}

theorem defined_of_allRead {es : List Element} {xs : List Declared}
    (read : AllRead (es.filterMap cx.declared?) xs) :
    es.filterMap Element.defined? = xs.map fun x => (x.id, x.definition.kind) := by
  induction es generalizing xs with
  | nil =>
    cases read
    rfl
  | cons e es ih =>
    have spec := cx.declared?_eq e
    cases found : cx.declared? e with
    | none =>
      rw [found] at spec
      rw [List.filterMap_cons_none found] at read
      rw [List.filterMap_cons_none spec, ih read]
    | some r =>
      rw [found] at spec
      obtain ⟨id, kind, defined, -, same⟩ := spec
      rw [List.filterMap_cons_some found] at read
      obtain @⟨⟩ | @⟨_, x, _, xs, rfl, read⟩ := read
      obtain ⟨rfl, rfl⟩ := same x rfl
      rw [List.filterMap_cons_some defined, ih read, List.map_cons]

section

variable {xs : List Declared} {tag id : String} {problem : Problem}

theorem ofGradient_eq_error {kind : ElementKind} {e : Element}
    (h : add.ofGradient cx (ofDeclared xs) e kind tag id = .error problem)
    (clash : problem.isClash = true) : problem = .duplicateDefinition tag id ∧ id ∈ ids xs := by
  unfold add.ofGradient at h
  simp only [isPending_or_contains] at h
  split at h
  · next old =>
    cases h
    exact ⟨rfl, old⟩
  · have read := (cx.clashless_gradient kind e).map fun gradient =>
      (⟨(ofDeclared xs).definitions, (ofDeclared xs).pending ++ [⟨tag, id, gradient⟩]⟩ : Gathering)
    rw [h] at read
    cases clash.symm.trans read

theorem insert_eq_error {β : Type} {r : Except Problem β} (read : Clashless r)
    {f : β → Definition Float} (h : (do (ofDeclared xs).insert tag id (f (← r))) = .error problem)
    (clash : problem.isClash = true) : problem = .duplicateDefinition tag id ∧ id ∈ ids xs := by
  cases r with
  | error first =>
    cases h
    cases clash.symm.trans read
  | ok b =>
    change (ofDeclared xs).insert tag id (f b) = .error problem at h
    rw [← isPending_or_contains]
    unfold insert Definitions.insert at h
    split at h
    · next pending =>
      cases h
      exact ⟨rfl, Bool.or_eq_true_iff.mpr (.inl pending)⟩
    · split at h
      · next contained =>
        cases h
        exact ⟨rfl, Bool.or_eq_true_iff.mpr (.inr contained)⟩
      · cases h

/-- An element clashes only if its id has been taken in before. -/
theorem add_eq_error {e : Element} (h : (ofDeclared xs).add cx e = .error problem)
    (clash : problem.isClash = true) : ∃ tag id kind,
      problem = .duplicateDefinition tag id ∧ id ∈ ids xs ∧ e.defined? = some (id, kind) := by
  have found (tag id : String) (kind : ElementKind) (known : e.head.kind = .ok kind)
      (named : e.head.id? = some id) {definition : DefinitionKind}
      (defines : kind.defines? = some definition)
      (old : problem = .duplicateDefinition tag id ∧ id ∈ ids xs) : ∃ tag id kind,
        problem = .duplicateDefinition tag id ∧ id ∈ ids xs ∧ e.defined? = some (id, kind) := by
    refine ⟨tag, id, definition, old.1, old.2, ?_⟩
    rw [Element.defined?, named, Element.kind?, known]
    simp only [Except.toOption, Option.bind_some, defines]
    rfl
  unfold add at h
  dsimp only at h
  split at h
  · next known named => exact found _ _ _ known named rfl (ofGradient_eq_error h clash)
  · next known named => exact found _ _ _ known named rfl (ofGradient_eq_error h clash)
  · next known named =>
    exact found _ _ _ known named rfl (insert_eq_error (cx.clashless_clipPath e) h clash)
  · next known named =>
    exact found _ _ _ known named rfl (insert_eq_error (cx.clashless_mask e) h clash)
  · next known named =>
    exact found _ _ _ known named rfl (insert_eq_error (Context.clashless_filter e) h clash)
  · cases h

/-- By induction on the elements that are still to come: those taken in have the ids of the ones
that came before. -/
theorem duplicate_of_addAll {es : List Element} {g : Gathering}
    (h : (ofDeclared xs).addAll cx es = (.error (.duplicateDefinition tag id), g)) :
    List.Duplicate id (ids xs ++ (es.filterMap Element.defined?).map Prod.fst) := by
  induction es generalizing xs with
  | nil => cases h
  | cons e es ih =>
    unfold addAll at h
    cases added : (ofDeclared xs).add cx e with
    | error problem =>
      rw [added] at h
      cases h
      obtain ⟨tag', id', kind, same, old, defined⟩ := add_eq_error added rfl
      cases same
      rw [List.filterMap_cons_some defined, List.map_cons, List.duplicate_iff_sublist]
      exact (List.singleton_sublist.mpr old).append
        (List.singleton_sublist.mpr List.mem_cons_self)
    | ok g' =>
      rw [added] at h
      have spec := cx.declared?_eq e
      rcases add_eq_ok_iff.mp added with ⟨none, rfl⟩ | ⟨x, found, -, rfl⟩
      · rw [none] at spec
        rw [List.filterMap_cons_none spec]
        exact ih h
      · rw [found] at spec
        obtain ⟨id', kind, defined, -, same⟩ := spec
        have clash := ih h
        rw [List.filterMap_cons_some defined, List.map_cons, ← (same x rfl).1]
        simpa [ids] using clash

end

theorem exists_ofDeclared (xs : List Declared) (es : List Element) :
    ∃ ys, ((ofDeclared xs).addAll cx es).2 = ofDeclared ys := by
  induction es generalizing xs with
  | nil => exact ⟨xs, rfl⟩
  | cons e es ih =>
    unfold addAll
    cases added : (ofDeclared xs).add cx e with
    | error problem => exact ⟨xs, rfl⟩
    | ok g =>
      rcases add_eq_ok_iff.mp added with ⟨-, rfl⟩ | ⟨x, -, -, rfl⟩
      · exact ih xs
      · exact ih (xs ++ [x])

/-- A gradient waits for the others, so it is never registered before them. -/
theorem gradient_notMem_definitions (xs : List Declared) (id : String) (g : Gradient Float) :
    (id, .gradient g) ∉ (ofDeclared xs).definitions.entries := by
  intro member
  obtain ⟨⟨tag, id, definition⟩, -, entry⟩ := List.mem_filterMap.mp member
  cases definition <;> cases entry

theorem nodup_keys_registry {xs : List Declared} (distinct : (ids xs).Nodup) :
    (Shelf.keys (ofDeclared xs).registry.entries).Nodup := by
  rw [keys_registry]
  exact (known_ofDeclared xs).nodup_iff.mpr distinct

theorem kind_registry {xs : List Declared} (distinct : (ids xs).Nodup) {x : Declared}
    (member : x ∈ xs) :
    ((ofDeclared xs).registry.get? x.id).map Definition.kind = some x.definition.kind := by
  have registered {d : Definition Float} (entry : (x.id, d) ∈ (ofDeclared xs).registry.entries) :
      ((ofDeclared xs).registry.get? x.id).map Definition.kind = some d.kind := by
    rw [show (ofDeclared xs).registry.get? x.id = some d from
      (Shelf.get?_eq_some_iff (nodup_keys_registry distinct)).mpr entry, Option.map_some]
  obtain ⟨tag, id, definition⟩ := x
  cases definition with
  | gradient g =>
    have waiting : ⟨tag, id, g⟩ ∈ (ofDeclared xs).pending :=
      List.mem_filterMap.mpr ⟨_, member, rfl⟩
    have entry : (ofDeclared xs).entry ⟨tag, id, g⟩ ∈ (ofDeclared xs).registry.entries :=
      List.mem_append_right _ (List.mem_map_of_mem waiting)
    have kind := registered entry
    exact kind
  | clipPath c | mask m | filter f =>
    exact registered (List.mem_append_left _ (List.mem_filterMap.mpr ⟨_, member, rfl⟩))

end Gathering

namespace Context

def fresh (cx : Context) : Context := { cx with definitions := .empty }

variable {cx : Context} {root : Xml.Node}

open Gathering in
/-- What has been taken in can always be registered, since every id has been looked at. -/
theorem settle_of_addAll {g : Gathering}
    (taken : Gathering.addAll cx ⟨.empty, []⟩ root.elements = (.ok (), g)) :
    ∃ xs, AllRead (cx.declared root) xs ∧ (ids xs).Nodup ∧ g = ofDeclared xs ∧
      g.settle = .ok g.registry := by
  have none : (ids []).Nodup := List.nodup_nil
  obtain ⟨xs, read, distinct, rfl⟩ := (addAll_eq_ok_iff none).mp taken
  exact ⟨xs, read, distinct, rfl, settle_eq ((known_ofDeclared xs).nodup_iff.mpr distinct)⟩

open Gathering in
/-- If the definitions of a tree are gathered, their ids are different, and exactly they are
registered, each with its kind. -/
theorem registered_of_gathered {ds : Definitions Float}
    (h : gatherDefinitions cx.fresh root = (.ok (), ds)) :
    root.definedIds.Nodup ∧ (Shelf.keys ds.entries).Perm root.definedIds ∧
      ∀ id kind, (id, kind) ∈ root.defined → (ds.get? id).map Definition.kind = some kind := by
  obtain ⟨xs, read, distinct, rfl⟩ := (gatherDefinitions_eq_ok_iff rfl).mp h
  have defined : root.defined = xs.map fun x => (x.id, x.definition.kind) :=
    defined_of_allRead read
  have same : root.definedIds = ids xs := by
    rw [Xml.Node.definedIds, defined, List.map_map]
    rfl
  refine ⟨same ▸ distinct, ?_, fun id kind member => ?_⟩
  · rw [same, keys_registry]
    exact known_ofDeclared xs
  · rw [defined] at member
    obtain ⟨x, read, entry⟩ := List.mem_map.mp member
    cases entry
    exact kind_registry distinct read

open Gathering in
/-- If not all definitions of a tree are gathered, this happens before any gradient is registered.
It is because of an id only if that is used twice. -/
theorem not_registered_of_failed {ds : Definitions Float} {problem : Problem}
    (h : gatherDefinitions cx.fresh root = (.error problem, ds)) :
    (∀ id g, ds.get? id ≠ some (.gradient g)) ∧
      ∀ tag id, problem = .duplicateDefinition tag id → List.Duplicate id root.definedIds := by
  have start : (⟨cx.fresh.definitions, []⟩ : Gathering) = ⟨.empty, []⟩ := rfl
  unfold gatherDefinitions at h
  rcases all : Gathering.addAll cx.fresh ⟨.empty, []⟩ root.elements with ⟨failed | ⟨⟩, g⟩
  · rw [start, all] at h
    cases h
    change (ofDeclared []).addAll cx.fresh root.elements = _ at all
    obtain ⟨ys, gathered⟩ := exists_ofDeclared [] root.elements
    rw [all] at gathered
    constructor
    · intro id gradient found
      rw [show g = ofDeclared ys from gathered] at found
      exact gradient_notMem_definitions ys id gradient (Shelf.mem_of_get? found)
    · rintro tag id rfl
      exact duplicate_of_addAll all
  · -- Everything has been taken in, and then nothing fails any more.
    obtain ⟨xs, -, -, -, settled⟩ := settle_of_addAll all
    rw [start, all] at h
    simp only [settled] at h
    cases h

end Context

section

variable {σ : Type} {e : Embedder σ} {o : Options Float} {fonts : FontTable} {text : List Char}
  {s : σ}

theorem Document.read?_of_frame {framed : Xml.Node × Option (Rect Float) × Option (Size Float)}
    (h : frame text = .ok framed) : Xml.Node.read? text = some framed.1 := by
  unfold frame at h
  obtain ⟨⟨head, root⟩, top, h⟩ := exists_of_bind_eq_ok h
  obtain ⟨viewBox, -, h⟩ := exists_of_bind_eq_ok h
  cases h
  unfold rootElement at top
  split at top
  · next read =>
    split at top <;> cases top
    exact read
  · cases top

/-- A clash ends the reading of a document only where two definitions share an id. -/
theorem Document.duplicate_of_read {tag id : String}
    (h : (read e o fonts text s).result = .error (.duplicateDefinition tag id)) :
    ∃ root, Xml.Node.read? text = some root ∧ List.Duplicate id root.definedIds := by
  unfold read at h
  split at h
  · next problem framed =>
    have clashless := clashless_frame text
    rw [framed] at clashless
    cases h
    cases clashless
  · next root viewBox size framed =>
    refine ⟨root, read?_of_frame framed, ?_⟩
    split at h
    · next problem d styled =>
      have clashless := (StyleBlock.clashless_applyAll e root.elements).run ⟨.empty, fonts, s⟩
      rw [styled] at clashless
      cases h
      cases clashless
    · next d styled =>
      dsimp only at h
      split at h
      · next problem ds gathered =>
        cases h
        change gatherDefinitions (Context.start o.strict viewBox size d).fresh root = _ at gathered
        exact (Context.not_registered_of_failed gathered).2 tag id rfl
      · next ds gathered =>
        have clashless := (clashless_scene e { Context.start o.strict viewBox size d with
          definitions := ds } o.fontSize root).run d.state
        unfold Context.start at clashless
        generalize scene e _ _ _ _ = drawn at h clashless
        obtain ⟨result, state⟩ := drawn
        cases result with
        | error problem =>
          cases h
          cases clashless
        | ok n => cases h

theorem Document.distinct_of_read {d : Document} (h : (read e o fonts text s).result = .ok d) :
    ∃ root, Xml.Node.read? text = some root ∧ root.definedIds.Nodup := by
  obtain ⟨r, -⟩ := exists_rounds h
  have gathered := r.gathered
  change gatherDefinitions (Context.start _ _ _ r.desk).fresh r.root = _ at gathered
  exact ⟨r.root, read?_of_frame r.framed, (Context.registered_of_gathered gathered).1⟩

end

/-- The definitions of a document are what is registered, all of it and nothing else, or else its
reading fails; and gradients are registered last, when nothing can fail any more. -/
theorem definitions_registered_exactly (root : Xml.Node) :
    (∀ cx : Context, match gatherDefinitions cx.fresh root with
      | (.ok _, ds) => root.definedIds.Nodup ∧ (Shelf.keys ds.entries).Perm root.definedIds ∧
        ∀ id kind, (id, kind) ∈ root.defined → (ds.get? id).map Definition.kind = some kind
      | (.error problem, ds) => (∀ id g, ds.get? id ≠ some (.gradient g)) ∧
        ∀ tag id, problem = .duplicateDefinition tag id → List.Duplicate id root.definedIds) ∧
    (∀ (cx : Context) (g : Gathering),
      Gathering.addAll cx ⟨.empty, []⟩ root.elements = (.ok (), g) → ∃ ds, g.settle = .ok ds) ∧
    ∀ {σ : Type} (e : Embedder σ) (o : Options Float) (fonts : FontTable) (text : List Char)
      (s : σ), Xml.Node.read? text = some root →
        (¬root.definedIds.Nodup →
          ∃ problem, (Document.read e o fonts text s).result = .error problem) ∧
        ∀ tag id, (Document.read e o fonts text s).result = .error (.duplicateDefinition tag id) →
          List.Duplicate id root.definedIds := by
  refine ⟨fun cx => ?_, fun cx g taken => ?_, fun e o fonts text s tree => ⟨fun shared => ?_, ?_⟩⟩
  · split
    · next ds gathered => exact Context.registered_of_gathered gathered
    · next problem ds failed => exact Context.not_registered_of_failed failed
  · obtain ⟨xs, -, -, -, settled⟩ := Context.settle_of_addAll taken
    exact ⟨_, settled⟩
  · cases read : (Document.read e o fonts text s).result with
    | error problem => exact ⟨problem, rfl⟩
    | ok d =>
      obtain ⟨root', tree', distinct⟩ := Document.distinct_of_read read
      cases tree.symm.trans tree'
      exact absurd distinct shared
  · intro tag id failed
    obtain ⟨root', tree', clash⟩ := Document.duplicate_of_read failed
    cases tree.symm.trans tree'
    exact clash

/-- A mask and a gradient with the same id, which is written in two ways. -/
def sharedText : List Char :=
  ["<svg><defs>", "<mask id=\"a\"/>", "</defs><g>", "<linearGradient ", "id=\" a \"/></g>",
    "</svg>"].flatMap String.toList

def sharedTree : Xml.Node :=
  .element ⟨⟨none, "svg"⟩, []⟩ [
    .element ⟨⟨none, "defs"⟩, []⟩ [.element ⟨⟨none, "mask"⟩, [⟨⟨none, "id"⟩, "a"⟩]⟩ []],
    .element ⟨⟨none, "g"⟩, []⟩
      [.element ⟨⟨none, "linearGradient"⟩, [⟨⟨none, "id"⟩, " a "⟩]⟩ []]]

/-- The gradient comes last and clashes with the mask. -/
theorem definitions_registered_exactly_shared :
    ∃ tag id, (Document.read Workshop.embedder .initial .empty sharedText {}).result =
      .error (.duplicateDefinition tag id) ∧ List.Duplicate id sharedTree.definedIds := by
  have tree : Xml.Node.read? sharedText = some sharedTree := by
    unfold sharedText sharedTree
    cbv
  have clash : (Document.read Workshop.embedder .initial .empty sharedText {}).result.map
      (fun _ => ()) = .error (.duplicateDefinition "linearGradient" "a") := by decide +kernel
  cases read : (Document.read Workshop.embedder .initial .empty sharedText {}).result with
  | ok d =>
    rw [read] at clash
    cases clash
  | error problem =>
    rw [read] at clash
    cases clash
    exact ⟨_, _, rfl, ((definitions_registered_exactly sharedTree).2.2 _ _ _ _ _ tree).2 _ _ read⟩

end SvgPage

import Mathlib.Data.List.Perm.Basic
import SvgPage.Proofs.Paint.Inheritance
import SvgPage.Scene.DefinitionElement

/-!
# The definitions of a document

Gathering succeeds exactly if every definition of the document can be read and no id is used twice.
The registry then holds these definitions, the gradients with the stops they take from each other.
The order of the definitions does not show in its look-ups.
-/

namespace SvgPage

open Xml

/-- A definition with its id and the tag of its element. -/
structure Declared where
  tag : String
  id : String
  definition : Definition Float

namespace Context

def definition? (cx : Context) (e : Element) : Option (Except Problem (Definition Float)) :=
  match e.head.kind with
  | .ok .linearGradient => some ((cx.gradient .linearGradient e).map .gradient)
  | .ok .radialGradient => some ((cx.gradient .radialGradient e).map .gradient)
  | .ok .clipPath => some ((cx.clipPath e).map .clipPath)
  | .ok .mask => some ((cx.mask e).map .mask)
  | .ok .filter => some ((filter e).map .filter)
  | _ => none

def declared? (cx : Context) (e : Element) : Option (Except Problem Declared) := do
  let id ← e.head.id?
  let definition ← cx.definition? e
  some (definition.map fun d => ⟨e.head.tag, id, d⟩)

/-- What a tree adds to the definitions of its document. -/
def declared (cx : Context) (n : Xml.Node) : List (Except Problem Declared) :=
  n.elements.filterMap cx.declared?

end Context

namespace Declared

def plain? (x : Declared) : Option (String × Definition Float) :=
  match x.definition with
  | .gradient _ => none
  | d => some (x.id, d)

def pending? (x : Declared) : Option PendingGradient :=
  match x.definition with
  | .gradient g => some ⟨x.tag, x.id, g⟩
  | _ => none

end Declared

namespace Gathering

/-- What has been gathered when some definitions have been taken in. -/
def ofDeclared (xs : List Declared) : Gathering :=
  ⟨⟨xs.filterMap Declared.plain?⟩, xs.filterMap Declared.pending?⟩

def ids (xs : List Declared) : List String := xs.map (·.id)

/-- The ids under which definitions are registered or gradients wait. -/
def known (g : Gathering) : List String := Shelf.keys g.definitions.entries ++ g.pending.map (·.id)

theorem known_ofDeclared (xs : List Declared) : (known (ofDeclared xs)).Perm (ids xs) := by
  induction xs with
  | nil => exact .refl _
  | cons x xs ih =>
    obtain ⟨tag, id, definition⟩ := x
    cases definition with
    | gradient g => exact List.perm_middle.trans (ih.cons id)
    | clipPath c | mask m | filter f => exact ih.cons id

theorem isPending_or_contains (xs : List Declared) (id : String) :
    ((ofDeclared xs).isPending id || (ofDeclared xs).definitions.contains id) = true ↔
      id ∈ ids xs := by
  rw [← (known_ofDeclared xs).mem_iff, known, List.mem_append, Bool.or_eq_true, or_comm]
  refine or_congr Shelf.isSome_get?_iff ?_
  simp [isPending]

theorem ofDeclared_gradient (xs : List Declared) (tag id : String) (g : Gradient Float) :
    ofDeclared (xs ++ [⟨tag, id, .gradient g⟩]) =
      ⟨(ofDeclared xs).definitions, (ofDeclared xs).pending ++ [⟨tag, id, g⟩]⟩ := by
  have plain : List.filterMap Declared.plain? [⟨tag, id, .gradient g⟩] = [] := rfl
  have pending : List.filterMap Declared.pending? [⟨tag, id, .gradient g⟩] = [⟨tag, id, g⟩] := rfl
  simp only [ofDeclared, List.filterMap_append, plain, pending, List.append_nil]

theorem ofDeclared_plain (xs : List Declared) (tag id : String) {d : Definition Float}
    (plain : d.kind ≠ .gradient) :
    ofDeclared (xs ++ [⟨tag, id, d⟩]) =
      ⟨⟨(ofDeclared xs).definitions.entries ++ [(id, d)]⟩, (ofDeclared xs).pending⟩ := by
  cases d with
  | gradient => exact absurd rfl plain
  | clipPath c | mask m | filter f => simp [ofDeclared, Declared.plain?, Declared.pending?]

section

variable {xs : List Declared} {tag id : String} {g : Gathering}

theorem ofGradient_eq_ok_iff {cx : Context} {e : Element} {kind : ElementKind} :
    add.ofGradient cx (ofDeclared xs) e kind tag id = .ok g ↔ id ∉ ids xs ∧
      ∃ gradient, cx.gradient kind e = .ok gradient ∧
        g = ofDeclared (xs ++ [⟨tag, id, .gradient gradient⟩]) := by
  unfold add.ofGradient
  simp only [isPending_or_contains, ofDeclared_gradient]
  split
  · next old => simp [old]
  · next new => cases cx.gradient kind e <;> simp [Except.map, new, eq_comm]

theorem insert_eq_ok_iff {β : Type} {r : Except Problem β} {f : β → Definition Float}
    (plain : ∀ b, (f b).kind ≠ .gradient) :
    (do (ofDeclared xs).insert tag id (f (← r))) = .ok g ↔ id ∉ ids xs ∧
      ∃ b, r = .ok b ∧ g = ofDeclared (xs ++ [⟨tag, id, f b⟩]) := by
  cases r with
  | error problem => simp [bind, Except.bind]
  | ok b =>
    have new := isPending_or_contains xs id
    change (ofDeclared xs).insert tag id (f b) = .ok g ↔ _
    rw [← new, insert, Definitions.insert]
    cases (ofDeclared xs).isPending id <;> cases (ofDeclared xs).definitions.contains id <;>
      simp [Except.map, ofDeclared_plain xs tag id (plain b), eq_comm]

theorem add_eq_ok_iff {cx : Context} {e : Element} :
    (ofDeclared xs).add cx e = .ok g ↔ cx.declared? e = none ∧ g = ofDeclared xs ∨
      ∃ x, cx.declared? e = some (.ok x) ∧ x.id ∉ ids xs ∧ g = ofDeclared (xs ++ [x]) := by
  unfold add Context.declared? Context.definition?
  dsimp only
  split
  · next kind named =>
    rw [ofGradient_eq_ok_iff, kind, named]
    cases cx.gradient .linearGradient e <;> simp [Except.map]
  · next kind named =>
    rw [ofGradient_eq_ok_iff, kind, named]
    cases cx.gradient .radialGradient e <;> simp [Except.map]
  · next kind named =>
    rw [insert_eq_ok_iff (f := .clipPath) fun _ => nofun, kind, named]
    cases cx.clipPath e <;> simp [Except.map]
  · next kind named =>
    rw [insert_eq_ok_iff (f := .mask) fun _ => nofun, kind, named]
    cases cx.mask e <;> simp [Except.map]
  · next kind named =>
    rw [insert_eq_ok_iff (f := .filter) fun _ => nofun, kind, named]
    cases Context.filter e <;> simp [Except.map]
  · cases named : e.head.id? with
    | none => simp [eq_comm]
    | some id => split <;> simp_all [eq_comm]

abbrev AllRead (rs : List (Except Problem Declared)) (xs : List Declared) : Prop :=
  List.Forall₂ (fun r x => r = .ok x) rs xs

theorem addAll_eq_ok_iff {cx : Context} {es : List Element} (distinct : (ids xs).Nodup) :
    (ofDeclared xs).addAll cx es = (.ok (), g) ↔ ∃ ys, AllRead (es.filterMap cx.declared?) ys ∧
      (ids (xs ++ ys)).Nodup ∧ g = ofDeclared (xs ++ ys) := by
  induction es generalizing xs with
  | nil => simp [addAll, distinct, eq_comm]
  | cons e es ih =>
    unfold addAll
    cases added : (ofDeclared xs).add cx e with
    | error problem =>
      -- Read under a new id, the element would have been taken in.
      have failed : ∀ g, (ofDeclared xs).add cx e ≠ .ok g := by simp [added]
      refine iff_of_false nofun ?_
      rintro ⟨ys, read, distinct, -⟩
      cases found : cx.declared? e with
      | none => exact failed _ (add_eq_ok_iff.mpr (.inl ⟨found, rfl⟩))
      | some r =>
        rw [List.filterMap_cons, found] at read
        obtain @⟨⟩ | @⟨_, x, _, ys, rfl, read⟩ := read
        have new : x.id ∉ ids xs := by
          simp only [ids, List.map_append, List.map_cons, List.nodup_middle] at distinct
          exact fun old => (List.nodup_cons.mp distinct).1 (List.mem_append_left _ old)
        exact failed _ (add_eq_ok_iff.mpr (.inr ⟨x, found, new, rfl⟩))
    | ok g' =>
      rcases add_eq_ok_iff.mp added with ⟨none, rfl⟩ | ⟨x, found, new, rfl⟩
      · simp only [List.filterMap_cons, none]
        exact ih distinct
      · have longer : (ids (xs ++ [x])).Nodup := by
          simp only [ids, List.map_append, List.map_cons, List.map_nil]
          exact List.nodup_append_comm.mpr (List.nodup_cons.mpr ⟨new, distinct⟩)
        simp only [List.filterMap_cons, found]
        refine (ih longer).trans ⟨?_, ?_⟩
        · rintro ⟨ys, read, distinct, rfl⟩
          rw [List.append_assoc] at distinct ⊢
          exact ⟨x :: ys, .cons rfl read, distinct, rfl⟩
        · rintro ⟨_, @⟨⟩ | @⟨_, y, _, ys, same, read⟩, distinct, rfl⟩
          cases same
          rw [List.append_cons xs x ys] at distinct ⊢
          exact ⟨ys, read, distinct, rfl⟩

end

/-- The waiting gradients by id, as they were read. -/
def chains (g : Gathering) : GradientMap Float := g.pending.map fun p => (p.id, p.gradient)

/-- A waiting gradient as it is registered. -/
def entry (g : Gathering) (p : PendingGradient) : String × Definition Float :=
  (p.id, .gradient ((g.chains.settled? p.id).getD p.gradient))

def registry (g : Gathering) : Definitions Float :=
  ⟨g.definitions.entries ++ g.pending.map g.entry⟩

theorem get?_gradients {g : Gathering} {p : PendingGradient} (member : p ∈ g.pending) :
    g.gradients.get? p.id = some ((g.chains.settled? p.id).getD p.gradient) := by
  have ordered : p.id ∈ g.pending.map (·.id) := List.mem_map_of_mem member
  have visited := GradientMap.get?_inheritStops g.chains (g.pending.map (·.id)) p.id
  rw [if_pos ordered] at visited
  have there : (g.chains.get? p.id).isSome :=
    Shelf.isSome_get?_iff.mpr (List.mem_map.mpr ⟨_, List.mem_map_of_mem member, rfl⟩)
  have settled : (g.chains.settled? p.id).isSome := by
    rwa [GradientMap.settled?, Option.isSome_map]
  obtain ⟨own, found⟩ := Option.isSome_iff_exists.mp settled
  rw [found] at visited ⊢
  exact visited

/-- By induction on the gradients that still wait: none of them has an id that is registered. -/
theorem foldlM_insert (g : Gathering) {ps : List PendingGradient} (waiting : ps ⊆ g.pending)
    {ds : Definitions Float} (distinct : (Shelf.keys ds.entries ++ ps.map (·.id)).Nodup) :
    ps.foldlM (fun ds p => match g.gradients.get? p.id with
      | some gradient => ds.insert p.tag p.id (.gradient gradient)
      | none => .ok ds) ds = .ok ⟨ds.entries ++ ps.map g.entry⟩ := by
  induction ps generalizing ds with
  | nil => simp [pure, Except.pure]
  | cons p ps ih =>
    obtain ⟨member, waiting⟩ := List.cons_subset.mp waiting
    have new : ds.contains p.id = false := by
      rw [Bool.eq_false_iff]
      intro old
      rw [List.map_cons, List.nodup_middle] at distinct
      exact (List.nodup_cons.mp distinct).1
        (List.mem_append_left _ (Shelf.isSome_get?_iff.mp old))
    have inserted : ∀ d, ds.insert p.tag p.id d = .ok ⟨ds.entries ++ [(p.id, d)]⟩ := by
      simp [Definitions.insert, new]
    rw [List.foldlM_cons, get?_gradients member]
    change Except.bind (ds.insert _ _ _) _ = _
    rw [inserted]
    refine (ih waiting ?_).trans ?_
    · simpa [Shelf.keys] using distinct
    · simp [entry]

theorem settle_eq {g : Gathering} (distinct : g.known.Nodup) : g.settle = .ok g.registry :=
  foldlM_insert g (fun _ h => h) distinct

theorem keys_registry (g : Gathering) : Shelf.keys g.registry.entries = g.known := by
  simp [registry, known, Shelf.keys, entry]

/-- What a gradient takes from its chain does not depend on the order, so neither does an entry. -/
theorem registry_perm {xs xs' : List Declared} (perm : xs'.Perm xs) (distinct : (ids xs).Nodup) :
    (ofDeclared xs').registry.entries.Perm (ofDeclared xs).registry.entries := by
  have pending := perm.filterMap Declared.pending?
  have chains : (ofDeclared xs').chains.Perm (ofDeclared xs).chains := pending.map _
  have keys : (Shelf.keys (ofDeclared xs).chains).Nodup := by
    have known : (ofDeclared xs).known.Nodup := (known_ofDeclared xs).nodup_iff.mpr distinct
    rw [Shelf.keys, Gathering.chains, List.map_map]
    exact (List.nodup_append.mp known).2.1
  have entry : (ofDeclared xs').entry = (ofDeclared xs).entry := by
    funext p
    unfold Gathering.entry
    rw [GradientMap.settled?_congr (Shelf.get?_eq_of_perm chains keys)]
  unfold registry
  rw [entry]
  exact (perm.filterMap Declared.plain?).append (pending.map _)

end Gathering

section

open Gathering

variable {cx : Context} {root root' : Xml.Node} {ds : Definitions Float}

/-- Definitions are gathered exactly if all of them are read and their ids are different. -/
theorem gatherDefinitions_eq_ok_iff (fresh : cx.definitions = .empty) :
    gatherDefinitions cx root = (.ok (), ds) ↔ ∃ xs, AllRead (cx.declared root) xs ∧
      (ids xs).Nodup ∧ ds = (ofDeclared xs).registry := by
  have start : (⟨cx.definitions, []⟩ : Gathering) = ofDeclared [] := by rw [fresh]; rfl
  have taken (g : Gathering) : (ofDeclared []).addAll cx root.elements = (.ok (), g) ↔
      ∃ xs, AllRead (cx.declared root) xs ∧ (ids xs).Nodup ∧ g = ofDeclared xs :=
    addAll_eq_ok_iff List.nodup_nil
  have settled {xs : List Declared} (distinct : (ids xs).Nodup) :=
    settle_eq ((known_ofDeclared xs).nodup_iff.mpr distinct)
  unfold gatherDefinitions
  rw [start]
  constructor
  · rcases all : (ofDeclared []).addAll cx root.elements with ⟨_ | ⟨⟩, g⟩
    · nofun
    · obtain ⟨xs, read, distinct, rfl⟩ := (taken g).mp all
      simp only [settled distinct]
      rintro ⟨⟩
      exact ⟨xs, read, distinct, rfl⟩
  · rintro ⟨xs, read, distinct, rfl⟩
    simp only [(taken (ofDeclared xs)).mpr ⟨xs, read, distinct, rfl⟩, settled distinct]

/-- The order in which definitions stand makes no difference. -/
theorem gatherDefinitions_of_perm (fresh : cx.definitions = .empty)
    (perm : (cx.declared root').Perm (cx.declared root))
    (h : gatherDefinitions cx root = (.ok (), ds)) :
    ∃ ds', gatherDefinitions cx root' = (.ok (), ds') ∧ ds'.entries.Perm ds.entries ∧
      ∀ id, ds'.get? id = ds.get? id := by
  obtain ⟨xs, read, distinct, rfl⟩ := (gatherDefinitions_eq_ok_iff fresh).mp h
  obtain ⟨xs', read', perm'⟩ := List.perm_comp_forall₂ perm read
  have entries := registry_perm perm' distinct
  refine ⟨_, (gatherDefinitions_eq_ok_iff fresh).mpr ⟨xs', read', ?_, rfl⟩, entries, ?_⟩
  · exact (perm'.map Declared.id).nodup_iff.mpr distinct
  · refine Shelf.get?_eq_of_perm entries ?_
    rw [keys_registry]
    exact (known_ofDeclared xs).nodup_iff.mpr distinct

end

end SvgPage

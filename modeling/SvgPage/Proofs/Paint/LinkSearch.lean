import SvgPage.Proofs.Paint.Inheritance

/-!
# Searches along links

The search for stops goes on for as long as it comes to gradients that it has not seen, so it needs
no bound: there are only so many. One visit after another then leaves each gradient with the stops
of the first one on its own chain that had any, whatever the order of the visits.
-/

namespace SvgPage.GradientMap

variable {α : Type} {gs : GradientMap α}

/-- A search along links, given the ids that it has come to. -/
inductive Search (gs : GradientMap α) : List String → Option String → Option (List (Stop α)) → Prop
  | unlinked {seen} : Search gs seen none none
  | again {seen id} : id ∈ seen → Search gs seen (some id) none
  | unknown {seen id} : id ∉ seen → gs.get? id = none → Search gs seen (some id) none
  | found {seen id g} : id ∉ seen → gs.get? id = some g → g.stops ≠ [] →
      Search gs seen (some id) (some g.stops)
  | onward {seen id g result} : id ∉ seen → gs.get? id = some g → g.stops = [] →
      Search gs (id :: seen) g.link result → Search gs seen (some id) result

theorem Search.unique {seen : List String} {link : Option String}
    {result result' : Option (List (Stop α))} (h : gs.Search seen link result)
    (h' : gs.Search seen link result') : result = result' := by
  induction h with
  | unlinked => cases h'; rfl
  | again old =>
    cases h' with
    | again | unknown => rfl
    | found new | onward new => exact absurd old new
  | unknown new missing =>
    cases h' with
    | again | unknown => rfl
    | found _ found | onward _ found => cases missing.symm.trans found
  | found new found some =>
    cases h' with
    | again old => exact absurd old new
    | unknown _ missing => cases missing.symm.trans found
    | found _ found' => rw [Option.some.inj (found.symm.trans found')]
    | onward _ found' none => exact absurd none (Option.some.inj (found.symm.trans found') ▸ some)
  | onward new found none _ ih =>
    cases h' with
    | again old => exact absurd old new
    | unknown _ missing => cases missing.symm.trans found
    | found _ found' some => exact absurd none (Option.some.inj (found'.symm.trans found) ▸ some)
    | onward _ found' _ rest =>
      cases found.symm.trans found'
      exact ih rest

/-- The ids that a search can still come to. -/
def unseen (gs : GradientMap α) (seen : List String) : List String :=
  (Shelf.keys gs).filter (· ∉ seen)

theorem length_unseen_cons_lt {id : String} {seen : List String} (known : id ∈ Shelf.keys gs)
    (new : id ∉ seen) : (gs.unseen (id :: seen)).length < (gs.unseen seen).length := by
  have further : gs.unseen (id :: seen) = (gs.unseen seen).filter (· ≠ id) := by
    simp [unseen, List.filter_filter]
  rw [further, List.length_filter_lt_length_iff_exists]
  exact ⟨id, by simp [unseen, known, new], by simp⟩

/-- The bound is never reached: each step comes to another id. -/
theorem search_stopsAlong {fuel : Nat} {seen : List String} (link : Option String)
    (enough : (gs.unseen seen).length < fuel) :
    gs.Search seen link (gs.stopsAlong fuel seen link) := by
  induction fuel generalizing seen link with
  | zero => cases enough
  | succ fuel ih =>
    cases link with
    | none => exact .unlinked
    | some id =>
      unfold stopsAlong
      by_cases old : id ∈ seen
      · simpa [old] using .again old
      cases found : gs.get? id with
      | none => simpa [old] using .unknown old found
      | some g =>
        by_cases none : g.stops = []
        · have known : id ∈ Shelf.keys gs := List.mem_map_of_mem (Shelf.mem_of_get? found)
          have fewer := length_unseen_cons_lt known old
          have rest := ih g.link (fewer.trans_le (Nat.le_of_lt_succ enough))
          simpa [old, none] using .onward old found none rest
        · simpa [old, none] using .found old found none

/-- One gradient takes the stops that a search finds for it, if it has none. -/
inductive Takes (gs : GradientMap α) (id : String) : GradientMap α → Prop
  | nothing : (∀ g, gs.get? id = some g → g.stops ≠ []) → Takes gs id gs
  | unfound {g} : gs.get? id = some g → g.stops = [] → gs.Search [id] g.link none → Takes gs id gs
  | stops {g stops} : gs.get? id = some g → g.stops = [] → gs.Search [id] g.link (some stops) →
      Takes gs id (gs.setStops id stops)

theorem Takes.unique {id : String} {result result' : GradientMap α} (h : gs.Takes id result)
    (h' : gs.Takes id result') : result = result' := by
  cases h with
  | nothing some =>
    cases h' with
    | nothing | unfound => rfl
    | stops found none => exact absurd none (some _ found)
  | unfound found none search =>
    cases h' with
    | nothing | unfound => rfl
    | stops found' _ search' =>
      cases found.symm.trans found'
      cases search.unique search'
  | stops found none search =>
    cases h' with
    | nothing some => exact absurd none (some _ found)
    | unfound found' _ search' =>
      cases found.symm.trans found'
      cases search.unique search'
    | stops found' _ search' =>
      cases found.symm.trans found'
      cases search.unique search'
      rfl

theorem takes_visit (gs : GradientMap α) (id : String) : gs.Takes id (gs.visit id) := by
  unfold visit inherited?
  cases found : gs.get? id with
  | none => exact .nothing (by simp [found])
  | some g =>
    by_cases none : g.stops = []
    · have fewer : (gs.unseen [id]).length < gs.length + 1 := by
        have le := List.length_filter_le (fun i => decide (i ∉ [id])) (Shelf.keys gs)
        rw [Shelf.keys, List.length_map] at le
        exact Nat.lt_succ_of_le le
      have search := search_stopsAlong g.link fewer
      simp only [none, List.isEmpty_nil, if_true]
      cases result : gs.stopsAlong (gs.length + 1) [id] g.link with
      | none => exact .unfound found none (result ▸ search)
      | some stops => exact .stops found none (result ▸ search)
    · simp only [List.isEmpty_iff, none, if_false]
      exact .nothing fun g' found' => Option.some.inj (found.symm.trans found') ▸ none

/-- One gradient after another takes its stops. -/
inductive Visits : GradientMap α → List String → GradientMap α → Prop
  | nil {gs : GradientMap α} : Visits gs [] gs
  | cons {gs next result : GradientMap α} {id order} : Takes gs id next →
      Visits next order result → Visits gs (id :: order) result

/-- The visits come to an end, and there is one outcome only. -/
theorem visits_iff {order : List String} {result : GradientMap α} :
    gs.Visits order result ↔ result = gs.inheritStops order := by
  constructor
  · intro h
    induction h with
    | nil => rfl
    | cons first _ ih => rw [ih, first.unique (takes_visit _ _)]; rfl
  · rintro rfl
    induction order generalizing gs with
    | nil => exact .nil
    | cons id order ih => exact .cons (takes_visit gs id) ih

theorem keys_inheritStops (gs : GradientMap α) (order : List String) :
    Shelf.keys (gs.inheritStops order) = Shelf.keys gs := by
  have visited (gs : GradientMap α) (id : String) : Shelf.keys (gs.visit id) = Shelf.keys gs := by
    unfold visit
    split
    · simp only [setStops, Shelf.keys, List.map_map]
      refine List.map_congr_left fun entry _ => ?_
      simp only [Function.comp_apply]
      split <;> rfl
    · rfl
  induction order generalizing gs with
  | nil => rfl
  | cons id order ih => exact (ih (gs.visit id)).trans (visited gs id)

theorem Way.leads {path : List String} {id : String} {donor : Gradient α}
    (way : gs.Way id path donor) : ∃ n, gs.Leads n id donor.stops := by
  obtain ⟨start, linked, -, ⟨last, atEnd, arrives⟩, some⟩ := way
  induction path generalizing id with
  | nil => cases start
  | cons i path ih =>
    obtain rfl : i = id := Option.some.inj start
    cases path with
    | nil =>
      obtain rfl : i = last := Option.some.inj atEnd
      exact ⟨0, .here arrives some⟩
    | cons j path =>
      obtain ⟨⟨g, found, none, link⟩, linked⟩ := List.isChain_cons_cons.mp linked
      obtain ⟨n, rest⟩ := ih rfl linked atEnd
      exact ⟨n + 1, .step found none link rest⟩

/-- However the gradients are visited, the visits come to an end, and each gradient without stops
has those of the first gradient with any on its chain of links, if there is one. Nothing else is
changed. -/
theorem inheritStops_along_ways {order : List String} (distinct : (Shelf.keys gs).Nodup)
    (all : order.Perm (Shelf.keys gs)) :
    (∀ result, gs.Visits order result ↔ result = gs.inheritStops order) ∧
      Shelf.keys (gs.inheritStops order) = Shelf.keys gs ∧
      (∀ id g, gs.get? id = some g →
        (g.stops ≠ [] → (gs.inheritStops order).get? id = some g) ∧
        (g.stops = [] →
          (∀ path donor, gs.Way id path donor →
            (gs.inheritStops order).get? id = some { g with stops := donor.stops }) ∧
          ((¬∃ path donor, gs.Way id path donor) →
            (gs.inheritStops order).get? id = some g))) ∧
      ∀ order', order'.Perm (Shelf.keys gs) → gs.inheritStops order' = gs.inheritStops order := by
  have settled {order : List String} (all : order.Perm (Shelf.keys gs)) (id : String) :
      (gs.inheritStops order).get? id = gs.settled? id := by
    rw [get?_inheritStops]
    split
    · rfl
    · next missing =>
      rw [all.mem_iff, ← Shelf.isSome_get?_iff, Option.not_isSome_iff_eq_none] at missing
      have missing : gs.get? id = none := missing
      rw [missing, settled?, missing, Option.map_none]
  refine ⟨fun _ => visits_iff, keys_inheritStops gs order, fun id g found => ⟨fun some => ?_,
    fun none => ⟨fun path donor way => ?_, fun lost => ?_⟩⟩, fun order' all' => ?_⟩
  · rw [settled all, settled?_of_ne_nil found some]
  · obtain ⟨n, leads⟩ := way.leads
    rw [settled all, settled?_of_leads found leads]
  · rw [settled all, settled?_of_not_leads found]
    intro n stops leads
    obtain ⟨path, donor, way, -⟩ := leads.exists_way
    exact lost ⟨path, donor, way⟩
  · refine Shelf.ext_get? ?_ ?_ fun id => (settled all' id).trans (settled all id).symm
    · rwa [keys_inheritStops]
    · rw [keys_inheritStops, keys_inheritStops]

def plain (stops : Bool) (link : Option String) : Gradient Nat :=
  ⟨.linear ⟨0, true⟩ ⟨0, true⟩ ⟨1, true⟩ ⟨0, true⟩, .boundingBox, [], .pad,
    if stops then [⟨0, ⟨0, 0, 0⟩, 1⟩] else [], link⟩

/-- A chain over two links, and two gradients that are linked in a ring. -/
def linked : GradientMap Nat :=
  [("top", plain false (some "middle")), ("ring", plain false (some "knot")),
    ("middle", plain false (some "base")), ("knot", plain false (some "ring")),
    ("base", plain true (some "top"))]

theorem inheritStops_along_ways_linked :
    (Shelf.keys linked).Nodup ∧
      (∀ order ∈ [["top", "middle", "base", "ring", "knot"],
        ["knot", "base", "middle", "ring", "top"]], order.Perm (Shelf.keys linked)) ∧
      linked.Visits ["top", "middle", "base", "ring", "knot"]
        (linked.inheritStops ["knot", "base", "middle", "ring", "top"]) ∧
      (linked.inheritStops ["knot", "base", "middle", "ring", "top"]).get? "top" =
        some (plain true (some "middle")) := by
  have distinct : (Shelf.keys linked).Nodup := by decide
  have orders : ∀ order ∈ [["top", "middle", "base", "ring", "knot"],
      ["knot", "base", "middle", "ring", "top"]], order.Perm (Shelf.keys linked) := by decide
  have forth := orders _ (.head _)
  have back := orders _ (.tail _ (.head _))
  obtain ⟨runs, -, -, same⟩ := inheritStops_along_ways distinct forth
  obtain ⟨-, -, outcome, -⟩ := inheritStops_along_ways distinct back
  have way : linked.Way "top" ["top", "middle", "base"] (plain true (some "top")) := by
    refine ⟨rfl, ?_, by decide, ⟨"base", rfl, rfl⟩, by decide⟩
    refine .cons_cons ⟨_, rfl, rfl, rfl⟩ (.cons_cons ⟨_, rfl, rfl, rfl⟩ (.singleton _))
  refine ⟨distinct, orders, (runs _).mpr (same _ back), ?_⟩
  exact ((outcome "top" _ rfl).2 rfl).1 _ _ way

end SvgPage.GradientMap

import Mathlib.Data.List.Chain
import Mathlib.Data.List.Perm.Subperm
import SvgPage.Paint.Gradient
import SvgPage.Proofs.Shelf

/-!
# Inherited stops

A gradient without stops takes those of the first gradient on its chain of links that has any. The
gradients take their stops one after another, yet what each of them gets does not depend on the
order: a gradient that has taken its stops leads where it led before, only sooner.
-/

namespace SvgPage.GradientMap

variable {α : Type} {gs gs' : GradientMap α}

/-- The chain of links leads, in some number of steps, to the first stops on it. -/
inductive Leads (gs : GradientMap α) : Nat → String → List (Stop α) → Prop
  | here {id g} : gs.get? id = some g → g.stops ≠ [] → Leads gs 0 id g.stops
  | step {n id g next stops} : gs.get? id = some g → g.stops = [] → g.link = some next →
      Leads gs n next stops → Leads gs (n + 1) id stops

/-- A chain of links on which no id comes twice, from a gradient to the first one with stops. -/
structure Way (gs : GradientMap α) (id : String) (path : List String) (donor : Gradient α) :
    Prop where
  start : path.head? = some id
  linked : path.IsChain fun i j => ∃ g, gs.get? i = some g ∧ g.stops = [] ∧ g.link = some j
  distinct : path.Nodup
  arrives : ∃ last, path.getLast? = some last ∧ gs.get? last = some donor
  some : donor.stops ≠ []

namespace Leads

variable {n m : Nat} {id : String} {stops stops' : List (Stop α)}

theorem ne_nil (h : gs.Leads n id stops) : stops ≠ [] := by
  induction h with
  | here _ some => exact some
  | step _ _ _ _ ih => exact ih

theorem unique (h : gs.Leads n id stops) (h' : gs.Leads m id stops') : n = m ∧ stops = stops' := by
  induction h generalizing m with
  | here found some =>
    cases h' with
    | here found' => simp [Option.some.inj (found.symm.trans found')]
    | step found' none => exact absurd none (Option.some.inj (found.symm.trans found') ▸ some)
  | step found none link _ ih =>
    cases h' with
    | here found' some => exact absurd none (Option.some.inj (found'.symm.trans found) ▸ some)
    | step found' _ link' rest =>
      cases found.symm.trans found'
      cases link.symm.trans link'
      exact (ih rest).imp (congrArg (· + 1)) fun same => same

/-- The ids on the way are different, since each is another number of steps away. -/
theorem exists_way (h : gs.Leads n id stops) : ∃ path donor,
    gs.Way id path donor ∧ donor.stops = stops ∧ path.length = n + 1 ∧
      ∀ i ∈ path, ∃ k ≤ n, gs.Leads k i stops := by
  induction h with
  | @here id g found some =>
    refine ⟨[id], g, ⟨rfl, .singleton id, List.nodup_singleton id, ⟨id, rfl, found⟩, some⟩, rfl, rfl,
      ?_⟩
    simpa using .here found some
  | @step n id g next stops found none link rest ih =>
    obtain ⟨path, donor, way, same, length, steps⟩ := ih
    have this : gs.Leads (n + 1) id stops := .step found none link rest
    have new : id ∉ path := by
      intro old
      obtain ⟨k, le, sooner⟩ := steps id old
      have := (this.unique sooner).1
      omega
    obtain ⟨last, atEnd, arrives⟩ := way.arrives
    refine ⟨id :: path, donor, ⟨rfl, ?_, List.nodup_cons.mpr ⟨new, way.distinct⟩,
      ⟨last, ?_, arrives⟩, way.some⟩, same, by rw [List.length_cons, length], ?_⟩
    · refine List.isChain_cons.mpr ⟨fun j first => ?_, way.linked⟩
      obtain rfl : next = j := Option.some.inj (way.start.symm.trans first)
      exact ⟨g, found, none, link⟩
    · rw [List.getLast?_cons, atEnd, Option.getD_some]
    · refine List.forall_mem_cons.mpr ⟨⟨n + 1, Nat.le_refl _, this⟩, fun i old => ?_⟩
      exact (steps i old).imp fun k h => ⟨by omega, h.2⟩

theorem mem_keys (h : gs.Leads n id stops) : id ∈ Shelf.keys gs := by
  cases h with
  | here found | step found => exact List.mem_map_of_mem (Shelf.mem_of_get? found)

theorem lt_length (h : gs.Leads n id stops) : n < gs.length := by
  obtain ⟨path, donor, way, -, length, steps⟩ := h.exists_way
  have known : path ⊆ Shelf.keys gs := fun i member => (steps i member).choose_spec.2.mem_keys
  have le := (way.distinct.subperm known).length_le
  rw [Shelf.keys, List.length_map] at le
  omega

theorem congr (same : ∀ id, gs'.get? id = gs.get? id) (h : gs.Leads n id stops) :
    gs'.Leads n id stops := by
  induction h with
  | here found some => exact .here ((same _).trans found) some
  | step found none link _ ih => exact .step ((same _).trans found) none link ih

end Leads

theorem leads_of_stopsAlong {fuel : Nat} {seen : List String} {link : Option String}
    {stops : List (Stop α)} (h : gs.stopsAlong fuel seen link = some stops) :
    ∃ next n, link = some next ∧ gs.Leads n next stops := by
  induction fuel generalizing seen link with
  | zero => cases h
  | succ fuel ih =>
    cases link with
    | none => cases h
    | some id =>
      unfold stopsAlong at h
      split at h
      · cases h
      cases found : gs.get? id with
      | none => simp [found] at h
      | some g =>
        simp only [found] at h
        split at h
        · next none =>
          obtain ⟨next, n, link, rest⟩ := ih h
          exact ⟨id, n + 1, rfl, .step found (List.isEmpty_iff.mp none) link rest⟩
        · next some =>
          cases h
          exact ⟨id, 0, rfl, .here found (some ∘ List.isEmpty_iff.mpr)⟩

/-- All of these lie further away than a number of steps. -/
def Behind (gs : GradientMap α) (n : Nat) (seen : List String) (stops : List (Stop α)) : Prop :=
  ∀ id ∈ seen, ∃ k > n, gs.Leads k id stops

theorem Behind.contains_eq_false {n : Nat} {seen : List String} {stops : List (Stop α)}
    (behind : gs.Behind n seen stops) {id : String} (h : gs.Leads n id stops) :
    seen.contains id = false := by
  rw [Bool.eq_false_iff, ne_eq, List.contains_iff_mem]
  intro old
  obtain ⟨k, further, h'⟩ := behind id old
  exact absurd (h.unique h').1 (Nat.ne_of_lt further)

/-- What has been seen lies behind, so the search never meets it again. -/
theorem stopsAlong_of_leads {n : Nat} {id : String} {stops : List (Stop α)}
    (h : gs.Leads n id stops) {fuel : Nat} {seen : List String} (enough : n < fuel)
    (behind : gs.Behind n seen stops) : gs.stopsAlong fuel seen (some id) = some stops := by
  induction h generalizing fuel seen with
  | here found some =>
    cases fuel with
    | zero => cases enough
    | succ fuel =>
      have new := behind.contains_eq_false (.here found some)
      simp only [stopsAlong, new, found, List.isEmpty_iff, some]
      rfl
  | @step n id g next stops found none link rest ih =>
    cases fuel with
    | zero => cases enough
    | succ fuel =>
      have this : gs.Leads (n + 1) id stops := .step found none link rest
      have new := behind.contains_eq_false this
      have further : gs.Behind n (id :: seen) stops :=
        List.forall_mem_cons.mpr ⟨⟨n + 1, by omega, this⟩, fun i old =>
          (behind i old).imp fun k h => ⟨by omega, h.2⟩⟩
      have search := ih (Nat.lt_of_succ_lt_succ enough) further
      simp only [stopsAlong, new, found, none, link, search]
      rfl

/-- A gradient without stops inherits exactly the stops to which it leads. -/
theorem inherited?_eq_some_iff {id : String} {stops : List (Stop α)} :
    gs.inherited? id = some stops ↔
      (∃ g, gs.get? id = some g ∧ g.stops = []) ∧ ∃ n, gs.Leads n id stops := by
  unfold inherited?
  constructor
  · intro h
    cases found : gs.get? id with
    | none => simp [found] at h
    | some g =>
      simp only [found] at h
      split at h
      · next none =>
        have none := List.isEmpty_iff.mp none
        obtain ⟨next, n, link, rest⟩ := leads_of_stopsAlong h
        exact ⟨⟨g, rfl, none⟩, n + 1, .step found none link rest⟩
      · cases h
  · rintro ⟨⟨g, found, none⟩, n, h⟩
    have enough := h.lt_length
    have this := h
    cases h with
    | here found' some => exact absurd none (Option.some.inj (found'.symm.trans found) ▸ some)
    | @step n _ _ next _ found' _ link rest =>
      cases found.symm.trans found'
      simp only [found, none, link, List.isEmpty_nil, if_true]
      refine stopsAlong_of_leads rest (by omega) fun i only => ?_
      exact ⟨n + 1, by omega, List.mem_singleton.mp only ▸ this⟩

/-- A gradient with the stops it takes from its chain. -/
def settled? (gs : GradientMap α) (id : String) : Option (Gradient α) :=
  (gs.get? id).map fun g => { g with stops := (gs.inherited? id).getD g.stops }

section

variable {id : String} {g : Gradient α}

theorem settled?_of_ne_nil (found : gs.get? id = some g) (some : g.stops ≠ []) :
    gs.settled? id = .some g := by
  simp [settled?, inherited?, found, List.isEmpty_iff, some]

theorem settled?_of_leads (found : gs.get? id = some g) {n : Nat} {stops : List (Stop α)}
    (h : gs.Leads n id stops) : gs.settled? id = some { g with stops := stops } := by
  by_cases none : g.stops = []
  · simp [settled?, found, inherited?_eq_some_iff.mpr ⟨⟨g, found, none⟩, n, h⟩]
  · rw [settled?_of_ne_nil found none, (h.unique (.here found none)).2]

theorem settled?_of_not_leads (found : gs.get? id = some g)
    (h : ∀ n stops, ¬gs.Leads n id stops) : gs.settled? id = some g := by
  cases inherited : gs.inherited? id with
  | none => simp [settled?, found, inherited]
  | some stops =>
    obtain ⟨-, n, leads⟩ := inherited?_eq_some_iff.mp inherited
    exact absurd leads (h n stops)

/-- The stops of a settled gradient are those to which it leads, if there are any. -/
theorem leads_of_settled? (h : gs.settled? id = some g) (some : g.stops ≠ []) :
    ∃ n, gs.Leads n id g.stops := by
  obtain ⟨own, found, -⟩ := Option.map_eq_some_iff.mp h
  by_contra none
  have leads : ∃ n stops, gs.Leads n id stops := by
    by_contra never
    simp only [not_exists] at never
    cases (settled?_of_not_leads found never).symm.trans h
    exact none ⟨0, .here found some⟩
  obtain ⟨n, stops, leads⟩ := leads
  cases (settled?_of_leads found leads).symm.trans h
  exact none ⟨n, leads⟩

theorem get?_of_settled? (h : gs.settled? id = some g) (none : g.stops = []) :
    gs.get? id = some g := by
  obtain ⟨own, found, -⟩ := Option.map_eq_some_iff.mp h
  by_cases leads : ∃ n stops, gs.Leads n id stops
  · obtain ⟨n, stops, leads⟩ := leads
    cases (settled?_of_leads found leads).symm.trans h
    exact absurd none leads.ne_nil
  · simp only [not_exists] at leads
    rw [found, ← settled?_of_not_leads found leads, h]

end

theorem settled?_congr (same : ∀ id, gs'.get? id = gs.get? id) (id : String) :
    gs'.settled? id = gs.settled? id := by
  have inherited : gs'.inherited? id = gs.inherited? id := by
    ext stops
    simp only [inherited?_eq_some_iff, same]
    refine and_congr_right fun _ => ⟨.imp fun _ h => ?_, .imp fun _ h => h.congr same⟩
    exact h.congr fun id => (same id).symm
  rw [settled?, settled?, inherited, same]

theorem get?_cons (entry : String × Gradient α) (gs : GradientMap α) (id : String) :
    get? (entry :: gs) id = if entry.1 = id then some entry.2 else get? gs id :=
  Shelf.get?_cons ..

theorem get?_setStops (gs : GradientMap α) (i id : String) (stops : List (Stop α)) :
    (gs.setStops i stops).get? id =
      if id = i then (gs.get? id).map fun g => { g with stops := stops } else gs.get? id := by
  induction gs with
  | nil => simp [get?, setStops]
  | cons entry gs ih =>
    unfold setStops at ih ⊢
    rw [List.map_cons, get?_cons, get?_cons, ih]
    by_cases mine : entry.1 = id <;> by_cases same : id = i <;> grind

theorem get?_visit (gs : GradientMap α) (i id : String) :
    (gs.visit i).get? id = if id = i then gs.settled? id else gs.get? id := by
  unfold visit
  split
  · next stops inherited =>
    rw [get?_setStops]
    split
    · next same => simp only [settled?, same, inherited, Option.getD_some]
    · rfl
  · next inherited =>
    split
    · next same => simp [settled?, same, inherited]
    · rfl

theorem Leads.visit {n : Nat} {id : String} {stops : List (Stop α)} (h : gs.Leads n id stops)
    (i : String) : ∃ m, (gs.visit i).Leads m id stops := by
  induction h with
  | @here id g found some =>
    refine ⟨0, .here ?_ some⟩
    rw [get?_visit, settled?_of_ne_nil found some, found, ite_self]
  | @step n id g next stops found none link rest ih =>
    have this : gs.Leads (n + 1) id stops := .step found none link rest
    -- A gradient that has taken its stops ends the chain.
    by_cases same : id = i
    · refine ⟨0, .here (g := { g with stops := stops }) ?_ rest.ne_nil⟩
      rw [get?_visit, if_pos same, settled?_of_leads found this]
    · obtain ⟨m, rest⟩ := ih
      exact ⟨m + 1, .step (by rw [get?_visit, if_neg same, found]) none link rest⟩

theorem Leads.of_visit {n : Nat} {i id : String} {stops : List (Stop α)}
    (h : (gs.visit i).Leads n id stops) : ∃ m, gs.Leads m id stops := by
  induction h with
  | here found some =>
    rw [get?_visit] at found
    split at found
    · exact leads_of_settled? found some
    · exact ⟨0, .here found some⟩
  | step found none link rest ih =>
    obtain ⟨m, rest⟩ := ih
    rw [get?_visit] at found
    split at found
    · exact ⟨m + 1, .step (get?_of_settled? found none) none link rest⟩
    · exact ⟨m + 1, .step found none link rest⟩

/-- A visit changes what a gradient has, never what it gets in the end. -/
theorem settled?_visit (gs : GradientMap α) (i id : String) :
    (gs.visit i).settled? id = gs.settled? id := by
  have visited := gs.get?_visit i id
  cases found : gs.get? id with
  | none =>
    have unsettled : gs.settled? id = none := by rw [settled?, found, Option.map_none]
    rw [unsettled, found, ite_self] at visited
    rw [unsettled, settled?, visited, Option.map_none]
  | some g =>
    by_cases leads : ∃ n stops, gs.Leads n id stops
    · obtain ⟨n, stops, leads⟩ := leads
      obtain ⟨m, still⟩ := leads.visit i
      rw [settled?_of_leads found leads] at visited ⊢
      split at visited
      · exact settled?_of_leads visited still
      · exact settled?_of_leads (visited.trans found) still
    · simp only [not_exists] at leads
      rw [settled?_of_not_leads found leads, found, ite_self] at visited
      rw [settled?_of_not_leads found leads]
      refine settled?_of_not_leads visited fun n stops h => ?_
      obtain ⟨m, leads'⟩ := h.of_visit
      exact leads m stops leads'

/-- Whatever the order, each gradient in it ends with the stops of its chain. -/
theorem get?_inheritStops (gs : GradientMap α) (order : List String) (id : String) :
    (gs.inheritStops order).get? id = if id ∈ order then gs.settled? id else gs.get? id := by
  induction order generalizing gs with
  | nil => rfl
  | cons i order ih =>
    have first : gs.inheritStops (i :: order) = (gs.visit i).inheritStops order := rfl
    rw [first, ih, settled?_visit, get?_visit]
    grind

end SvgPage.GradientMap

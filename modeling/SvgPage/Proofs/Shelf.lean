import Mathlib.Data.List.Nodup
import SvgPage.Shelf

/-!
# Look-ups and order

Where no key is used twice, the order of a shelf does not show in its look-ups. Of the values that
are put in for one key, the last one is looked up.
-/

namespace SvgPage.Shelf

variable {β : Type} {shelf shelf' : Shelf β} {key : String} {value : β}

theorem mem_of_get? (h : get? shelf key = some value) : (key, value) ∈ shelf := by
  obtain ⟨entry, found, rfl⟩ := Option.map_eq_some_iff.mp h
  have same : entry.1 = key := by simpa using List.find?_some found
  rw [← same]
  exact List.mem_of_find?_eq_some found

theorem isSome_get?_iff : (get? shelf key).isSome ↔ key ∈ keys shelf := by
  simp [get?, keys]

theorem get?_eq_some_iff (distinct : (keys shelf).Nodup) :
    get? shelf key = some value ↔ (key, value) ∈ shelf := by
  refine ⟨mem_of_get?, fun member => ?_⟩
  have there : key ∈ keys shelf := List.mem_map_of_mem member
  obtain ⟨found, h⟩ := Option.isSome_iff_exists.mp (isSome_get?_iff.mpr there)
  cases List.inj_on_of_nodup_map distinct (mem_of_get? h) member rfl
  exact h

theorem get?_eq_of_perm (perm : shelf'.Perm shelf) (distinct : (keys shelf).Nodup) (key : String) :
    get? shelf' key = get? shelf key := by
  have distinct' : (keys shelf').Nodup := (perm.map Prod.fst).nodup_iff.mpr distinct
  ext value
  rw [get?_eq_some_iff distinct, get?_eq_some_iff distinct', perm.mem_iff]

theorem ext_get? (distinct : (keys shelf).Nodup) (order : keys shelf' = keys shelf)
    (same : ∀ key, get? shelf' key = get? shelf key) : shelf' = shelf := by
  have entry {s : Shelf β} (distinct : (keys s).Nodup) :
      s.map (fun e => (e.1, get? s e.1)) = s.map fun e => (e.1, some e.2) :=
    List.map_congr_left fun e member => by rw [(get?_eq_some_iff distinct).mpr member]
  have values : shelf'.map (fun e => (e.1, some e.2)) = shelf.map fun e => (e.1, some e.2) := by
    rw [← entry distinct, ← entry (order ▸ distinct)]
    simp only [same]
    simpa [keys, Function.comp_def] using congrArg (List.map fun k => (k, get? shelf k)) order
  exact List.map_injective_iff.mpr (fun e e' h => by simpa [Prod.ext_iff] using h) values

@[simp] theorem get?_nil (key : String) : get? ([] : Shelf β) key = none := rfl

@[simp] theorem keys_cons (entry : String × β) (shelf : Shelf β) :
    keys (entry :: shelf) = entry.1 :: keys shelf := rfl

theorem get?_cons (entry : String × β) (shelf : Shelf β) (key : String) :
    get? (entry :: shelf) key = if entry.1 = key then some entry.2 else get? shelf key := by
  by_cases same : entry.1 = key <;> simp [get?, same]

theorem get?_append (shelf shelf' : Shelf β) (key : String) :
    get? (shelf ++ shelf') key = (get? shelf key).or (get? shelf' key) := by
  rw [get?, List.find?_append, Option.map_or]
  rfl

theorem get?_update (key : String) (start : β) (f : β → β) (shelf : Shelf β) (other : String) :
    get? (update key start f shelf) other =
      if other = key then some (f ((get? shelf key).getD start)) else get? shelf other := by
  induction shelf with
  | nil => grind [update, get?_cons, get?_nil]
  | cons entry shelf ih => grind [update, get?_cons]

theorem keys_update (key : String) (start : β) (f : β → β) (shelf : Shelf β) :
    keys (update key start f shelf) =
      if key ∈ keys shelf then keys shelf else keys shelf ++ [key] := by
  induction shelf with
  | nil => rfl
  | cons entry shelf ih => grind [update, keys_cons]

theorem nodup_keys_update (distinct : (keys shelf).Nodup) (key : String) (start : β) (f : β → β) :
    (keys (update key start f shelf)).Nodup := by
  rw [keys_update]
  split
  · exact distinct
  · next new => exact distinct.append (List.nodup_singleton key) (by simpa using new)

/-- The last value that a list of entries gives to a key. -/
def last? (entries : List (String × β)) (key : String) : Option β := get? entries.reverse key

theorem last?_append (entries entries' : List (String × β)) (key : String) :
    last? (entries ++ entries') key = (last? entries' key).or (last? entries key) := by
  rw [last?, List.reverse_append, get?_append, last?, last?]

/-- Where no key is used twice, its last value is the one that is looked up. -/
theorem last?_eq_get? (distinct : (keys shelf).Nodup) (key : String) :
    last? shelf key = get? shelf key :=
  get?_eq_of_perm (List.reverse_perm shelf) distinct key

theorem get?_insertAll (shelf : Shelf β) (entries : List (String × β)) (key : String) :
    get? (insertAll shelf entries) key = (last? entries key).or (get? shelf key) := by
  induction entries generalizing shelf with
  | nil => rfl
  | cons entry entries ih =>
    have first : insertAll shelf (entry :: entries) =
      insertAll (shelf.insert entry.1 entry.2) entries := rfl
    have own : last? [entry] key = if entry.1 = key then some entry.2 else none := get?_cons ..
    rw [first, ih, insert, get?_update, show entry :: entries = [entry] ++ entries from rfl,
      last?_append, own]
    cases last? entries key <;> grind

theorem nodup_keys_insertAll (distinct : (keys shelf).Nodup) (entries : List (String × β)) :
    (keys (insertAll shelf entries)).Nodup := by
  induction entries generalizing shelf with
  | nil => exact distinct
  | cons entry entries ih => exact ih (nodup_keys_update distinct ..)

end SvgPage.Shelf

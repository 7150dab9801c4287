import Mathlib.Data.List.Dedup
import SvgPage.Proofs.Shelf
import SvgPage.Scene.Document

/-!
# Precedence in the cascade

Three layers of overwriting come down to one rule for each property: the element's own style, else
the last of its classes that has the property, else the presentation attribute. The value of a class
is that of the last block of properties that was merged into it and has the property.
-/

namespace SvgPage

namespace Shelf

variable {β : Type}

theorem last?_flatMap {α : Type} (f : α → List (String × β)) (as : List α) (key : String) :
    last? (as.flatMap f) key = as.reverse.findSome? fun a => last? (f a) key := by
  induction as with
  | nil => rfl
  | cons a as ih =>
    rw [List.flatMap_cons, last?_append, ih, List.reverse_cons, List.findSome?_append,
      List.findSome?_singleton]

end Shelf

namespace ClassTable

def bag (t : ClassTable) (name : String) : Properties := (t.get? name).getD []

/-- The value in the last of some merged blocks of a class that has the property. -/
def mergedValue? (merges : List (String × Properties)) (name key : String) : Option String :=
  merges.reverse.findSome? fun m => if m.1 = name then Shelf.last? m.2 key else none

theorem mergedValue?_cons (m : String × Properties) (merges : List (String × Properties))
    (name key : String) : mergedValue? (m :: merges) name key =
      (mergedValue? merges name key).or (if m.1 = name then Shelf.last? m.2 key else none) := by
  rw [mergedValue?, List.reverse_cons, List.findSome?_append, List.findSome?_singleton,
    mergedValue?]

variable (t : ClassTable) (merges : List (String × Properties))

theorem bag_merge (name : String) (ps : Properties) (other : String) :
    (t.merge name ps).bag other =
      if name = other then Shelf.insertAll (t.bag other) ps else t.bag other := by
  have updated : (t.merge name ps).get? other =
      if other = name then some (Shelf.insertAll (t.bag name) ps) else t.get? other :=
    Shelf.get?_update ..
  rw [bag, updated, bag]
  split <;> grind [bag]

/-- No block of properties has two values for one key. -/
def Sound : Prop := ∀ name, (Shelf.keys (t.bag name)).Nodup

theorem sound_empty : empty.Sound := fun _ => List.nodup_nil

variable {t}

theorem Sound.merge (h : t.Sound) (name : String) (ps : Properties) : (t.merge name ps).Sound := by
  intro other
  rw [bag_merge]
  split
  · exact Shelf.nodup_keys_insertAll (h other) ps
  · exact h other

theorem Sound.mergeClasses (h : t.Sound) : (StyleBlock.mergeClasses t merges).Sound := by
  induction merges generalizing t with
  | nil => exact h
  | cons m merges ih => exact ih (h.merge m.1 m.2)

/-- By induction on what is merged: later blocks go before earlier ones, and these before what the
class had at the start. -/
theorem get?_bag_mergeClasses (name key : String) :
    Shelf.get? ((StyleBlock.mergeClasses t merges).bag name) key =
      (mergedValue? merges name key).or (Shelf.get? (t.bag name) key) := by
  induction merges generalizing t with
  | nil => rfl
  | cons m merges ih =>
    have first : StyleBlock.mergeClasses t (m :: merges) =
      StyleBlock.mergeClasses (t.merge m.1 m.2) merges := rfl
    have own : Shelf.get? ((t.merge m.1 m.2).bag name) key =
        (if m.1 = name then Shelf.last? m.2 key else none).or (Shelf.get? (t.bag name) key) := by
      rw [bag_merge]
      split
      · exact Shelf.get?_insertAll ..
      · rfl
    rw [first, ih, own, mergedValue?_cons, Option.or_assoc]

theorem keys_mergeClasses (distinct : (Shelf.keys t.classes).Nodup) :
    (Shelf.keys (StyleBlock.mergeClasses t merges).classes).Nodup ∧
      ∀ name, name ∈ Shelf.keys (StyleBlock.mergeClasses t merges).classes ↔
        name ∈ Shelf.keys t.classes ∨ name ∈ merges.map Prod.fst := by
  induction merges generalizing t with
  | nil => exact ⟨distinct, by simp [StyleBlock.mergeClasses]⟩
  | cons m merges ih =>
    have known (name : String) : name ∈ Shelf.keys (t.merge m.1 m.2).classes ↔
        name ∈ Shelf.keys t.classes ∨ name = m.1 := by
      rw [merge, Shelf.keys_update]
      split <;> grind
    obtain ⟨distinct, members⟩ := ih (t := t.merge m.1 m.2) (Shelf.nodup_keys_update distinct ..)
    refine ⟨distinct, fun name => (members name).trans ?_⟩
    rw [known, List.map_cons, List.mem_cons, or_assoc]

theorem size_mergeClasses :
    (StyleBlock.mergeClasses empty merges).size = (merges.map Prod.fst).dedup.length := by
  obtain ⟨distinct, members⟩ := keys_mergeClasses (t := empty) merges List.nodup_nil
  have perm : (Shelf.keys (StyleBlock.mergeClasses empty merges).classes).Perm
      (merges.map Prod.fst).dedup := by
    refine (List.perm_ext_iff_of_nodup distinct (List.nodup_dedup _)).mpr fun name => ?_
    rw [members, List.mem_dedup]
    exact or_iff_right List.not_mem_nil
  rw [← perm.length_eq, Shelf.keys, List.length_map, size]

end ClassTable

namespace Properties

variable (presentation : List (String × String)) (classNames : Option String)
  (merges : List (String × Properties)) (style : Option String) (key : String)

def classTokens : List String :=
  (Text.fields Text.isBlank (classNames.getD "").toList).map String.ofList

/-- The value of a property under the precedence of the layers. -/
def cascaded? : Option String :=
  let own := style.bind fun s => Shelf.last? (ofStyle s.toList) key
  let ofClass := (classTokens classNames).reverse.findSome? fun name =>
    ClassTable.mergedValue? merges name key
  let presented :=
    if key ∈ presentationNames then (Shelf.last? presentation key).map word else none
  own.or (ofClass.or presented)

theorem last?_ofPresentation : Shelf.last? (ofPresentation presentation) key =
    if key ∈ presentationNames then (Shelf.last? presentation key).map word else none := by
  have found (attributes : List (String × String)) :
      Shelf.get? (ofPresentation attributes) key =
        if key ∈ presentationNames then (Shelf.get? attributes key).map word else none := by
    induction attributes with
    | nil => simp [ofPresentation]
    | cons a attributes ih =>
      unfold ofPresentation at ih ⊢
      rw [List.filter_cons]
      by_cases takesPart : presentationNames.contains a.1 = true
      · rw [if_pos takesPart, List.map_cons, Shelf.get?_cons, ih, Shelf.get?_cons]
        grind [word]
      · rw [if_neg takesPart, ih, Shelf.get?_cons]
        grind
  have reversed : (ofPresentation presentation).reverse = ofPresentation presentation.reverse := by
    rw [ofPresentation, ofPresentation, List.filter_reverse, List.map_reverse]
  rw [Shelf.last?, reversed, found, Shelf.last?]

theorem last?_ofClasses : Shelf.last?
    (ofClasses (StyleBlock.mergeClasses .empty merges) (classNames.getD "")) key =
      (classTokens classNames).reverse.findSome? fun name =>
        ClassTable.mergedValue? merges name key := by
  have blocks : ofClasses (StyleBlock.mergeClasses .empty merges) (classNames.getD "") =
      (classTokens classNames).flatMap (StyleBlock.mergeClasses .empty merges).bag := by
    rw [classTokens, List.flatMap_map]
    rfl
  have value (name : String) :
      Shelf.last? ((StyleBlock.mergeClasses .empty merges).bag name) key =
        ClassTable.mergedValue? merges name key := by
    rw [Shelf.last?_eq_get? (ClassTable.sound_empty.mergeClasses merges name),
      ClassTable.get?_bag_mergeClasses]
    exact Option.or_none
  simp only [blocks, Shelf.last?_flatMap, value]

theorem get?_resolve : Shelf.get?
    (resolve presentation classNames (StyleBlock.mergeClasses .empty merges) style) key =
      cascaded? presentation classNames merges style key := by
  have own : Shelf.last? ((style.map fun s => ofStyle s.toList).getD []) key =
      style.bind fun s => Shelf.last? (ofStyle s.toList) key := by
    cases style <;> rfl
  rw [resolve, Shelf.ofList, Shelf.get?_insertAll, Shelf.get?_nil, Option.or_none,
    Shelf.last?_append, Shelf.last?_append, own, last?_ofClasses, last?_ofPresentation, cascaded?]

/-- Each property of an element has the value of the first layer that has it, attributes outside the
cascade contribute nothing, and there are as many classes as names that were merged. -/
theorem cascade_precedence (presentation : List (String × String)) (classNames : Option String)
    (merges : List (String × Properties)) (style : Option String) :
    let t := StyleBlock.mergeClasses .empty merges
    (∀ key, Shelf.get? (Properties.resolve presentation classNames t style) key =
        Properties.cascaded? presentation classNames merges style key) ∧
      Properties.resolve (presentation.filter fun a => presentationNames.contains a.1) classNames t
          style = Properties.resolve presentation classNames t style ∧
      ClassTable.size t = (merges.map Prod.fst).dedup.length := by
  have outside : ofPresentation (presentation.filter fun a => presentationNames.contains a.1) =
      ofPresentation presentation := by
    simp only [ofPresentation, List.filter_filter, Bool.and_self]
  refine ⟨get?_resolve presentation classNames merges style, ?_,
    ClassTable.size_mergeClasses merges⟩
  rw [resolve, outside, resolve]

end Properties

end SvgPage

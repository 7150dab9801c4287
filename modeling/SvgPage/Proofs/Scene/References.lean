import SvgPage.Proofs.Paint.Styling
import SvgPage.Proofs.Scene.Descent
import SvgPage.Proofs.Text.Pieces

/-!
# References

A property refers to a gradient, a clip path, a mask or a filter by id. An element that is read
carries exactly what is registered under the id, which is of the kind that is asked for. A paint may
be inherited, but only past elements that state none.
-/

namespace SvgPage

open Xml

namespace Reference

theorem id?_trim (cs : List Char) : id? (Text.trim cs) = id? cs := by
  unfold id?
  rw [Text.trim_trim]

theorem isReference_of_id? {cs : List Char} {id : String} (h : id? cs = some id) :
    isReference (Text.trim cs) = true := by
  by_contra no
  simp [id?, no] at h

end Reference

namespace Properties

def named? (ps : Properties) (name : String) : Option String :=
  (Shelf.get? ps name).bind fun raw => Reference.id? raw.toList

/-- The value of a paint property that is neither blank nor passes on what is inherited. -/
def stated? (ps : Properties) (name : String) : Option (List Char) :=
  ((Shelf.get? ps name).map fun raw => Text.trim raw.toList).filter fun value =>
    !(value.isEmpty || value == "inherit".toList)

theorem stated?_of_named? {ps : Properties} {name id : String} (h : ps.named? name = some id) :
    ∃ value, ps.stated? name = some value ∧ Reference.id? value = some id := by
  obtain ⟨raw, found, named⟩ := Option.bind_eq_some_iff.mp h
  refine ⟨Text.trim raw.toList, ?_, (Reference.id?_trim _).trans named⟩
  have written := Reference.isReference_of_id? named
  have value : (Text.trim raw.toList).isEmpty = false ∧
      (Text.trim raw.toList == "inherit".toList) = false := by
    constructor <;> rw [Bool.eq_false_iff] <;> intro passes
    · rw [List.isEmpty_iff.mp passes] at written
      cases written
    · rw [eq_of_beq passes] at written
      exact absurd written (by decide)
  simp only [stated?, found, Option.map_some, Option.filter_some, value.1, value.2, Bool.or_self,
    Bool.not_false, if_true]

end Properties

namespace Xml

/-- The effective properties of an element, given those of the classes. -/
def Head.properties (t : ClassTable) (h : Head) : Properties :=
  .resolve h.plainAttributes (h.get? "class") t (h.get? "style")

/-- The value that the nearest of some elements states for a paint property. -/
def Head.effective? (t : ClassTable) (name : String) (hs : List Head) : Option (List Char) :=
  hs.findSome? fun h => (h.properties t).stated? name

end Xml

/-- What is found for a reference is what is registered under its id; without a reference, nothing
is. -/
inductive Definitions.Refers (ds : Definitions Float) {β : Type} (kind : β → Definition Float) :
    Option String → Option β → Prop
  | nothing : Refers ds kind none none
  | registered {id b} : ds.get? id = some (kind b) → Refers ds kind (some id) (some b)

namespace Definitions

variable {ds : Definitions Float} {tag id : String}

theorem get?_of_gradient {g : Gradient Float} (h : ds.gradient tag id = .ok g) :
    ds.get? id = some (.gradient g) := by
  unfold gradient at h
  split at h <;> cases h
  assumption

theorem get?_of_clipPath {c : ClipPath Float} (h : ds.clipPath tag id = .ok c) :
    ds.get? id = some (.clipPath c) := by
  unfold clipPath at h
  split at h <;> cases h
  assumption

theorem get?_of_mask {m : Mask Float} (h : ds.mask tag id = .ok m) :
    ds.get? id = some (.mask m) := by
  unfold mask at h
  split at h <;> cases h
  assumption

theorem get?_of_filter {f : Filter Float} (h : ds.filter tag id = .ok f) :
    ds.get? id = some (.filter f) := by
  unfold filter at h
  split at h <;> cases h
  assumption

end Definitions

def Paint.gradient? : Paint Float → Option (Gradient Float)
  | solid _ => none
  | gradient g => some g

section

variable {ds : Definitions Float} {tag : String} {ps : Properties} {name : String}

/-- A paint is inherited only where none is stated. Stated as a reference, it is the gradient that
is registered under the id. -/
theorem Paint.refers_of_resolve {inherited paint : Option (Paint Float)} {current : Color Float}
    (h : resolve ds tag name (Shelf.get? ps name) inherited current = .ok paint) :
    match ps.stated? name with
    | none => paint = inherited
    | some value => ds.Refers .gradient (Reference.id? value) (paint.bind gradient?) := by
  unfold resolve at h
  unfold Properties.stated?
  cases found : Shelf.get? ps name with
  | none =>
    rw [found] at h
    cases h
    rfl
  | some raw =>
    simp only [found, Option.map_some] at h ⊢
    generalize trimmed : Text.trim raw.toList = value at h ⊢
    have referring : Reference.isReference (Text.trim value) = Reference.isReference value := by
      rw [← trimmed, Text.trim_trim]
    have unnamed (no : ¬Reference.isReference value = true) : Reference.id? value = none := by
      simp [Reference.id?, referring, no]
    split at h
    · next isNone =>
      subst isNone
      cases h
      exact .nothing
    split at h
    · next passes =>
      rw [Option.filter_some, passes, if_neg (by simp)]
      cases h
      rfl
    · next states =>
      rw [Option.filter_some, if_pos (by simpa using states)]
      change ds.Refers .gradient (Reference.id? value) _
      split at h
      · split at h
        · cases h
        · next id named =>
          rw [named]
          obtain ⟨g, registered, rfl⟩ := exists_of_map_eq_ok h
          exact .registered (Definitions.get?_of_gradient registered)
      · next no =>
        rw [unnamed no]
        split at h
        · cases h
          exact .nothing
        · split at h <;> cases h
          exact .nothing

theorem Context.named?_of_reference {id : Option String}
    (h : reference tag ps name = .ok id) : ps.named? name = id := by
  unfold reference at h
  unfold Properties.named?
  split at h
  · next none =>
    cases h
    rw [none]
    rfl
  · next raw found =>
    rw [found]
    split at h
    · next isNone =>
      subst isNone
      cases h
      rfl
    · cases named : Reference.id? raw.toList <;> rw [named] at h <;> cases h
      exact named

theorem Context.refers_of_referred {β : Type} {lookup : String → String → Except Problem β}
    {kind : β → Definition Float} (spec : ∀ {tag id b}, lookup tag id = .ok b →
      ds.get? id = some (kind b)) {found : Option β}
    (h : referred lookup tag ps name = .ok found) : ds.Refers kind (ps.named? name) found := by
  unfold referred at h
  obtain ⟨id, named, h⟩ := exists_of_bind_eq_ok h
  rw [named?_of_reference named]
  cases id with
  | none =>
    cases h
    exact .nothing
  | some id =>
    obtain ⟨b, registered, h⟩ := exists_of_bind_eq_ok h
    cases h
    exact .registered (spec registered)

end

/-- The gradients of a paint style are those to which the nearest stated values refer. -/
structure PaintStyle.Follows (t : ClassTable) (ds : Definitions Float) (hs : List Head)
    (fill stroke : Option (Paint Float)) : Prop where
  fill : ds.Refers .gradient ((Head.effective? t "fill" hs).bind Reference.id?)
    (fill.bind Paint.gradient?)
  stroke : ds.Refers .gradient ((Head.effective? t "stroke" hs).bind Reference.id?)
    (stroke.bind Paint.gradient?)

/-- What a node carries is what its element refers to. A clip has the box of the node and the rule
of the element, or else that of the clip path. -/
structure Base.Follows (t : ClassTable) (ds : Definitions Float) (h : Head)
    (box : Option (Rect Float)) (base : Base Float) : Prop where
  mask : ds.Refers .mask ((h.properties t).named? "mask") base.mask
  filter : ds.Refers .filter ((h.properties t).named? "filter") base.filter
  clip : ∃ clipPath, ds.Refers .clipPath ((h.properties t).named? "clip-path") clipPath ∧
    base.clip = clipPath.map fun c => ⟨c.opsFor box,
      ((Shelf.get? (h.properties t) "clip-rule").bind FillRule.read?).getD
        (c.rule.getD .nonZero)⟩

namespace Context

variable {cx : Context}

theorem follows_of_base {h : Head} {box : Option (Rect Float)} {base : Base Float}
    (read : cx.base h (cx.properties h) box = .ok base) :
    base.Follows cx.classes cx.definitions h box := by
  unfold Context.base at read
  obtain ⟨transform, -, read⟩ := exists_of_bind_eq_ok read
  obtain ⟨clip, clipped, read⟩ := exists_of_bind_eq_ok read
  obtain ⟨mask, masked, read⟩ := exists_of_bind_eq_ok read
  obtain ⟨filter, filtered, read⟩ := exists_of_bind_eq_ok read
  obtain ⟨blendMode, -, read⟩ := exists_of_bind_eq_ok read
  cases read
  refine ⟨refers_of_referred Definitions.get?_of_mask masked,
    refers_of_referred Definitions.get?_of_filter filtered, ?_⟩
  unfold Context.clip at clipped
  obtain ⟨id, named, clipped⟩ := exists_of_bind_eq_ok clipped
  have named : ((h.properties cx.classes).named? "clip-path") = id := named?_of_reference named
  rw [named]
  cases id with
  | none =>
    cases clipped
    exact ⟨none, .nothing, rfl⟩
  | some id =>
    obtain ⟨c, registered, clipped⟩ := exists_of_bind_eq_ok clipped
    obtain ⟨rule, ruled, clipped⟩ := exists_of_bind_eq_ok clipped
    cases clipped
    refine ⟨some c, .registered (Definitions.get?_of_clipPath registered), ?_⟩
    rw [(Properties.read_eq_ok_iff.mp ruled).2, Properties.value?]
    rfl

/-- The nearest element that states a paint is the element itself, or else the nearest of those
around it. -/
theorem refers_of_paint {h : Head} {around : List Head} {name : String}
    {inherited paint : Option (Paint Float)} {current : Color Float}
    (inherits : cx.definitions.Refers .gradient
      ((Head.effective? cx.classes name around).bind Reference.id?)
        (inherited.bind Paint.gradient?))
    (read : Paint.resolve cx.definitions h.tag name (Shelf.get? (cx.properties h) name) inherited
      current = .ok paint) :
    cx.definitions.Refers .gradient
      ((Head.effective? cx.classes name (h :: around)).bind Reference.id?)
        (paint.bind Paint.gradient?) := by
  have resolved := Paint.refers_of_resolve read
  have nearest : Head.effective? cx.classes name (h :: around) =
      ((cx.properties h).stated? name).or (Head.effective? cx.classes name around) := by
    unfold Head.effective?
    rw [List.findSome?_cons]
    cases stated : (h.properties cx.classes).stated? name <;>
      rw [show (cx.properties h).stated? name = _ from stated] <;> rfl
  rw [nearest]
  cases stated : (cx.properties h).stated? name with
  | none =>
    rw [stated] at resolved
    rw [show paint = inherited from resolved]
    exact inherits
  | some value =>
    rw [stated] at resolved
    exact resolved

theorem follows_of_paintStyle {h : Head} {around : List Head} {inherited paint : PaintStyle Float}
    (inherits : PaintStyle.Follows cx.classes cx.definitions around inherited.fill inherited.stroke)
    (read : paintStyle cx.definitions h.tag (cx.properties h) inherited = .ok paint) :
    PaintStyle.Follows cx.classes cx.definitions (h :: around) paint.fill paint.stroke := by
  unfold paintStyle at read
  obtain ⟨color, -, read⟩ := exists_of_bind_eq_ok read
  obtain ⟨fill, filled, read⟩ := exists_of_bind_eq_ok read
  obtain ⟨stroke, stroked, read⟩ := exists_of_bind_eq_ok read
  have kept : paint.fill = fill ∧ paint.stroke = stroke := by
    repeat obtain ⟨_, -, read⟩ := exists_of_bind_eq_ok read
    cases read
    exact ⟨rfl, rfl⟩
  rw [kept.1, kept.2]
  exact ⟨refers_of_paint inherits.fill filled, refers_of_paint inherits.stroke stroked⟩

end Context

end SvgPage

import SvgPage.Proofs.Paint.Styling
import SvgPage.Proofs.Shelf

/-!
# Nested styles

A group and its member that state different properties style the member as one element would that
states all of them. There are three exceptions, where a property of the group has taken effect
before that of the member is known: the current colour in a paint, a special opacity against the
general one, and the start of dashes against their pattern.
-/

namespace SvgPage

namespace Properties

/-- A paint is the current colour. -/
def UsesCurrentColor (ps : Properties) : Prop :=
  ∃ name ∈ ["fill", "stroke"], ∃ raw, Shelf.get? ps name = some raw ∧
    Text.sameIgnoringCase (Text.trim raw.toList) "currentcolor".toList = true

/-- Properties of a group and of its member, none of which takes effect before another one that it
depends on. -/
structure Separable (outer inner : Properties) : Prop where
  disjoint : ∀ key ∈ Shelf.keys outer, key ∉ Shelf.keys inner
  color : outer.UsesCurrentColor → "color" ∉ Shelf.keys inner
  opacity : "fill-opacity" ∈ Shelf.keys outer ∨ "stroke-opacity" ∈ Shelf.keys outer →
    "opacity" ∉ Shelf.keys inner
  dash : ¬("stroke-dashoffset" ∈ Shelf.keys outer ∧ "stroke-dasharray" ∈ Shelf.keys inner)

variable {outer inner : Properties} {β : Type} {name : String} {reader : String → Option β}

theorem value?_eq_none (absent : name ∉ Shelf.keys outer) : outer.value? name reader = none := by
  have none : Shelf.get? outer name = none := by
    rw [← Option.not_isSome_iff_eq_none, Shelf.isSome_get?_iff]
    exact absent
  rw [value?, none, Option.bind_none]

theorem mem_keys_of_value? {b : β} (h : outer.value? name reader = some b) :
    name ∈ Shelf.keys outer := by
  by_contra absent
  cases (value?_eq_none absent).symm.trans h

namespace Separable

section

variable (h : outer.Separable inner)

include h

theorem get?_eq_none (name : String) :
    Shelf.get? outer name = none ∨ Shelf.get? inner name = none := by
  simp only [← Option.not_isSome_iff_eq_none, Shelf.isSome_get?_iff, ← not_and_or]
  exact fun both => h.disjoint name both.1 both.2

theorem value?_none_or (name : String) (reader : String → Option β) :
    outer.value? name reader = none ∨ inner.value? name reader = none := by
  refine (h.get?_eq_none name).imp ?_ ?_ <;> intro absent <;> rw [value?, absent, Option.bind_none]

theorem value?_append (name : String) (reader : String → Option β) :
    (outer ++ inner).value? name reader =
      (outer.value? name reader).or (inner.value? name reader) := by
  rcases h.get?_eq_none name with absent | absent <;> simp [value?, Shelf.get?_append, absent]

theorem passes_append_iff (check : String × (String → Bool)) :
    (outer ++ inner).Passes check ↔ outer.Passes check ∧ inner.Passes check := by
  rcases h.get?_eq_none check.1 with absent | absent <;> simp [Passes, Shelf.get?_append, absent]

theorem painted_append_iff (defs : Definitions Float) :
    (outer ++ inner).Painted defs ↔ outer.Painted defs ∧ inner.Painted defs := by
  simp only [Painted, h.passes_append_iff, forall_and]

theorem value?_or_or (name : String) (reader : String → Option β) (inherited : Option β) :
    (inner.value? name reader).or ((outer.value? name reader).or inherited) =
      ((outer ++ inner).value? name reader).or inherited := by
  rw [h.value?_append]
  rcases h.value?_none_or name reader with absent | absent <;> simp [absent]

end

end Separable

end Properties

open Properties

theorem Paint.sameIgnoringCase_of_choice? {defs : Definitions Float} {raw : String}
    (h : Paint.choice? defs raw = some .current) :
    Text.sameIgnoringCase (Text.trim raw.toList) "currentcolor".toList = true := by
  unfold Paint.choice? at h
  dsimp only at h
  split at h
  · cases h
  split at h
  · cases h
  split at h
  · obtain ⟨id, -, h⟩ := Option.bind_eq_some_iff.mp h
    obtain ⟨g, -, h⟩ := Option.map_eq_some_iff.mp h
    cases h
  split at h
  · assumption
  · obtain ⟨c, -, h⟩ := Option.map_eq_some_iff.mp h
    cases h

namespace PaintStyle

variable {outer inner : Properties} (h : outer.Separable inner) (defs : Definitions Float)

include h

theorem colorOver_colorOver (inherited : Color Float) :
    colorOver inner (colorOver outer inherited) = colorOver (outer ++ inner) inherited := by
  unfold colorOver
  rw [h.value?_append]
  rcases h.value?_none_or "color" Color.stated? with absent | absent <;> simp [absent]

theorem opacityOver_opacityOver {name : String}
    (special : name ∈ Shelf.keys outer → "opacity" ∉ Shelf.keys inner) (inherited : Option Float) :
    opacityOver inner name (opacityOver outer name inherited) =
      opacityOver (outer ++ inner) name inherited := by
  unfold opacityOver
  rw [h.value?_append, h.value?_append]
  cases own : outer.value? name opacity? with
  | some v =>
    have absent : inner.value? name opacity? = none :=
      value?_eq_none (h.disjoint name (mem_keys_of_value? own))
    have general : inner.value? "opacity" opacity? = none :=
      value?_eq_none (special (mem_keys_of_value? own))
    simp [absent, general]
  | none =>
    rcases h.value?_none_or "opacity" opacity? with absent | absent <;>
      cases inner.value? name opacity? <;> simp [absent]

theorem paintOver_paintOver {name : String} (member : name ∈ ["fill", "stroke"])
    (inherited : Option (Paint Float)) (color : Color Float) :
    paintOver defs inner name (paintOver defs outer name inherited (colorOver outer color))
        (colorOver inner (colorOver outer color)) =
      paintOver defs (outer ++ inner) name inherited (colorOver (outer ++ inner) color) := by
  unfold paintOver
  rw [h.value?_append, ← colorOver_colorOver h]
  rcases h.value?_none_or name (Paint.choice? defs) with absent | absent
  · rw [absent]
    rfl
  · rw [absent, Option.or_none]
    cases chosen : outer.value? name (Paint.choice? defs) with
    | none => rfl
    | some choice =>
      cases choice with
      | current =>
        -- The member keeps the colour that the group has used.
        obtain ⟨raw, found, current⟩ := Option.bind_eq_some_iff.mp chosen
        have uses : outer.UsesCurrentColor :=
          ⟨name, member, raw, found, Paint.sameIgnoringCase_of_choice? current⟩
        have kept : colorOver inner (colorOver outer color) = colorOver outer color := by
          rw [colorOver, value?_eq_none (h.color uses)]
          rfl
        rw [kept]
        rfl
      | passed | nothing | fixed p => rfl

theorem dashOver_dashOver (inherited : Option (Dash Float)) :
    Dash.onto (inner.value? "stroke-dasharray" Dash.pattern?)
        (inner.value? "stroke-dashoffset" dashOffset?)
        (Dash.onto (outer.value? "stroke-dasharray" Dash.pattern?)
          (outer.value? "stroke-dashoffset" dashOffset?) inherited) =
      Dash.onto ((outer ++ inner).value? "stroke-dasharray" Dash.pattern?)
        ((outer ++ inner).value? "stroke-dashoffset" dashOffset?) inherited := by
  rw [h.value?_append, h.value?_append]
  cases pattern : inner.value? "stroke-dasharray" Dash.pattern? with
  | none =>
    rw [Option.or_none]
    rcases h.value?_none_or "stroke-dashoffset" dashOffset? with absent | absent <;> rw [absent]
    · cases inner.value? "stroke-dashoffset" dashOffset? <;> rfl
    · rw [Option.or_none]
      rfl
  | some p =>
    -- The group states neither a pattern nor an offset.
    have key := mem_keys_of_value? pattern
    have unpatterned : outer.value? "stroke-dasharray" Dash.pattern? = none :=
      value?_eq_none fun outside => h.disjoint _ outside key
    have unmoved : outer.value? "stroke-dashoffset" dashOffset? = none :=
      value?_eq_none fun outside => h.dash ⟨outside, key⟩
    rw [unpatterned, unmoved]
    rfl

/-- Laying one after the other over what is inherited is laying both over it. -/
theorem onto_onto (inherited : PaintStyle Float) :
    onto defs inner (onto defs outer inherited) = onto defs (outer ++ inner) inherited := by
  have rule (own : FillRule) : (inner.value? "fill-rule" FillRule.read?).getD
      ((outer.value? "fill-rule" FillRule.read?).getD own) =
        ((outer ++ inner).value? "fill-rule" FillRule.read?).getD own := by
    rw [h.value?_append]
    rcases h.value?_none_or "fill-rule" FillRule.read? with absent | absent <;> simp [absent]
  unfold onto
  dsimp only
  rw [paintOver_paintOver h defs (by simp), paintOver_paintOver h defs (by simp), rule,
    opacityOver_opacityOver h fun member => h.opacity (.inl member),
    opacityOver_opacityOver h fun member => h.opacity (.inr member),
    h.value?_or_or, h.value?_or_or, h.value?_or_or, h.value?_or_or, h.value?_or_or,
    dashOver_dashOver h, colorOver_colorOver h]

end PaintStyle

/-- A member of a group is painted as one element with the properties of both, and in both cases the
same properties are refused. -/
theorem Context.paintStyle_nested {outer inner : Properties} (h : outer.Separable inner)
    (defs : Definitions Float) (group member tag : String) (inherited : PaintStyle Float) :
    ((paintStyle defs group outer inherited).bind (paintStyle defs member inner)).toOption =
      (paintStyle defs tag (outer ++ inner) inherited).toOption := by
  ext paint
  rw [toOption_eq_some_iff, toOption_eq_some_iff, paintStyle_eq_ok_iff, h.painted_append_iff,
    ← PaintStyle.onto_onto h]
  refine (bind_eq_ok_iff fun _ => paintStyle_eq_ok_iff).trans ?_
  rw [paintStyle_eq_ok_iff, and_assoc]

/-- A half transparent group with dashes, and a member that fades its fill and moves the dashes. -/
theorem Context.paintStyle_nested_dashed :
    let outer : Properties :=
      [("fill", "currentColor"), ("opacity", "0.5"), ("stroke-dasharray", "3 1")]
    let inner : Properties := [("fill-opacity", "25%"), ("stroke-dashoffset", "2")]
    outer.Separable inner ∧ ∃ paint : PaintStyle Float,
      (paintStyle .empty "g" outer .initial).bind (paintStyle .empty "rect" inner) = .ok paint ∧
        paintStyle .empty "rect" (outer ++ inner) .initial = .ok paint ∧
        paint.dash = some ⟨[3, 1], 2⟩ ∧ paint.fillOpacity = some 0.25 ∧
        paint.strokeOpacity = some 0.5 := by
  intro outer inner
  have separable : outer.Separable inner :=
    ⟨by decide, fun _ => by decide, by decide, by decide⟩
  have nested := paintStyle_nested separable .empty "g" "rect" "rect" .initial
  have values : (paintStyle .empty "rect" (outer ++ inner) .initial).toOption.map
      (fun p => (p.dash, p.fillOpacity, p.strokeOpacity)) =
        some (some ⟨[3, 1], 2⟩, some 0.25, some 0.5) := by decide +kernel
  obtain ⟨paint, both, values⟩ := Option.map_eq_some_iff.mp values
  simp only [Prod.mk.injEq] at values
  exact ⟨separable, paint, toOption_eq_some_iff.mp (nested.trans both),
    toOption_eq_some_iff.mp both, values⟩

end SvgPage

import SvgPage.Proofs.Paint.Nesting

/-!
# Offsets without a pattern

An offset of dashes is kept as the start of a pattern, so it is inherited exactly where there is a
pattern that it can start. An element that states a pattern, in a group that states an offset, has
its dashes start there if the group has inherited dashes already. Otherwise they start at zero.
-/

namespace SvgPage

open Properties

def dashNames : List String := ["stroke-dasharray", "stroke-dashoffset"]

section

variable {defs : Definitions Float} {ps : Properties} (only : ∀ key ∈ Shelf.keys ps, key ∈ dashNames)

include only

theorem Properties.get?_of_dashes {name : String} (other : name ∉ dashNames) :
    Shelf.get? ps name = none := by
  rw [← Option.not_isSome_iff_eq_none, Shelf.isSome_get?_iff]
  exact fun stated => other (only name stated)

theorem Properties.painted_of_dashes : ps.Painted defs ↔
    ps.Passes (understood "stroke-dasharray" Dash.pattern?) ∧
      ps.Passes (understood "stroke-dashoffset" dashOffset?) := by
  have other {β : Type} {name : String} (other : name ∉ dashNames) (reader : String → Option β) :
      ps.Passes (understood name reader) := by
    intro raw found
    cases (get?_of_dashes only other).symm.trans found
  simp (disch := decide) only [Painted, paintChecks, List.forall_mem_cons, other, List.not_mem_nil,
    false_imp_iff, implies_true, true_and, and_true]

theorem PaintStyle.onto_of_dashes (inherited : PaintStyle Float) :
    onto defs ps inherited =
      { inherited with
        dash := Dash.onto (ps.value? "stroke-dasharray" Dash.pattern?)
          (ps.value? "stroke-dashoffset" dashOffset?) inherited.dash } := by
  have none {β : Type} {name : String} (other : name ∉ dashNames) (reader : String → Option β) :
      ps.value? name reader = none := by
    rw [value?, get?_of_dashes only other, Option.bind_none]
  simp (disch := decide) only [onto, colorOver, paintOver, opacityOver, none, Option.getD_none,
    Option.none_or]
  rfl

end

section

variable {offset pattern : String} {start : Float} {lengths : List Float}
  (stated : dashOffset? offset = some start) (drawn : Dash.pattern? pattern = some (some lengths))
  (defs : Definitions Float) (tag : String) (inherited : PaintStyle Float)

include stated in
theorem Context.paintStyle_offset :
    paintStyle defs tag [("stroke-dashoffset", offset)] inherited =
      .ok { inherited with dash := inherited.dash.map fun d => { d with phase := start } } := by
  have only : ∀ key ∈ Shelf.keys [("stroke-dashoffset", offset)], key ∈ dashNames := by
    simp [Shelf.keys, dashNames]
  rw [paintStyle_eq_ok_iff, painted_of_dashes only, PaintStyle.onto_of_dashes only]
  simp [Passes, understood, value?, Shelf.get?, stated, Dash.onto]

include drawn in
theorem Context.paintStyle_pattern :
    paintStyle defs tag [("stroke-dasharray", pattern)] inherited =
      .ok { inherited with dash := some ⟨lengths, (inherited.dash.map Dash.phase).getD 0⟩ } := by
  have only : ∀ key ∈ Shelf.keys [("stroke-dasharray", pattern)], key ∈ dashNames := by
    simp [Shelf.keys, dashNames]
  rw [paintStyle_eq_ok_iff, painted_of_dashes only, PaintStyle.onto_of_dashes only]
  simp [Passes, understood, value?, Shelf.get?, drawn, Dash.onto]

include stated drawn

theorem Context.paintStyle_offset_pattern :
    paintStyle defs tag [("stroke-dashoffset", offset), ("stroke-dasharray", pattern)] inherited =
      .ok { inherited with dash := some ⟨lengths, start⟩ } := by
  have only : ∀ key ∈ Shelf.keys [("stroke-dashoffset", offset), ("stroke-dasharray", pattern)],
    key ∈ dashNames := by simp [Shelf.keys, dashNames]
  rw [paintStyle_eq_ok_iff, painted_of_dashes only, PaintStyle.onto_of_dashes only]
  simp [Passes, understood, value?, Shelf.get?, stated, drawn, Dash.onto]

/-- The offset of a group is where the dashes of its member start, if the group inherits dashes; else
it is lost, and they start at zero. Nothing but the start of the dashes depends on this. -/
theorem Context.paintStyle_offset_apart_iff (group member : String) : ∃ apart together,
    (paintStyle defs group [("stroke-dashoffset", offset)] inherited).bind
        (paintStyle defs member [("stroke-dasharray", pattern)]) = .ok apart ∧
      paintStyle defs tag [("stroke-dashoffset", offset), ("stroke-dasharray", pattern)] inherited =
        .ok together ∧
      together.dash = some ⟨lengths, start⟩ ∧
      apart =
        { together with dash := some ⟨lengths, if inherited.dash.isSome then start else 0⟩ } ∧
      (apart = together ↔ inherited.dash.isSome ∨ start = 0) := by
  refine ⟨_, _, ?_, paintStyle_offset_pattern stated drawn defs tag inherited, rfl, rfl, ?_⟩
  · rw [paintStyle_offset stated]
    refine (paintStyle_pattern drawn defs member _).trans ?_
    cases inherited.dash <;> rfl
  · cases inherited.dash <;> simp [eq_comm]

end

theorem dashOffset?_two : dashOffset? "2" = some 2 := by decide +kernel

theorem Dash.pattern?_three_one : pattern? "3 1" = some (some [3, 1]) := by decide +kernel

/-- Dashes that the group inherits carry its offset over. -/
theorem Context.paintStyle_offset_apart_dashed :
    let dashed : PaintStyle Float := { PaintStyle.initial with dash := some ⟨[5], 1⟩ }
    dashOffset? "2" = some 2 ∧ Dash.pattern? "3 1" = some (some [3, 1]) ∧ ∃ paint,
      (paintStyle .empty "g" [("stroke-dashoffset", "2")] dashed).bind
          (paintStyle .empty "rect" [("stroke-dasharray", "3 1")]) = .ok paint ∧
        paintStyle .empty "rect" [("stroke-dashoffset", "2"), ("stroke-dasharray", "3 1")] dashed =
          .ok paint ∧
        paint.dash = some ⟨[3, 1], 2⟩ := by
  intro dashed
  refine ⟨dashOffset?_two, Dash.pattern?_three_one, ?_⟩
  obtain ⟨apart, together, first, second, dash, -, same⟩ := paintStyle_offset_apart_iff
    dashOffset?_two Dash.pattern?_three_one .empty "rect" dashed "g" "rect"
  obtain rfl : apart = together := same.mpr (.inl rfl)
  exact ⟨apart, first, second, dash⟩

/-- In a style without dashes the offset of a group is lost. -/
theorem Context.paintStyle_offset_lost :
    dashOffset? "2" = some 2 ∧ Dash.pattern? "3 1" = some (some [3, 1]) ∧
      (paintStyle .empty "g" [("stroke-dashoffset", "2")] .initial).bind
          (paintStyle .empty "rect" [("stroke-dasharray", "3 1")]) ≠
        paintStyle .empty "rect" [("stroke-dashoffset", "2"), ("stroke-dasharray", "3 1")]
          .initial := by
  refine ⟨dashOffset?_two, Dash.pattern?_three_one, ?_⟩
  rw [paintStyle_offset dashOffset?_two, paintStyle_offset_pattern dashOffset?_two
    Dash.pattern?_three_one]
  intro same
  have styles := Except.ok.inj ((paintStyle_pattern Dash.pattern?_three_one ..).symm.trans same)
  have start : (0 : Float) = 2 := by
    simpa [PaintStyle.initial] using congrArg PaintStyle.dash styles
  exact absurd start (by decide)

end SvgPage

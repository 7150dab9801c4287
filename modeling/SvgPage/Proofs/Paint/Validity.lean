import Mathlib.Algebra.Group.Nat.Even
import SvgPage.Proofs.Number.Order
import SvgPage.Proofs.Paint.Styling

/-!
# Valid values

The numbers among the painting properties keep to the ranges in which they mean something, whatever
their values say and whatever is inherited.
-/

namespace SvgPage

open Context Properties

/-- A number from zero to one. -/
def IsShare (v : Float) : Prop := 0 ≤ v ∧ v ≤ 1

/-- Lengths that alternate between dashes and gaps and draw something. -/
structure Dash.Valid (d : Dash Float) : Prop where
  even : Even d.pattern.length
  nonempty : d.pattern ≠ []
  nonNegative : ∀ v ∈ d.pattern, 0 ≤ v
  positive : ∃ v ∈ d.pattern, 0 < v

structure Stop.Valid (s : Stop Float) : Prop where
  offset : IsShare s.offset
  opacity : IsShare s.opacity

structure Gradient.Valid (g : Gradient Float) : Prop where
  stops : ∀ s ∈ g.stops, s.Valid
  ascending : (g.stops.map Stop.offset).Pairwise (· ≤ ·)

def Paint.Valid : Paint Float → Prop
  | .solid _ => True
  | .gradient g => g.Valid

structure PaintStyle.Valid (paint : PaintStyle Float) : Prop where
  fill : ∀ p ∈ paint.fill, p.Valid
  fillOpacity : ∀ v ∈ paint.fillOpacity, IsShare v
  stroke : ∀ p ∈ paint.stroke, p.Valid
  strokeWidth : ∀ v ∈ paint.strokeWidth, 0 ≤ v
  miterLimit : ∀ v ∈ paint.miterLimit, 1 ≤ v
  dash : ∀ d ∈ paint.dash, d.Valid
  strokeOpacity : ∀ v ∈ paint.strokeOpacity, IsShare v
  opacity : ∀ v ∈ paint.opacity, IsShare v

theorem isShare_zero : IsShare 0 := ⟨by decide +kernel, by decide +kernel⟩

theorem isShare_one : IsShare 1 := ⟨by decide +kernel, by decide +kernel⟩

theorem Opacity.isShare_of_read? {cs : List Char} {v : Float} (h : Opacity.read? cs = some v) :
    IsShare v := by
  unfold Opacity.read? at h
  obtain ⟨w, -, brought⟩ := Option.bind_eq_some_iff.mp h
  split at brought
  · next finite =>
    have number := Double.isNaN_eq_false_of_isFinite finite
    cases brought
    split
    · exact isShare_zero
    split
    · exact isShare_one
    · next notBelow notAbove =>
      have zero := (Double.isNaN_eq_false_of_le isShare_zero.1).1
      have one := (Double.isNaN_eq_false_of_le isShare_one.1).2
      exact ⟨(Double.not_lt_iff number zero).mp notBelow,
        (Double.not_lt_iff one number).mp notAbove⟩
  · cases brought

theorem nonneg_of_strokeWidth? {raw : String} {v : Float} (h : strokeWidth? raw = some v) :
    0 ≤ v := by
  obtain ⟨w, -, accepted⟩ := Option.bind_eq_some_iff.mp h
  split at accepted <;> cases accepted
  assumption

theorem one_le_of_miterLimit? {raw : String} {v : Float} (h : miterLimit? raw = some v) :
    1 ≤ v := by
  obtain ⟨w, -, accepted⟩ := Option.bind_eq_some_iff.mp h
  split at accepted <;> cases accepted
  assumption

/-- A list of odd length is doubled, so dashes and gaps alternate without end. -/
theorem even_and_nonneg_of_readDashes? {cs : List Char} {pattern : List Float}
    (h : readDashes? cs = some pattern) : Even pattern.length ∧ ∀ v ∈ pattern, 0 ≤ v := by
  obtain ⟨lengths, -, accepted⟩ := Option.bind_eq_some_iff.mp h
  split at accepted
  · next nonneg =>
    have nonneg : ∀ v ∈ lengths, 0 ≤ v := by simpa using nonneg
    cases accepted
    split
    · refine ⟨⟨lengths.length, List.length_append⟩, fun v member => ?_⟩
      exact nonneg v ((List.mem_append.mp member).elim id id)
    · exact ⟨Nat.even_iff.mpr (by omega), nonneg⟩
  · cases accepted

theorem Dash.valid_of_pattern? {raw : String} {lengths : List Float} (phase : Float)
    (h : pattern? raw = some (some lengths)) : Dash.Valid ⟨lengths, phase⟩ := by
  unfold pattern? at h
  split at h
  · cases h
  obtain ⟨pattern, read, kept⟩ := Option.map_eq_some_iff.mp h
  split at kept
  · next draws =>
    cases kept
    obtain ⟨even, nonneg⟩ := even_and_nonneg_of_readDashes? read
    have positive : ∃ v ∈ lengths, 0 < v := by simpa using draws
    have nonempty : lengths ≠ [] := List.ne_nil_of_mem positive.choose_spec.1
    exact ⟨even, nonempty, nonneg, positive⟩
  · cases kept

section

variable {β : Type} {P : β → Prop} {ps : Properties} {name : String} {reader : String → Option β}

theorem forall_mem_or {x y : Option β} (hx : ∀ v ∈ x, P v) (hy : ∀ v ∈ y, P v) :
    ∀ v ∈ x.or y, P v := by
  cases x with
  | none => exact hy
  | some a => exact hx

theorem Properties.forall_mem_value? (h : ∀ raw v, reader raw = some v → P v) :
    ∀ v ∈ ps.value? name reader, P v := by
  intro v stated
  obtain ⟨raw, -, read⟩ := Option.bind_eq_some_iff.mp stated
  exact h raw v read

theorem forall_mem_opacity? : ∀ v ∈ ps.value? name opacity?, IsShare v :=
  Properties.forall_mem_value? fun _ _ => Opacity.isShare_of_read?

end

namespace PaintStyle

variable {defs : Definitions Float} {ps : Properties}

theorem valid_initial : PaintStyle.initial.Valid where
  fill := by
    rintro _ ⟨⟩
    trivial
  fillOpacity _ := nofun
  stroke _ := nofun
  strokeWidth _ := nofun
  miterLimit _ := nofun
  dash _ := nofun
  strokeOpacity _ := nofun
  opacity _ := nofun

theorem valid_dashOver {inherited : Option (Dash Float)} (inherits : ∀ d ∈ inherited, d.Valid) :
    ∀ d ∈ Dash.onto (ps.value? "stroke-dasharray" Dash.pattern?)
      (ps.value? "stroke-dashoffset" dashOffset?) inherited, d.Valid := by
  -- The pattern alone decides; another start changes nothing.
  have started : ∀ d ∈ Dash.onto (ps.value? "stroke-dasharray" Dash.pattern?) none inherited,
      d.Valid := by
    unfold Dash.onto
    cases stated : ps.value? "stroke-dasharray" Dash.pattern? with
    | none => exact inherits
    | some pattern =>
      obtain ⟨raw, -, read⟩ := Option.bind_eq_some_iff.mp stated
      intro d member
      obtain ⟨lengths, rfl, rfl⟩ := Option.map_eq_some_iff.mp member
      exact Dash.valid_of_pattern? _ read
  cases ps.value? "stroke-dashoffset" dashOffset? with
  | none => exact started
  | some phase =>
    intro d member
    obtain ⟨own, found, rfl⟩ := Option.map_eq_some_iff.mp member
    obtain ⟨even, nonempty, nonNegative, positive⟩ := started own found
    exact ⟨even, nonempty, nonNegative, positive⟩

theorem valid_paintOver {name : String} {inherited : Option (Paint Float)} {current : Color Float}
    (registered : ∀ id g, defs.gradient? id = some g → g.Valid)
    (inherits : ∀ p ∈ inherited, p.Valid) :
    ∀ p ∈ paintOver defs ps name inherited current, p.Valid := by
  unfold paintOver
  cases stated : ps.value? name (Paint.choice? defs) with
  | none => exact inherits
  | some choice =>
    obtain ⟨raw, -, read⟩ := Option.bind_eq_some_iff.mp stated
    rw [Option.getD_some]
    cases choice with
    | passed => exact inherits
    | nothing => exact fun _ => nofun
    | current => exact fun p solid => Option.some.inj solid ▸ trivial
    | fixed paint =>
      refine fun p same => Option.some.inj same ▸ ?_
      unfold Paint.choice? at read
      dsimp only at read
      split at read
      · cases read
      split at read
      · cases read
      split at read
      · obtain ⟨id, -, read⟩ := Option.bind_eq_some_iff.mp read
        obtain ⟨g, found, chosen⟩ := Option.map_eq_some_iff.mp read
        cases chosen
        exact registered id g found
      split at read
      · cases read
      · obtain ⟨c, -, chosen⟩ := Option.map_eq_some_iff.mp read
        cases chosen
        trivial

theorem valid_onto {inherited : PaintStyle Float}
    (registered : ∀ id g, defs.gradient? id = some g → g.Valid) (inherits : inherited.Valid) :
    (onto defs ps inherited).Valid where
  fill := valid_paintOver registered inherits.fill
  fillOpacity :=
    forall_mem_or (forall_mem_or forall_mem_opacity? forall_mem_opacity?) inherits.fillOpacity
  stroke := valid_paintOver registered inherits.stroke
  strokeWidth :=
    forall_mem_or (forall_mem_value? fun _ _ => nonneg_of_strokeWidth?) inherits.strokeWidth
  miterLimit :=
    forall_mem_or (forall_mem_value? fun _ _ => one_le_of_miterLimit?) inherits.miterLimit
  dash := valid_dashOver inherits.dash
  strokeOpacity :=
    forall_mem_or (forall_mem_or forall_mem_opacity? forall_mem_opacity?) inherits.strokeOpacity
  opacity := forall_mem_or forall_mem_opacity? inherits.opacity

theorem valid_of_paintStyle {tag : String} {inherited paint : PaintStyle Float}
    (registered : ∀ id g, defs.gradient? id = some g → g.Valid) (inherits : inherited.Valid)
    (read : paintStyle defs tag ps inherited = .ok paint) : paint.Valid := by
  obtain ⟨-, rfl⟩ := paintStyle_eq_ok_iff.mp read
  exact valid_onto registered inherits

end PaintStyle

end SvgPage

import Mathlib
import SvgPage.Page.Value
import SvgPage.Proofs.Number.Exact

/-!
# The colours of a gradient

The function of a shading is read with exact numbers, as an interpreter of pages evaluates it, and
compared with the gradient that keeps its first and last colours beyond its stops.

A stitched function runs from zero to one and knows the offsets of the inner stops only. So it is
the gradient whose first stop stands at zero and whose last one stands at one.
-/

namespace SvgPage

namespace Color

variable {K : Type} [Field K] {c d : Color K} {u v : K}

def mix (c d : Color K) (u : K) : Color K :=
  ⟨c.r + u * (d.r - c.r), c.g + u * (d.g - c.g), c.b + u * (d.b - c.b)⟩

@[simp]
theorem mix_zero (c d : Color K) : c.mix d 0 = c := by
  simp [mix]

@[simp]
theorem mix_one (c d : Color K) : c.mix d 1 = d := by
  simp [mix]

@[simp]
theorem mix_self (c : Color K) (u : K) : c.mix c u = c := by
  simp [mix]

theorem channel_eq_iff {x y : K} (apart : x ≠ y) :
    x + u * (y - x) = x + v * (y - x) ↔ u = v := by
  have step : y - x ≠ 0 := sub_ne_zero.mpr apart.symm
  rw [add_right_inj, mul_left_inj' step]

theorem mix_inj (apart : c ≠ d) (same : c.mix d u = c.mix d v) : u = v := by
  simp only [mix, Color.mk.injEq] at same
  obtain ⟨red, green, blue⟩ := same
  by_contra different
  apply apart
  have agree {x y : K} (h : x + u * (y - x) = x + v * (y - x)) : x = y :=
    by_contra fun xy => different ((channel_eq_iff xy).mp h)
  rw [show c = ⟨c.r, c.g, c.b⟩ from rfl, agree red, agree green, agree blue]

theorem mix_eq_left_iff : c.mix d u = c ↔ u = 0 ∨ c = d := by
  constructor
  · intro same
    by_cases apart : c = d
    · exact .inr apart
    · exact .inl (mix_inj apart (same.trans (mix_zero c d).symm))
  · rintro (rfl | rfl) <;> simp

theorem mix_eq_right_iff : c.mix d u = d ↔ u = 1 ∨ c = d := by
  constructor
  · intro same
    by_cases apart : c = d
    · exact .inr apart
    · exact .inl (mix_inj apart (same.trans (mix_one c d).symm))
  · rintro (rfl | rfl) <;> simp

end Color

section

variable {K : Type} [Field K]

/-- The number as far between `first` and `last` as `x` is between `low` and `high`. -/
def carry (low high first last x : K) : K :=
  first + (x - low) * ((last - first) / (high - low))

theorem carry_unit (low high x : K) : carry low high 0 1 x = (x - low) / (high - low) := by
  rw [carry, zero_add, sub_zero, mul_one_div]

/-- Exponential interpolation with exponent one. -/
def Passage.eval (p : Passage K) (x : K) : Color K := p.first.mix p.last (x ^ 1)

/-- The colour on the straight line through two stops. -/
def ShadingStop.between (a b : ShadingStop K) (t : K) : Color K :=
  a.color.mix b.color ((t - a.offset) / (b.offset - a.offset))

end

namespace ColorFunction

/-- The passage between whose bounds `x` lies, evaluated where its encoding takes `x`. A bound
belongs to the passage after it, and the range ends at one. The bounds have to separate the passages. -/
noncomputable def stitchedAt? (low : ℝ) : List (Passage ℝ) → List ℝ → ℝ → Option (Color ℝ)
  | [p], [], x => some (p.eval (carry low 1 0 1 x))
  | p :: ps, b :: bs, x =>
    if x < b then some (p.eval (carry low b 0 1 x)) else stitchedAt? b ps bs x
  | _, _, _ => none

/-- The colour of a function at a number between zero and one. -/
noncomputable def at? : ColorFunction ℝ → ℝ → Option (Color ℝ)
  | .passage p, x => some (p.eval x)
  | .stitched ps bounds, x => stitchedAt? 0 ps bounds x

end ColorFunction

namespace Gradients

open ShadingStop (between)

theorem between_left (a b : ShadingStop ℝ) : between a b a.offset = a.color := by
  simp [ShadingStop.between]

theorem between_right {a b : ShadingStop ℝ} (step : a.offset < b.offset) :
    between a b b.offset = b.color := by
  rw [between, div_self (sub_ne_zero.mpr step.ne'), Color.mix_one]

theorem between_eq_left_iff {a b : ShadingStop ℝ} (step : a.offset < b.offset) {t : ℝ} :
    between a b t = a.color ↔ t = a.offset ∨ a.color = b.color := by
  rw [between, Color.mix_eq_left_iff, div_eq_zero_iff, sub_eq_zero,
    or_iff_left (sub_ne_zero.mpr step.ne')]

theorem between_eq_right_iff {a b : ShadingStop ℝ} (step : a.offset < b.offset) {t : ℝ} :
    between a b t = b.color ↔ t = b.offset ∨ a.color = b.color := by
  rw [between, Color.mix_eq_right_iff, div_eq_one_iff_eq (sub_ne_zero.mpr step.ne'), sub_left_inj]

theorem between_eq_of_flat {a b : ShadingStop ℝ} (flat : a.color = b.color) (t : ℝ) :
    between a b t = a.color := by
  rw [between, flat, Color.mix_self]

/-- A function has the colours of the gradient through some stops, the first and the last colour
being continued. -/
structure Follows (stops : List (ShadingStop ℝ)) (f : ℝ → Option (Color ℝ)) : Prop where
  before (occupied : 0 < stops.length) {t : ℝ} (inside : t ∈ Set.Icc 0 1) :
    t ≤ stops[0].offset → f t = some stops[0].color
  after {i : ℕ} (last : i + 1 = stops.length) {t : ℝ} (inside : t ∈ Set.Icc 0 1) :
    stops[i].offset ≤ t → f t = some stops[i].color
  between {i : ℕ} (next : i + 1 < stops.length) {t : ℝ} (inside : t ∈ Set.Icc 0 1) :
    stops[i].offset ≤ t → t ≤ stops[i + 1].offset → f t = some (between stops[i] stops[i + 1] t)

/-- The offsets of stops in strictly increasing order. -/
abbrev Ascending (stops : List (ShadingStop ℝ)) : Prop :=
  stops.Pairwise fun a b => a.offset < b.offset

theorem Ascending.lt {stops : List (ShadingStop ℝ)} (ascending : Ascending stops) {i j : ℕ}
    (h : i < j) (inside : j < stops.length) : stops[i].offset < stops[j].offset :=
  List.pairwise_iff_getElem.mp ascending i j (h.trans inside) inside h

theorem Ascending.le {stops : List (ShadingStop ℝ)} (ascending : Ascending stops) {i j : ℕ}
    (h : i ≤ j) (inside : j < stops.length) : stops[i].offset ≤ stops[j].offset := by
  rcases h.eq_or_lt with rfl | h
  · exact le_rfl
  · exact (ascending.lt h inside).le

/-- The same stops with the first one moved to zero and the last one moved to one. -/
noncomputable def stretched (stops : List (ShadingStop ℝ)) : List (ShadingStop ℝ) :=
  (stops.modify 0 fun a => { a with offset := 0 }).modify (stops.length - 1) fun a =>
    { a with offset := 1 }

@[simp]
theorem length_stretched (stops : List (ShadingStop ℝ)) :
    (stretched stops).length = stops.length := by
  simp [stretched]

theorem getElem_stretched {stops : List (ShadingStop ℝ)} {i : ℕ} (inside : i < stops.length)
    (inside' : i < (stretched stops).length) :
    (stretched stops)[i] =
      ⟨if i + 1 = stops.length then 1 else if i = 0 then 0 else stops[i].offset, stops[i].color⟩ := by
  simp only [stretched, List.getElem_modify]
  split_ifs <;> first | rfl | omega

theorem colors_stretched (stops : List (ShadingStop ℝ)) :
    (stretched stops).map (·.color) = stops.map (·.color) := by
  apply List.ext_getElem
  · simp
  · intro i inside inside'
    rw [List.length_map] at inside'
    simp [getElem_stretched inside']

theorem inner_stretched (stops : List (ShadingStop ℝ)) :
    (stretched stops).tail.dropLast = stops.tail.dropLast := by
  apply List.ext_getElem
  · simp
  · intro i inside inside'
    have within : i + 2 < stops.length := by simp at inside'; omega
    simp [getElem_stretched (show i + 1 < stops.length by omega), within.ne]

section

variable {stops : List (ShadingStop ℝ)} {i : ℕ}

theorem color_stretched (inside : i < stops.length) (inside' : i < (stretched stops).length) :
    (stretched stops)[i].color = stops[i].color := by
  rw [getElem_stretched inside]

theorem first_stretched (several : 1 < stops.length) (inside : 0 < (stretched stops).length) :
    (stretched stops)[0].offset = 0 := by
  rw [getElem_stretched (by omega), if_neg (by omega), if_pos rfl]

theorem last_stretched (last : i + 1 = stops.length) (inside : i < (stretched stops).length) :
    (stretched stops)[i].offset = 1 := by
  rw [getElem_stretched (by omega), if_pos last]

variable (unit : ∀ a ∈ stops, a.offset ∈ Set.Icc 0 1)
include unit

theorem stretched_le (next : i + 1 < stops.length) (inside : i < (stretched stops).length) :
    (stretched stops)[i].offset ≤ stops[i].offset := by
  rw [getElem_stretched (by omega), if_neg next.ne]
  by_cases first : i = 0
  · simpa [first] using (unit stops[0] (List.getElem_mem _)).1
  · simp [first]

theorem le_stretched (next : i + 1 < stops.length) (inside : i + 1 < (stretched stops).length) :
    stops[i + 1].offset ≤ (stretched stops)[i + 1].offset := by
  rw [getElem_stretched next, if_neg (Nat.succ_ne_zero i)]
  by_cases last : i + 1 + 1 = stops.length
  · simpa [last] using (unit stops[i + 1] (List.getElem_mem _)).2
  · simp [last]

end

theorem ascending_stretched {stops : List (ShadingStop ℝ)} (ascending : Ascending stops)
    (unit : ∀ a ∈ stops, a.offset ∈ Set.Icc 0 1) : Ascending (stretched stops) := by
  rw [Ascending, List.pairwise_iff_getElem]
  intro i j inside inside' h
  rw [length_stretched] at inside inside'
  have step := ascending.lt h inside'
  have low := (unit _ (List.getElem_mem inside)).1
  have high := (unit _ (List.getElem_mem inside')).2
  rw [getElem_stretched inside, getElem_stretched inside', if_neg (show i + 1 ≠ _ by omega),
    if_neg (show j ≠ 0 by omega)]
  by_cases last : j + 1 = stops.length <;> by_cases first : i = 0 <;>
    simp only [last, first, if_true, if_false]
  · exact zero_lt_one
  · exact step.trans_le high
  · exact (show 0 ≤ stops[i].offset from low).trans_lt step
  · exact step

end Gradients

namespace ColorFunction

open Gradients ShadingStop

/-- Between two stops a stitched function takes the straight line through them, when it runs from
the first stop and the last one stands at the end of its range. -/
theorem stitchedAt?_between {a : ShadingStop ℝ} {rest : List (ShadingStop ℝ)}
    (ascending : Ascending (a :: rest)) (ends : ∀ z ∈ rest.getLast?, z.offset = 1) (i : ℕ)
    (next : i + 1 < (a :: rest).length) {t : ℝ} (low : (a :: rest)[i].offset ≤ t)
    (high : t ≤ (a :: rest)[i + 1].offset) :
    stitchedAt? a.offset (passages (a :: rest)) (rest.dropLast.map (·.offset)) t =
      some (between (a :: rest)[i] (a :: rest)[i + 1] t) := by
  -- Each passage hands the later ones over to the rest of the list.
  induction rest generalizing a i with
  | nil => simp at next
  | cons b rest ih =>
    cases rest with
    | nil =>
      obtain rfl : i = 0 := by simpa using next
      have ends : b.offset = 1 := ends b (by simp)
      simp [passages, stitchedAt?, Passage.eval, carry_unit, between, ends]
    | cons c rest =>
      have later : Ascending (b :: c :: rest) := ascending.tail
      simp only [passages, List.dropLast_cons_cons, List.map_cons, stitchedAt?]
      by_cases below : t < b.offset
      · have first : i = 0 := by
          by_contra other
          have := ascending.le (show 1 ≤ i by omega) (Nat.lt_of_succ_lt next)
          exact absurd (this.trans low) (not_le.mpr below)
        subst first
        simp [below, Passage.eval, carry_unit, between]
      · rw [if_neg below]
        have following := ih later (by simpa using ends)
        cases i with
        | zero =>
          obtain rfl : t = b.offset := le_antisymm high (not_lt.mp below)
          have := following 0 (by simp) le_rfl (later.le (Nat.zero_le 1) (by simp))
          refine this.trans (congrArg some ?_)
          exact (between_left b c).trans
            (between_right (ascending.lt Nat.zero_lt_one (by simp))).symm
        | succ i => exact following i (by simpa using next) low high

theorem passages_eq_zipWith {α : Type} (stops : List (ShadingStop α)) :
    passages stops = List.zipWith .mk (stops.map (·.color)) (stops.map (·.color)).tail := by
  fun_induction passages stops with
  | case1 a b rest ih => simpa using ih
  | case2 stops short =>
    cases stops with
    | nil => rfl
    | cons a rest =>
      cases rest with
      | nil => rfl
      | cons b rest => exact (short a b rest rfl).elim

theorem passages_stretched (stops : List (ShadingStop ℝ)) :
    passages (stretched stops) = passages stops := by
  rw [passages_eq_zipWith, colors_stretched, ← passages_eq_zipWith]

theorem ofStops_stitched {a b c : ShadingStop ℝ} {rest : List (ShadingStop ℝ)}
    (unit : ∀ s ∈ a :: b :: c :: rest, s.offset ∈ Set.Icc 0 1) :
    ofStops (a :: b :: c :: rest) =
      .stitched (passages (a :: b :: c :: rest)) ((b :: c :: rest).dropLast.map (·.offset)) := by
  refine congrArg (stitched _) (List.map_congr_left fun s inside => Scalar.clamp_unit ?_)
  exact unit s (List.mem_cons_of_mem a (List.mem_of_mem_dropLast inside))

/-- The function through some stops passes between them as if the first one stood at zero and the
last one at one. -/
theorem at?_ofStops_between {stops : List (ShadingStop ℝ)} (ascending : Ascending stops)
    (unit : ∀ a ∈ stops, a.offset ∈ Set.Icc 0 1) (i : ℕ) (next : i + 1 < (stretched stops).length)
    {t : ℝ} (low : (stretched stops)[i].offset ≤ t) (high : t ≤ (stretched stops)[i + 1].offset) :
    (ofStops stops).at? t = some (between (stretched stops)[i] (stretched stops)[i + 1] t) := by
  match stops with
  | [] => simp at next
  | [a] => simp at next
  | [a, b] =>
    obtain rfl : i = 0 := by simpa using next
    simp [ofStops, at?, Passage.eval, between, stretched]
  | a :: b :: c :: rest =>
    have ordered := ascending_stretched ascending unit
    have inner := inner_stretched (a :: b :: c :: rest)
    have start : ∀ s ∈ (stretched (a :: b :: c :: rest)).head?, s.offset = 0 := by
      simp [stretched]
    have finish : ∀ s ∈ (stretched (a :: b :: c :: rest)).getLast?, s.offset = 1 := by
      simp [List.getLast?_eq_getElem?, getElem_stretched]
    rw [ofStops_stitched unit, at?, ← passages_stretched]
    obtain ⟨a', rest', eq⟩ := List.exists_cons_of_length_pos (Nat.zero_lt_of_lt next)
    simp only [eq, List.tail_cons] at inner start finish ordered low high next ⊢
    rw [← inner, ← start a' rfl]
    refine stitchedAt?_between ordered (fun z last => finish z ?_) i next low high
    simp [List.getLast?_cons, Option.mem_def.mp last]

theorem at?_ofStops_single (a : ShadingStop ℝ) (t : ℝ) : (ofStops [a]).at? t = some a.color := by
  simp [ofStops, at?, Passage.eval]

/-- The function through some stops has the colours of the stretched gradient. -/
theorem follows_stretched {stops : List (ShadingStop ℝ)} (ascending : Ascending stops)
    (unit : ∀ a ∈ stops, a.offset ∈ Set.Icc 0 1) :
    Follows (stretched stops) (ofStops stops).at? := by
  have ordered := ascending_stretched ascending unit
  have passage := at?_ofStops_between ascending unit
  constructor
  · intro occupied t inside low
    rw [length_stretched] at occupied
    by_cases several : 1 < stops.length
    · have start := first_stretched several (by simpa)
      obtain rfl : t = (stretched stops)[0].offset := le_antisymm low (start ▸ inside.1)
      rw [passage 0 (by simpa using several) le_rfl (ordered.le (Nat.zero_le 1) (by simpa)),
        between_left]
    · obtain ⟨a, rfl⟩ := List.length_eq_one_iff.mp (show stops.length = 1 by omega)
      exact at?_ofStops_single a t
  · intro i last t inside high
    rw [length_stretched] at last
    have finish := last_stretched last (by simp; omega)
    cases i with
    | zero =>
      obtain ⟨a, rfl⟩ := List.length_eq_one_iff.mp last.symm
      exact at?_ofStops_single a t
    | succ i =>
      obtain rfl : t = (stretched stops)[i + 1].offset := le_antisymm (finish ▸ inside.2) high
      have step : (stretched stops)[i].offset < (stretched stops)[i + 1].offset :=
        ordered.lt (Nat.lt_succ_self i) (by simp; omega)
      rw [passage i (by simp; omega) step.le le_rfl, between_right step]
  · intro i next t _ low high
    exact passage i next low high

end ColorFunction

namespace Gradients

open ShadingStop (between)

/-- The colours do not change before an inner first stop and after an inner last one. -/
structure Anchored (stops : List (ShadingStop ℝ)) : Prop where
  first (several : 1 < stops.length) : stops[0].offset = 0 ∨ stops[0].color = stops[1].color
  last {i : ℕ} (end_ : i + 2 = stops.length) :
    stops[i + 1].offset = 1 ∨ stops[i].color = stops[i + 1].color

variable {stops : List (ShadingStop ℝ)} {f : ℝ → Option (Color ℝ)}

theorem Follows.anchored (ascending : Ascending stops) (unit : ∀ a ∈ stops, a.offset ∈ Set.Icc 0 1)
    (far : Follows (stretched stops) f) (near : Follows stops f) : Anchored stops := by
  have ordered := ascending_stretched ascending unit
  have bound := length_stretched stops
  constructor
  · intro several
    have inside := unit stops[0] (List.getElem_mem _)
    have value := far.between (by simpa) inside (stretched_le unit several (by omega))
      ((ascending.le (Nat.zero_le 1) several).trans (le_stretched unit several (by omega)))
    rw [near.before (by omega) inside le_rfl, ← color_stretched (by omega) (by omega)] at value
    rcases (between_eq_left_iff (ordered.lt (Nat.lt_succ_self 0) (by omega))).mp
      (Option.some.inj value).symm with start | flat
    · exact .inl (start.trans (first_stretched several (by omega)))
    · rw [color_stretched (Nat.zero_lt_of_lt several), color_stretched several] at flat
      exact .inr flat
  · intro i end_
    have next : i + 1 < stops.length := by omega
    have inside := unit stops[i + 1] (List.getElem_mem _)
    have value := far.between (by omega) inside
      ((stretched_le unit next (by omega)).trans (ascending.le (Nat.le_succ i) next))
      (le_stretched unit next (by omega))
    rw [near.after end_ inside le_rfl, ← color_stretched next (by omega)] at value
    rcases (between_eq_right_iff (ordered.lt (Nat.lt_succ_self i) (by omega))).mp
      (Option.some.inj value).symm with finish | flat
    · exact .inl (finish.trans (last_stretched end_ (by omega)))
    · rw [color_stretched (Nat.lt_of_succ_lt next), color_stretched next] at flat
      exact .inr flat

theorem Anchored.between_stretched (anchored : Anchored stops) {i : ℕ} (next : i + 1 < stops.length)
    (next' : i + 1 < (stretched stops).length) (t : ℝ) :
    between (stretched stops)[i] (stretched stops)[i + 1] t = between stops[i] stops[i + 1] t := by
  by_cases flat : stops[i].color = stops[i + 1].color
  · rw [between_eq_of_flat flat, between_eq_of_flat, color_stretched (Nat.lt_of_succ_lt next)]
    rwa [color_stretched (Nat.lt_of_succ_lt next), color_stretched next]
  · rw [getElem_stretched (Nat.lt_of_succ_lt next), getElem_stretched next, if_neg next.ne,
      if_neg (Nat.succ_ne_zero i)]
    have first (h : i = 0) : stops[i].offset = 0 := by
      subst h
      exact (anchored.first next).resolve_right flat
    have last (h : i + 1 + 1 = stops.length) : stops[i + 1].offset = 1 :=
      (anchored.last h).resolve_right flat
    congr 2
    · split_ifs with h
      · rw [← first h]
        rfl
      · rfl
    · split_ifs with h
      · rw [← last h]
        rfl
      · rfl

theorem Anchored.follows (ascending : Ascending stops) (unit : ∀ a ∈ stops, a.offset ∈ Set.Icc 0 1)
    (far : Follows (stretched stops) f) (anchored : Anchored stops) : Follows stops f := by
  have ordered := ascending_stretched ascending unit
  have bound := length_stretched stops
  constructor
  · intro occupied t inside low
    by_cases several : 1 < stops.length
    · have high := low.trans (ascending.le (Nat.zero_le 1) several)
      have start := first_stretched several (by omega)
      rw [far.between (by omega) inside (start ▸ inside.1)
        (high.trans (le_stretched unit several (by omega))), anchored.between_stretched several,
        (between_eq_left_iff (ascending.lt Nat.zero_lt_one several)).mpr]
      refine (anchored.first several).imp_left fun zero => ?_
      exact le_antisymm low (zero ▸ inside.1)
    · have finish := last_stretched (show 0 + 1 = stops.length by omega) (by omega)
      rw [far.before (by omega) inside (finish ▸ inside.2), color_stretched occupied]
  · intro i last t inside high
    cases i with
    | zero =>
      have finish := last_stretched last (by omega)
      rw [far.before (by omega) inside (finish ▸ inside.2), color_stretched (by omega)]
    | succ i =>
      have next : i + 1 < stops.length := by omega
      have low := (ascending.le (Nat.le_succ i) next).trans high
      have finish := last_stretched last (by omega)
      rw [far.between (by omega) inside ((stretched_le unit next (by omega)).trans low)
        (finish ▸ inside.2), anchored.between_stretched next,
        (between_eq_right_iff (ascending.lt (Nat.lt_succ_self i) next)).mpr]
      refine (anchored.last last).imp_left fun one => ?_
      exact le_antisymm (one ▸ inside.2) high
  · intro i next t inside low high
    rw [far.between (by omega) inside ((stretched_le unit next (by omega)).trans low)
      (high.trans (le_stretched unit next (by omega))), anchored.between_stretched next]

/-- The function of a shading has the colours of the gradient whose first stop is moved to zero and
whose last stop is moved to one. These are the colours of the gradient itself only where it
does not change before its first and after its last inner stop. -/
theorem ofStops_follows_iff (ascending : Ascending stops)
    (unit : ∀ a ∈ stops, a.offset ∈ Set.Icc 0 1) :
    Follows (stretched stops) (ColorFunction.ofStops stops).at? ∧
      (Follows stops (ColorFunction.ofStops stops).at? ↔ Anchored stops) := by
  have far := ColorFunction.follows_stretched ascending unit
  exact ⟨far, fun near => far.anchored ascending unit near, fun anchored =>
    anchored.follows ascending unit far⟩

/-- From black to red, half of it in the first quarter. -/
noncomputable def reddening : List (ShadingStop ℝ) :=
  [⟨0, ⟨0, 0, 0⟩⟩, ⟨0.25, ⟨0.5, 0, 0⟩⟩, ⟨1, ⟨1, 0, 0⟩⟩]

theorem ofStops_follows_iff_reddening :
    Ascending reddening ∧ (∀ a ∈ reddening, a.offset ∈ Set.Icc 0 1) ∧
      Follows reddening (ColorFunction.ofStops reddening).at? := by
  have ascending : Ascending reddening := by
    norm_num [reddening, Ascending]
  have unit : ∀ a ∈ reddening, a.offset ∈ Set.Icc 0 1 := by
    norm_num [reddening]
  refine ⟨ascending, unit, (ofStops_follows_iff ascending unit).2.mpr ⟨fun _ => .inl rfl, ?_⟩⟩
  intro i end_
  obtain rfl : i = 1 := by simpa [reddening] using end_
  exact .inl rfl

/-- From black to white, both of them within the range. -/
noncomputable def brightening : List (ShadingStop ℝ) :=
  [⟨0.25, ⟨0, 0, 0⟩⟩, ⟨0.75, ⟨1, 1, 1⟩⟩]

/-- At the first stop the function of the shading is a quarter of the way to white already. -/
theorem ofStops_brightening_early :
    Ascending brightening ∧ (∀ a ∈ brightening, a.offset ∈ Set.Icc 0 1) ∧
      (ColorFunction.ofStops brightening).at? 0.25 = some ⟨0.25, 0.25, 0.25⟩ ∧
      ¬ Follows brightening (ColorFunction.ofStops brightening).at? := by
  have early : (ColorFunction.ofStops brightening).at? 0.25 = some ⟨0.25, 0.25, 0.25⟩ := by
    simp [brightening, ColorFunction.ofStops, ColorFunction.at?, Passage.eval, Color.mix]
  refine ⟨by norm_num [brightening, Ascending], by norm_num [brightening], early, ?_⟩
  intro follows
  have black := follows.before (by simp [brightening]) (by norm_num) (le_refl 0.25)
  rw [early] at black
  norm_num [brightening] at black

end Gradients

end SvgPage

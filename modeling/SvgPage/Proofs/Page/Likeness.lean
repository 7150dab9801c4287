import SvgPage.Proofs.Page.Paintings

/-!
# Likeness of marks

A name leads to a resource that cannot be told from the one that was asked for, but need not be that
one. So the machine leaves marks that are like the expected ones. Operators are known by how they
take every state like the expected one to a state like the next.
-/

namespace SvgPage.Machine

/-- A font at a size; fonts are known by their identity. -/
def SameFont (f g : Font × Float) : Prop := f.1.identity = g.1.identity ∧ f.2 = g.2

/-- States that agree up to thousandths of opacity and the identity of the font. -/
structure State.Like (s t : State) : Prop where
  space : s.space = t.space
  cuts : s.cuts = t.cuts
  fillColor : s.fillColor = t.fillColor
  strokeColor : s.strokeColor = t.strokeColor
  lineWidth : s.lineWidth = t.lineWidth
  lineJoin : s.lineJoin = t.lineJoin
  miterLimit : s.miterLimit = t.miterLimit
  lineCap : s.lineCap = t.lineCap
  dash : s.dash = t.dash
  fillOpacity : SameMilli s.fillOpacity t.fillOpacity
  strokeOpacity : SameMilli s.strokeOpacity t.strokeOpacity
  blendMode : s.blendMode = t.blendMode
  font : Option.Rel SameFont s.font t.font
  renderMode : s.renderMode = t.renderMode

namespace State

theorem sameFont_refl (f : Option (Font × Float)) : Option.Rel SameFont f f := by
  cases f with
  | none => exact .none
  | some f => exact .some ⟨rfl, rfl⟩

namespace Like

variable {s t : State}

theorem refl (s : State) : s.Like s :=
  ⟨rfl, rfl, rfl, rfl, rfl, rfl, rfl, rfl, rfl, rfl, rfl, rfl, sameFont_refl _, rfl⟩

theorem through (h : s.Like t) (ms : List (Matrix Float)) : (s.through ms).Like (t.through ms) :=
  { h with space := by simp [State.through, h.space] }

theorem cutTo (h : s.Like t) (outline : List (PathOp Float)) (rule : FillRule) :
    (s.cutTo outline rule).Like (t.cutTo outline rule) :=
  { h with cuts := by simp [State.cutTo, h.cuts, h.space] }

theorem impose (h : s.Like t) {g g' : GraphicsState} (alike : g.Alike g') :
    (s.impose g).Like (t.impose g') := by
  have sameOpacity : ∀ {o o' : Option Float} {x x' : Float}, Option.Rel SameMilli o o' →
      SameMilli x x' → SameMilli (o.getD x) (o'.getD x') := by
    intro o o' x x' ho hx
    cases ho with
    | none => exact hx
    | some same => exact same
  exact { h with
    fillOpacity := sameOpacity alike.fillOpacity h.fillOpacity
    strokeOpacity := sameOpacity alike.strokeOpacity h.strokeOpacity
    blendMode := by simp [State.impose, alike.blendMode, h.blendMode] }

theorem adopt (h : s.Like t) (p : Settings) {f : Option (Font × Float)}
    (font : Option.Rel SameFont f p.font) :
    (s.adopt { p with font := f }).Like (t.adopt p) where
  space := h.space
  cuts := h.cuts
  fillColor := by simp [State.adopt, h.fillColor]
  strokeColor := by simp [State.adopt, h.strokeColor]
  lineWidth := by simp [State.adopt, h.lineWidth]
  lineJoin := by simp [State.adopt, h.lineJoin]
  miterLimit := by simp [State.adopt, h.miterLimit]
  lineCap := by simp [State.adopt, h.lineCap]
  dash := by simp [State.adopt, h.dash]
  fillOpacity := h.fillOpacity
  strokeOpacity := h.strokeOpacity
  blendMode := h.blendMode
  font := by
    generalize own : p.font = own' at font
    cases font with
    | none => simpa [State.adopt, own] using h.font
    | some same => simpa [State.adopt, own] using same
  renderMode := by simp [State.adopt, h.renderMode]

end Like

end State

/-- Acts that differ at most in what their resources cannot tell apart. -/
def Act.Like : Act → Act → Prop
  | .image i, .image j => i.identity = j.identity
  | .shading s, .shading t => s.Alike t
  | a, b => a = b

theorem Act.Like.refl (a : Act) : a.Like a := by
  cases a with
  | shading s => exact (Shading.key_eq_key_iff s s).mp rfl
  | _ => rfl

section

variable {a : Act}

theorem Act.Like.eq_fill {outline : List (PathOp Float)} {rule : FillRule}
    (h : a.Like (.fill outline rule)) : a = .fill outline rule := by
  cases a <;> exact h

theorem Act.Like.eq_fillStroke {outline : List (PathOp Float)} {rule : FillRule}
    (h : a.Like (.fillStroke outline rule)) : a = .fillStroke outline rule := by
  cases a <;> exact h

theorem Act.Like.eq_glyphs {bytes : List UInt8} {m : Matrix Float} (h : a.Like (.glyphs bytes m)) :
    a = .glyphs bytes m := by
  cases a <;> exact h

end

structure Mark.Like (m m' : Mark) : Prop where
  act : m.act.Like m'.act
  state : m.state.Like m'.state

/-- Operators that take a state to another and leave some marks, all up to likeness. -/
def Shows (r : Resources) (ops : List Operator) (s s' : State) (ms : List Mark) : Prop :=
  ∀ t, t.Like s → ∃ t' ms', Draws r ops t t' ms' ∧ t'.Like s' ∧ List.Forall₂ Mark.Like ms' ms

/-- Operators that leave some marks, up to likeness, and the state exactly as it was. -/
def Paints (r : Resources) (ops : List Operator) (s : State) (ms : List Mark) : Prop :=
  ∀ t, t.Like s → ∃ ms', Draws r ops t t ms' ∧ List.Forall₂ Mark.Like ms' ms

variable {r : Resources} {ops ops' : List Operator} {s s' s'' : State} {ms ms' : List Mark}

namespace Shows

theorem nil (s : State) : Shows r [] s s [] := fun t ht => ⟨t, [], .nil t, ht, .nil⟩

theorem append (h : Shows r ops s s' ms) (h' : Shows r ops' s' s'' ms') :
    Shows r (ops ++ ops') s s'' (ms ++ ms') := by
  intro t ht
  obtain ⟨u, first, draws, hu, like⟩ := h t ht
  obtain ⟨v, second, draws', hv, like'⟩ := h' u hu
  exact ⟨v, first ++ second, draws.append draws', hv, List.rel_append like like'⟩

theorem change {f : State → State} (draws : ∀ t, Draws r ops t (f t) [])
    (like : ∀ t, t.Like s → (f t).Like s') : Shows r ops s s' [] :=
  fun t ht => ⟨f t, [], draws t, like t ht, .nil⟩

/-- What a saved state is restored from does not matter. -/
theorem bracket (h : Shows r ops s s' ms) : Paints r (.push :: ops ++ [.pop]) s ms := by
  intro t ht
  obtain ⟨_, new, draws, -, like⟩ := h t ht
  exact ⟨new, draws.bracket, like⟩

end Shows

namespace Paints

theorem nil (s : State) : Paints r [] s [] := fun t _ => ⟨[], .nil t, .nil⟩

theorem append (h : Paints r ops s ms) (h' : Paints r ops' s ms') :
    Paints r (ops ++ ops') s (ms ++ ms') := by
  intro t ht
  obtain ⟨first, draws, like⟩ := h t ht
  obtain ⟨second, draws', like'⟩ := h' t ht
  exact ⟨first ++ second, draws.append draws', List.rel_append like like'⟩

theorem shows (h : Paints r ops s ms) : Shows r ops s s ms := by
  intro t ht
  obtain ⟨new, draws, like⟩ := h t ht
  exact ⟨t, new, draws, ht, like⟩

theorem mark {op : Operator} {a b : Act} (h : ∀ c : Config, step r c op = some (c.mark a))
    (like : a.Like b) (s : State) : Paints r [op] s [⟨b, s⟩] :=
  fun t ht => ⟨[⟨a, t⟩], .mark h t, .cons ⟨like, ht⟩ .nil⟩

end Paints

end SvgPage.Machine

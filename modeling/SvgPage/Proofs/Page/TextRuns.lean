import SvgPage.Proofs.Page.Correctness

/-!
# Runs of text

A run is shown in the font, size and colours of its own text. Filling alone is never set as a mode,
though: such a run keeps the mode that the texts around it have set.
-/

namespace SvgPage

open Machine Drawing

namespace Run

variable (s : State)

/-- The state that the texts around a run leave to it. -/
def surroundings (r : Run) : State :=
  (r.around.flatMap fun p => scopesOf p.1 p.2).foldl State.enter s

theorem mark_state (r : Run) : (r.mark s).state = (r.surroundings s).adopt (.ofRun r.style) := by
  simp [mark, painting, Painting.mark, surroundings, Scope.ofRun]

theorem renderMode_ofText (t : TextStyle Float) :
    (s.enter (.ofText t)).renderMode = s.renderMode := by
  simp only [State.enter, State.adopt, State.impose, State.cutToClip, Scope.ofText, Scope.ofNode]
  cases t.base.clip <;> rfl

theorem renderMode_adopt_ofRun (t : TextStyle Float) :
    (s.adopt (.ofRun t)).renderMode = if t.mode = 0 then s.renderMode else t.mode := by
  by_cases plain : t.mode = 0 <;> simp [State.adopt, Settings.ofRun, Settings.ofGlyphs, plain]

/-- A text leaves mode zero inside it unless it has shown characters in another mode. -/
theorem renderMode_scopesOf (t : TextStyle Float) (shown : Bool) :
    ((scopesOf t shown).foldl State.enter s).renderMode = 0 ↔
      (shown = true → t.mode = 0) ∧ s.renderMode = 0 := by
  cases shown with
  | false => simp [scopesOf, renderMode_ofText]
  | true =>
    have entered : ((scopesOf t true).foldl State.enter s) =
        (s.enter (.ofText t)).adopt (.ofRun t) := inside_true t s
    rw [entered, renderMode_adopt_ofRun, renderMode_ofText]
    by_cases plain : t.mode = 0
    · simp [plain]
    · simp [plain]

theorem renderMode_around (around : List (TextStyle Float × Bool)) (s : State) :
    ((around.flatMap fun p => scopesOf p.1 p.2).foldl State.enter s).renderMode = 0 ↔
      (∀ p ∈ around, p.2 = true → p.1.mode = 0) ∧ s.renderMode = 0 := by
  induction around generalizing s with
  | nil => simp
  | cons p around ih =>
    rw [List.flatMap_cons, List.foldl_append, ih, renderMode_scopesOf, List.forall_mem_cons]
    tauto

/-- Whether the mode of a run reaches it: it sets the mode itself, or none of the texts around it
has set one. -/
def ModeReaches (r : Run) : Prop :=
  r.style.mode ≠ 0 ∨ ∀ p ∈ r.around, p.2 = true → p.1.mode = 0

theorem renderMode_eq_mode_iff (r : Run) (plain : s.renderMode = 0) :
    (r.mark s).state.renderMode = r.style.mode ↔ r.ModeReaches := by
  rw [mark_state, renderMode_adopt_ofRun, ModeReaches]
  by_cases own : r.style.mode = 0
  · have inherited := renderMode_around r.around s
    simpa [own, plain, surroundings] using inherited
  · simp [own]

/-- A mark that shows a run, in its own font, size and colours; in its own mode just if that
reaches it. -/
structure ShownBy (r : Run) (m : Mark) : Prop where
  act : m.act = .glyphs (r.style.font.encode (String.ofList r.characters))
    ⟨1, 0, 0, -1, r.pen.x, r.pen.y⟩
  font : ∃ f, m.state.font = some (f, r.style.size) ∧ f.identity = r.style.font.identity
  fillColor : ∀ c, r.style.fillColor? = some c → m.state.fillColor = c
  strokeColor : ∀ c, r.style.strokeColor? = some c → m.state.strokeColor = c
  mode : m.state.renderMode = r.style.mode ↔ r.ModeReaches

theorem shownBy_of_like (r : Run) {m : Mark} (plain : s.renderMode = 0)
    (like : m.Like (r.mark s)) : r.ShownBy m := by
  have state := like.state
  rw [mark_state] at state
  refine ⟨like.act.eq_glyphs, ?_, ?_, ?_, ?_⟩
  · have font := state.font
    simp only [State.adopt, Settings.ofRun, Settings.ofGlyphs, Option.some_or] at font
    generalize m.state.font = shown at font
    cases font with
    | some same => exact ⟨_, congrArg some (Prod.ext rfl same.2), same.1⟩
  · intro c own
    simpa [State.adopt, Settings.ofRun, own] using state.fillColor
  · intro c own
    simpa [State.adopt, Settings.ofRun, own] using state.strokeColor
  · rw [like.state.renderMode]
    exact renderMode_eq_mode_iff s r plain

end Run

/-- Compiled texts show their runs in order, each in the font, size and colours of its own text. The
mode is that of its own text if that is not to fill alone, or if no text around it has shown
characters in a mode other than that; and only then. -/
theorem TextStyle.runs_shown (t : TextStyle Float) (items : List (TextItem Float))
    (requests : List Resources.Request) (s : State) (saved : List State)
    (plain : s.renderMode = 0) :
    ∃ marks, (Node.text t items).runFrom requests s saved = some (.idle s saved marks) ∧
      List.Forall₂ Run.ShownBy (t.runs items) marks := by
  obtain ⟨marks, runs, like⟩ := (Node.text t items).exists_marks requests s saved
  refine ⟨marks, runs, ?_⟩
  rw [Node.paintings, List.map_map, List.forall₂_map_right_iff] at like
  exact like.flip.imp fun r m h => r.shownBy_of_like s plain h

/-- A text in the given paints. -/
def TextStyle.ofPaints (fill stroke : Option (Paint Float)) : TextStyle Float :=
  { font := .helvetica, size := 1, fill, stroke, fillOpacity := none, strokeOpacity := none,
    x := none, y := none, base := .plain }

def TextStyle.stroked : TextStyle Float := .ofPaints none (some (.solid .black))

/-- Characters, then characters in a text that is filled. -/
def filledAfterOwn : List (TextItem Float) :=
  [.literal ['a'], .nested (.ofPaints (some (.solid .black)) none) [.literal ['b']]]

theorem runs_shown_stroked :
    State.initial.renderMode = 0 ∧
    ∃ marks,
      (Node.text .stroked filledAfterOwn).runFrom [] .initial [] =
        some (.idle .initial [] marks) ∧
      List.Forall₂ Run.ShownBy (TextStyle.stroked.runs filledAfterOwn) marks :=
  ⟨rfl, TextStyle.runs_shown .stroked filledAfterOwn [] .initial [] rfl⟩

/-- A filled run is shown in the mode of the stroked text around it. -/
theorem filled_in_stroked_mode :
    ((Node.text .stroked filledAfterOwn).runFrom [] .initial []).map
      (fun c => c.marks.map fun m => m.state.renderMode) = some [1, 1] ∧
    (TextStyle.stroked.runs filledAfterOwn).map (fun r => r.style.mode) = [1, 0] := by
  decide +kernel

end SvgPage

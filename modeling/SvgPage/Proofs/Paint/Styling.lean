import SvgPage.Proofs.Scene.Relaxation

/-!
# Painting properties

Whether the painting properties of an element are accepted depends on their values alone, neither on
what is inherited nor on the element. Where they are accepted, each part of the paint style is what
the element states for it, laid over what is inherited.
-/

namespace SvgPage

namespace Properties

variable {β : Type} {ps : Properties} {tag name : String} {reader : String → Option β}

/-- A property as a reader understands it. -/
def value? (ps : Properties) (name : String) (reader : String → Option β) : Option β :=
  (Shelf.get? ps name).bind reader

/-- The property is absent, or there is a test that its value passes. -/
def Passes (ps : Properties) (check : String × (String → Bool)) : Prop :=
  ∀ raw, Shelf.get? ps check.1 = some raw → check.2 raw = true

/-- The test of a property that a reader has to understand. -/
def understood (name : String) (reader : String → Option β) : String × (String → Bool) :=
  (name, fun raw => (reader raw).isSome)

theorem toOption_eq_some_iff {α : Type} {x : Except Problem α} {a : α} :
    x.toOption = some a ↔ x = .ok a := by
  cases x <;> simp [Except.toOption]

theorem required_eq_ok_iff {α : Type} {problem : Problem} {x : Option α} {a : α} :
    required problem x = .ok a ↔ x = some a := by
  cases x <;> simp [required]

theorem pure_eq_ok_iff {α : Type} {a b : α} : (pure a : Except Problem α) = .ok b ↔ b = a := by
  rw [eq_comm]
  exact ⟨Except.ok.inj, congrArg _⟩

theorem bind_eq_ok_iff {α γ : Type} {x : Except Problem α} {f : α → Except Problem γ} {P : Prop}
    {a : α} (determined : ∀ b, x = .ok b ↔ P ∧ b = a) {c : γ} :
    (x >>= f) = .ok c ↔ P ∧ f a = .ok c := by
  constructor
  · intro h
    obtain ⟨b, read, rest⟩ := exists_of_bind_eq_ok h
    obtain ⟨accepted, rfl⟩ := (determined b).mp read
    exact ⟨accepted, rest⟩
  · rintro ⟨accepted, rest⟩
    rw [(determined a).mpr ⟨accepted, rfl⟩]
    exact rest

/-- What depends on the value of a property and gives a result where a reader understands it. -/
theorem eq_ok_iff_of_reader {γ : Type} {x : Except Problem γ} {g : Option β → γ}
    (absent : Shelf.get? ps name = none → x = .ok (g none))
    (present : ∀ raw, Shelf.get? ps name = some raw →
      x.toOption = (reader raw).map fun b => g (some b)) {c : γ} :
    x = .ok c ↔ ps.Passes (understood name reader) ∧ c = g (ps.value? name reader) := by
  unfold Passes understood value?
  cases found : Shelf.get? ps name with
  | none =>
    rw [absent found]
    exact ⟨fun same => ⟨nofun, (Except.ok.inj same).symm⟩, fun same => same.2 ▸ rfl⟩
  | some raw =>
    rw [← toOption_eq_some_iff, present raw found]
    cases read : reader raw with
    | none => simp [read]
    | some b => simpa [read] using eq_comm

theorem read_eq_ok_iff {b : Option β} : ps.read tag name reader = .ok b ↔
    ps.Passes (understood name reader) ∧ b = ps.value? name reader := by
  unfold Properties.read
  refine eq_ok_iff_of_reader (g := id) (fun absent => by rw [absent]; rfl) fun raw found => ?_
  rw [found]
  change ((required _ (reader raw)).map some).toOption = _
  cases reader raw <;> rfl

theorem passes_understood_map {γ : Type} (f : β → γ) :
    ps.Passes (understood name fun raw => (reader raw).map f) ↔
      ps.Passes (understood name reader) := by
  simp [Passes, understood]

theorem value?_map {γ : Type} (f : β → γ) :
    (ps.value? name fun raw => (reader raw).map f) = (ps.value? name reader).map f := by
  unfold value?
  cases Shelf.get? ps name <;> rfl

end Properties

/-- What a value of `color` states; nothing, where it passes on what is inherited. -/
def Color.stated? (raw : String) : Option (Option (Color Float)) :=
  if isWordColor raw "currentcolor" || raw == "inherit" then some none
  else (Color.read? raw.toList).map some

def Definitions.gradient? (defs : Definitions Float) (id : String) : Option (Gradient Float) :=
  match defs.get? id with
  | some (.gradient g) => some g
  | _ => none

theorem Definitions.toOption_gradient (defs : Definitions Float) (tag id : String) :
    (defs.gradient tag id).toOption = defs.gradient? id := by
  unfold gradient gradient?
  cases defs.get? id with
  | none => rfl
  | some d => cases d <;> rfl

namespace Paint

inductive Choice where
  | passed
  | nothing
  | current
  | fixed (p : Paint Float)
  deriving DecidableEq, Repr

/-- The paint that a choice makes of the inherited one and the current colour. -/
def Choice.onto (inherited : Option (Paint Float)) (current : Color Float) :
    Choice → Option (Paint Float)
  | .passed => inherited
  | .nothing => none
  | .current => some (.solid current)
  | .fixed p => some p

def choice? (defs : Definitions Float) (raw : String) : Option Choice :=
  let value := Text.trim raw.toList
  if value = "none".toList then some .nothing
  else if value.isEmpty || value == "inherit".toList then some .passed
  else if Reference.isReference value then
    (Reference.id? value).bind fun id => (defs.gradient? id).map fun g => .fixed (.gradient g)
  else if Text.sameIgnoringCase value "currentcolor".toList then some .current
  else (Color.read? value).map fun c => .fixed (.solid c)

end Paint

namespace Dash

/-- What a value of `stroke-dasharray` states: a pattern that draws gaps, or that there is none. -/
def pattern? (raw : String) : Option (Option (List Float)) :=
  if raw = "none" then some none
  else
    (readDashes? raw.toList).map fun pattern =>
      if pattern.any (0 < ·) then some pattern else none

/-- The dashes that a pattern and an offset make of the inherited ones. -/
def onto (pattern : Option (Option (List Float))) (offset : Option Float)
    (inherited : Option (Dash Float)) : Option (Dash Float) :=
  let start : Float := (inherited.map Dash.phase).getD 0
  let dash := pattern.elim inherited fun p => p.map fun lengths => ⟨lengths, start⟩
  offset.elim dash fun phase => dash.map fun d => { d with phase := phase }

end Dash

open Context Properties

def opacity? (raw : String) : Option Float := Opacity.read? raw.toList

def dashOffset? (raw : String) : Option Float := Length.read? raw.toList

/-- The painting properties, each with the test for its value. -/
def paintChecks (defs : Definitions Float) : List (String × (String → Bool)) :=
  [understood "color" Color.stated?, understood "fill" (Paint.choice? defs),
    understood "stroke" (Paint.choice? defs), understood "opacity" opacity?,
    understood "fill-opacity" opacity?, understood "stroke-opacity" opacity?,
    understood "fill-rule" FillRule.read?, understood "stroke-width" strokeWidth?,
    understood "stroke-linejoin" LineJoin.read?, understood "stroke-linecap" LineCap.read?,
    understood "stroke-miterlimit" miterLimit?, understood "stroke-dasharray" Dash.pattern?,
    understood "stroke-dashoffset" dashOffset?]

def Properties.Painted (defs : Definitions Float) (ps : Properties) : Prop :=
  ∀ check ∈ paintChecks defs, ps.Passes check

namespace PaintStyle

def colorOver (ps : Properties) (inherited : Color Float) : Color Float :=
  ((ps.value? "color" Color.stated?).getD none).getD inherited

def paintOver (defs : Definitions Float) (ps : Properties) (name : String)
    (inherited : Option (Paint Float)) (current : Color Float) : Option (Paint Float) :=
  ((ps.value? name (Paint.choice? defs)).getD .passed).onto inherited current

/-- An opacity of fill or stroke: its own, else the general one, else the inherited one. -/
def opacityOver (ps : Properties) (name : String) (inherited : Option Float) : Option Float :=
  ((ps.value? name opacity?).or (ps.value? "opacity" opacity?)).or inherited

/-- What an element states, laid over what it inherits. -/
def onto (defs : Definitions Float) (ps : Properties) (inherited : PaintStyle Float) :
    PaintStyle Float :=
  let color := colorOver ps inherited.color
  { fill := paintOver defs ps "fill" inherited.fill color
    fillRule := (ps.value? "fill-rule" FillRule.read?).getD inherited.fillRule
    fillOpacity := opacityOver ps "fill-opacity" inherited.fillOpacity
    stroke := paintOver defs ps "stroke" inherited.stroke color
    strokeWidth := (ps.value? "stroke-width" strokeWidth?).or inherited.strokeWidth
    strokeJoin := (ps.value? "stroke-linejoin" LineJoin.read?).or inherited.strokeJoin
    miterLimit := (ps.value? "stroke-miterlimit" miterLimit?).or inherited.miterLimit
    dash := Dash.onto (ps.value? "stroke-dasharray" Dash.pattern?)
      (ps.value? "stroke-dashoffset" dashOffset?) inherited.dash
    strokeCap := (ps.value? "stroke-linecap" LineCap.read?).or inherited.strokeCap
    strokeOpacity := opacityOver ps "stroke-opacity" inherited.strokeOpacity
    opacity := (ps.value? "opacity" opacity?).or inherited.opacity
    color := color }

end PaintStyle

section

variable {defs : Definitions Float} {tag name : String} {ps : Properties}

open PaintStyle

theorem currentColor_eq_ok_iff {inherited color : Color Float} :
    currentColor tag ps inherited = .ok color ↔
      ps.Passes (understood "color" Color.stated?) ∧ color = colorOver ps inherited := by
  have reader (raw : String) : (if isWordColor raw "currentcolor" || raw == "inherit" then
      some inherited else Color.read? raw.toList) =
        (Color.stated? raw).map (·.getD inherited) := by
    unfold Color.stated?
    split
    · rfl
    · cases Color.read? raw.toList <;> rfl
  unfold currentColor
  simp only [reader]
  constructor
  · intro h
    obtain ⟨stated, read, rfl⟩ := exists_of_map_eq_ok h
    obtain ⟨passes, rfl⟩ := read_eq_ok_iff.mp read
    refine ⟨(passes_understood_map _).mp passes, ?_⟩
    rw [value?_map, colorOver]
    cases ps.value? "color" Color.stated? <;> rfl
  · rintro ⟨passes, rfl⟩
    rw [read_eq_ok_iff.mpr ⟨(passes_understood_map _).mpr passes, rfl⟩, value?_map, colorOver]
    cases ps.value? "color" Color.stated? <;> rfl

theorem resolve_eq_ok_iff {inherited paint : Option (Paint Float)} {current : Color Float} :
    Paint.resolve defs tag name (Shelf.get? ps name) inherited current = .ok paint ↔
      ps.Passes (understood name (Paint.choice? defs)) ∧
        paint = paintOver defs ps name inherited current := by
  refine eq_ok_iff_of_reader
    (g := fun choice => (choice.getD Paint.Choice.passed).onto inherited current)
    (fun absent => by rw [absent]; rfl) fun raw found => ?_
  rw [found]
  unfold Paint.choice? Paint.resolve
  dsimp only [Option.map_some]
  generalize Text.trim raw.toList = value
  split
  · rfl
  split
  · rfl
  split
  · cases Reference.id? value with
    | none => rfl
    | some id =>
      dsimp only [Option.bind_some]
      rw [← defs.toOption_gradient tag id]
      cases defs.gradient tag id <;> rfl
  split
  · rfl
  · cases Color.read? value <;> rfl

theorem dashPattern_eq_ok_iff {inherited pattern : Option (Dash Float)} :
    dashPattern tag ps inherited = .ok pattern ↔
      ps.Passes (understood "stroke-dasharray" Dash.pattern?) ∧
        pattern = Dash.onto (ps.value? "stroke-dasharray" Dash.pattern?) none inherited := by
  unfold dashPattern
  refine eq_ok_iff_of_reader (g := fun stated => Dash.onto stated none inherited)
    (fun absent => by rw [absent]; rfl) fun raw found => ?_
  rw [found]
  unfold Dash.pattern? Dash.onto
  dsimp only [Option.elim_none]
  split
  · rfl
  · cases readDashes? raw.toList with
    | none => rfl
    | some lengths =>
      simp only [Option.map_some, required, Except.map, Except.toOption, Option.elim_some]
      split <;> rfl

theorem opacity_eq_ok_iff {b : Option Float} : opacity tag ps name = .ok b ↔
    ps.Passes (understood name opacity?) ∧ b = ps.value? name opacity? := read_eq_ok_iff

theorem dashOffset_eq_ok_iff {b : Option Float} :
    ps.read tag name (fun raw => Length.read? raw.toList) = .ok b ↔
      ps.Passes (understood name dashOffset?) ∧ b = ps.value? name dashOffset? := read_eq_ok_iff

theorem dash_eq_ok_iff {inherited dash : Option (Dash Float)} :
    Context.dash tag ps inherited = .ok dash ↔
      (ps.Passes (understood "stroke-dasharray" Dash.pattern?) ∧
        ps.Passes (understood "stroke-dashoffset" dashOffset?)) ∧
      dash = Dash.onto (ps.value? "stroke-dasharray" Dash.pattern?)
        (ps.value? "stroke-dashoffset" dashOffset?) inherited := by
  unfold Context.dash
  rw [bind_eq_ok_iff fun _ => dashPattern_eq_ok_iff, bind_eq_ok_iff fun _ => dashOffset_eq_ok_iff,
    ← and_assoc]
  refine and_congr_right fun _ => ?_
  rw [pure_eq_ok_iff]
  cases ps.value? "stroke-dashoffset" dashOffset? <;> exact Iff.rfl

/-- The painting properties are accepted by themselves, and they are laid over what is inherited. -/
theorem paintStyle_eq_ok_iff {inherited paint : PaintStyle Float} :
    paintStyle defs tag ps inherited = .ok paint ↔
      ps.Painted defs ∧ paint = onto defs ps inherited := by
  unfold paintStyle
  rw [bind_eq_ok_iff fun _ => currentColor_eq_ok_iff, bind_eq_ok_iff fun _ => resolve_eq_ok_iff,
    bind_eq_ok_iff fun _ => resolve_eq_ok_iff, bind_eq_ok_iff fun _ => opacity_eq_ok_iff,
    bind_eq_ok_iff fun _ => opacity_eq_ok_iff, bind_eq_ok_iff fun _ => opacity_eq_ok_iff,
    bind_eq_ok_iff fun _ => read_eq_ok_iff, bind_eq_ok_iff fun _ => read_eq_ok_iff,
    bind_eq_ok_iff fun _ => read_eq_ok_iff, bind_eq_ok_iff fun _ => read_eq_ok_iff,
    bind_eq_ok_iff fun _ => read_eq_ok_iff, bind_eq_ok_iff fun _ => dash_eq_ok_iff,
    pure_eq_ok_iff]
  simp only [Properties.Painted, paintChecks, List.forall_mem_cons, List.not_mem_nil,
    false_imp_iff, implies_true, true_and, and_assoc]
  exact Iff.rfl

end

end SvgPage

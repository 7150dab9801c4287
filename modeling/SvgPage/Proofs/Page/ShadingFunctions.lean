import Mathlib
import SvgPage.Proofs.Number.Narrowing
import SvgPage.Proofs.Page.Closure
import SvgPage.Proofs.Page.GradientColors
import SvgPage.Proofs.Scene.Validity

/-!
# Functions of shadings

The function of a shading is one passage between two colours, or passages side by side, one for each
step from stop to stop. Where two passages meet they agree. The bounds between them go up as the
offsets do, and are in the domain where the offsets are numbers at all, as those of every document
are.
-/

namespace SvgPage

/-- The number at which a stop divides the domain of a function. -/
def Single.bound (offset : Float) : Float32 := ofDouble (Scalar.clamp 0 1 offset)

/-- A number in the domain of a function. -/
def Single.IsShare (x : Float32) : Prop := 0 ≤ x ∧ x ≤ 1

section

variable {a b : Float}

open Double

theorem isShare_clamp (number : a.isNaN = false) : IsShare (Scalar.clamp 0 1 a) := by
  have zero := (isNaN_eq_false_of_le isShare_zero.1).1
  have one := (isNaN_eq_false_of_le isShare_one.1).2
  unfold Scalar.clamp
  split_ifs with below above
  · exact isShare_zero
  · exact isShare_one
  · exact ⟨(not_lt_iff number zero).mp below, (not_lt_iff one number).mp above⟩

theorem isNaN_clamp (a : Float) : (Scalar.clamp 0 1 a).isNaN = a.isNaN := by
  unfold Scalar.clamp
  split_ifs with below above
  · exact (isNaN_eq_false_of_lt below).1.symm
  · exact (isNaN_eq_false_of_lt above).2.symm
  · rfl

theorem clamp_le_clamp (h : a ≤ b) : Scalar.clamp 0 1 a ≤ Scalar.clamp 0 1 b := by
  obtain ⟨number, number'⟩ := isNaN_eq_false_of_le h
  have zero := (isNaN_eq_false_of_le isShare_zero.1).1
  have one := (isNaN_eq_false_of_le isShare_one.1).2
  have unit := isShare_one.1
  unfold Scalar.clamp
  rw [le_iff_key number number'] at h
  rw [le_iff_key zero one] at unit
  simp only [lt_iff_key number zero, lt_iff_key one number, lt_iff_key number' zero,
    lt_iff_key one number']
  split_ifs <;> rw [le_iff_key (by assumption) (by assumption)] <;> order

namespace Single

/-- An offset that is a number, and no other, gives a bound in the domain. -/
theorem isShare_bound_iff : IsShare (bound a) ↔ a.isNaN = false := by
  have zero : ofDouble 0 = 0 := rfl
  have one : ofDouble 1 = 1 := rfl
  constructor
  · intro share
    rw [← isNaN_clamp, ← isNaN_ofDouble]
    exact isNaN_eq_false_of_le share.2
  · intro number
    obtain ⟨low, high⟩ := isShare_clamp number
    constructor
    · exact zero ▸ ofDouble_le_ofDouble low
    · exact one ▸ ofDouble_le_ofDouble high

theorem bound_le_bound (h : a ≤ b) : bound a ≤ bound b :=
  ofDouble_le_ofDouble (clamp_le_clamp h)

end Single

end

namespace ColorFunction

/-- At least two stops: a lone colour goes on to the end, and without any all is black. -/
def filled : List (ShadingStop Float) → List (ShadingStop Float)
  | [] => [⟨0, .black⟩, ⟨1, .black⟩]
  | [a] => [a, ⟨1, a.color⟩]
  | stops => stops

/-- The entries of a function that passes from one colour to another. -/
structure Passes (first last : Color Float) (f : List (String × Value)) : Prop where
  kind : f.lookup "FunctionType" = some (.whole 2)
  domain : f.lookup "Domain" = some Passage.unitRange
  first : f.lookup "C0" = some (Passage.colorValue first)
  last : f.lookup "C1" = some (Passage.colorValue last)
  exponent : f.lookup "N" = some (.real 1)

/-- The numbers that divide the domain of a function. -/
def HasBounds (f : List (String × Value)) (bounds : List Float32) : Prop :=
  f.lookup "Bounds" = some (.list (bounds.map .real))

/-- Every number that divides the domain of a function is in it. -/
def InDomain (f : List (String × Value)) : Prop :=
  ∀ bounds, HasBounds f bounds → ∀ b ∈ bounds, Single.IsShare b

/-- The numbers that divide the domain of a function never go back. -/
def Ascending (f : List (String × Value)) : Prop :=
  ∀ bounds, HasBounds f bounds → bounds.Pairwise (· ≤ ·)

/-- The entries of a function that has a passage for every step from stop to stop. -/
structure Stitches (stops : List (ShadingStop Float)) (f : List (String × Value)) : Prop where
  kind : f.lookup "FunctionType" = some (.whole 3)
  domain : f.lookup "Domain" = some Passage.unitRange
  functions : ∃ fs : List (List (String × Value)),
    f.lookup "Functions" = some (.list (fs.map .dictionary)) ∧ fs.length = stops.length - 1 ∧
      (∀ i (inside : i < fs.length) (next : i + 1 < stops.length),
        Passes stops[i].color stops[i + 1].color fs[i]) ∧
      ∀ i (next : i + 1 < fs.length), fs[i].lookup "C1" = fs[i + 1].lookup "C0"
  bounds : ∃ bounds, HasBounds f bounds ∧ bounds.length = stops.length - 2
  encode : ∃ es : List Float32,
    f.lookup "Encode" = some (.list (es.map .real)) ∧ es.length = 2 * (stops.length - 1)

theorem length_passages {α : Type} (stops : List (ShadingStop α)) :
    (passages stops).length = stops.length - 1 := by
  rw [passages_eq_zipWith]
  simp

theorem getElem_passages {α : Type} (stops : List (ShadingStop α)) {i : ℕ}
    (inside : i < (passages stops).length) (next : i + 1 < stops.length) :
    (passages stops)[i] = ⟨stops[i].color, stops[i + 1].color⟩ := by
  simp [passages_eq_zipWith]

theorem passes_dictionary (first last : Color Float) :
    Passes first last (Passage.dictionary ⟨first, last⟩) :=
  ⟨rfl, rfl, rfl, rfl, rfl⟩

theorem passes_passages (stops : List (ShadingStop Float)) {i : ℕ}
    (inside : i < ((passages stops).map Passage.dictionary).length) (next : i + 1 < stops.length) :
    Passes stops[i].color stops[i + 1].color ((passages stops).map Passage.dictionary)[i] := by
  rw [List.getElem_map, getElem_passages stops _ next]
  exact passes_dictionary _ _

/-- The stops with one before and one after. -/
def inner (stops : List (ShadingStop Float)) : List (ShadingStop Float) := stops.tail.dropLast

theorem length_inner (stops : List (ShadingStop Float)) :
    (inner stops).length = stops.length - 2 := by
  rw [inner, List.length_dropLast, List.length_tail, Nat.sub_sub]

theorem inner_sublist (stops : List (ShadingStop Float)) : (inner stops).Sublist stops :=
  (List.dropLast_sublist _).trans (List.tail_sublist _)

theorem ofStops_cases (stops : List (ShadingStop Float)) :
    (stops.length ≤ 2 ∧
        ∃ a b, filled stops = [a, b] ∧ ofStops stops = .passage ⟨a.color, b.color⟩) ∨
      2 < stops.length ∧ ofStops stops =
        .stitched (passages stops) ((inner stops).map fun s => Scalar.clamp 0 1 s.offset) := by
  match stops with
  | [] => exact .inl ⟨by simp, _, _, rfl, rfl⟩
  | [a] => exact .inl ⟨by simp, _, _, rfl, rfl⟩
  | [a, b] => exact .inl ⟨by simp, _, _, rfl, rfl⟩
  | a :: b :: c :: rest => exact .inr ⟨by simp, rfl⟩

section

variable (ps : List (Passage Float)) (stops : List (ShadingStop Float))

theorem lookup_encode (bounds : List Float) : (dictionary (.stitched ps bounds)).lookup "Encode" =
    some (.list (ps.flatMap fun _ => [.real 0, .real 1])) := rfl

theorem hasBounds_stitched :
    HasBounds (dictionary (.stitched ps (stops.map fun s => Scalar.clamp 0 1 s.offset)))
      (stops.map fun s => Single.bound s.offset) := by
  unfold HasBounds
  rw [List.map_map]
  exact congrArg (some ∘ Value.list) List.map_map

end

theorem stitches_dictionary (stops : List (ShadingStop Float)) :
    Stitches stops (dictionary (.stitched (passages stops)
      ((inner stops).map fun s => Scalar.clamp 0 1 s.offset))) where
  kind := rfl
  domain := rfl
  functions := by
    have count : ((passages stops).map Passage.dictionary).length = stops.length - 1 := by
      rw [List.length_map, length_passages]
    refine ⟨(passages stops).map Passage.dictionary, ?_, count, fun i inside next => ?_, ?_⟩
    · rw [List.map_map]
      rfl
    · exact passes_passages stops inside next
    · intro i next
      have here := passes_passages stops (Nat.lt_of_succ_lt next) (by omega)
      have there := passes_passages stops next (by omega)
      exact here.last.trans there.first.symm
  bounds := ⟨_, hasBounds_stitched _ _, by rw [List.length_map, length_inner]⟩
  encode := by
    refine ⟨((passages stops).flatMap fun _ => [0, 1]), ?_, ?_⟩
    · rw [lookup_encode, List.map_flatMap]
      rfl
    · simp [length_passages, Nat.mul_comm]

section

variable (stops : List (ShadingStop Float))

theorem passes_ofStops (few : stops.length ≤ 2) : ∃ a b, filled stops = [a, b] ∧
    Passes a.color b.color (ofStops stops).dictionary := by
  rcases ofStops_cases stops with ⟨-, a, b, two, written⟩ | ⟨more, -⟩
  · exact ⟨a, b, two, written ▸ passes_dictionary _ _⟩
  · exact absurd few more.not_ge

theorem stitches_ofStops (several : 2 < stops.length) :
    Stitches stops (ofStops stops).dictionary := by
  rcases ofStops_cases stops with ⟨few, -⟩ | ⟨-, written⟩
  · exact absurd several few.not_gt
  · exact written ▸ stitches_dictionary stops

/-- The bounds of what is written for some stops are the offsets of those inside. -/
theorem eq_of_hasBounds {bounds : List Float32}
    (h : HasBounds (ofStops stops).dictionary bounds) :
    bounds = (inner stops).map fun s => Single.bound s.offset := by
  rcases ofStops_cases stops with ⟨-, a, b, -, written⟩ | ⟨-, written⟩
  · rw [written] at h
    cases h
  · rw [written] at h
    have same := h.symm.trans (hasBounds_stitched (passages stops) (inner stops))
    have injective : Function.Injective Value.real := fun _ _ => Value.real.inj
    exact injective.list_map (Value.list.inj (Option.some.inj same))

theorem inDomain_iff : InDomain (ofStops stops).dictionary ↔
    ∀ a ∈ inner stops, a.offset.isNaN = false := by
  constructor
  · intro domain a member
    have several : 2 < stops.length := by
      have := List.length_pos_of_mem member
      rw [length_inner] at this
      omega
    obtain ⟨bounds, has, -⟩ := (stitches_ofStops stops several).bounds
    apply Single.isShare_bound_iff.mp
    apply domain bounds has
    rw [eq_of_hasBounds stops has]
    exact List.mem_map_of_mem member
  · intro numbers bounds has b there
    rw [eq_of_hasBounds stops has] at there
    obtain ⟨a, member, rfl⟩ := List.mem_map.mp there
    exact Single.isShare_bound_iff.mpr (numbers a member)

theorem ascending_ofStops (h : (stops.map (·.offset)).Pairwise (· ≤ ·)) :
    Ascending (ofStops stops).dictionary := by
  intro bounds has
  rw [eq_of_hasBounds stops has]
  have offsets := List.pairwise_map.mp (h.sublist ((inner_sublist stops).map _))
  exact List.pairwise_map.mpr (offsets.imp Single.bound_le_bound)

end

end ColorFunction

namespace Shading

theorem lookup_function (s : Shading) : s.dictionary.lookup "Function" =
    some (.dictionary (ColorFunction.ofStops s.stops).dictionary) := rfl

/-- The offsets of a shading are numbers from zero to one that never go back. -/
structure Orderly (s : Shading) : Prop where
  shares : ∀ a ∈ s.stops, IsShare a.offset
  ascending : (s.stops.map (·.offset)).Pairwise (· ≤ ·)

theorem Orderly.numbers {s : Shading} (h : s.Orderly) :
    ∀ a ∈ ColorFunction.inner s.stops, a.offset.isNaN = false := by
  intro a member
  have share := h.shares a ((ColorFunction.inner_sublist _).subset member)
  exact (Double.isNaN_eq_false_of_le share.1).2

theorem orderly_ofGradient {g : Gradient Float} (valid : g.Valid) (ramp : Ramp Float) :
    (ofGradient ramp g.stops).Orderly where
  shares := by
    intro a member
    obtain ⟨stop, there, rfl⟩ := List.mem_map.mp member
    exact (valid.stops stop there).offset
  ascending := by
    rw [ofGradient, List.map_map]
    exact valid.ascending

end Shading

open Resources (Request)

theorem Table.mem_entries_allocate {κ β : Type} [DecidableEq κ] {n : Naming κ β} {b : β}
    {t : Table κ β} {entry : String × β} (there : entry ∈ (t.allocate n b).2.entries) :
    entry ∈ t.entries ∨ entry.2 = b := by
  rcases allocate_cases n b t with ⟨_, -, result⟩ | ⟨-, result⟩
  · rw [result] at there
    exact .inl there
  · rw [result] at there
    refine (List.mem_append.mp there).imp_right fun new => ?_
    rw [List.mem_singleton.mp new]

namespace Resources

theorem mem_shadings_serveAll {qs : List Request} {r : Resources} {entry : String × Shading}
    (there : entry ∈ (serveAll qs r).2.shadings.entries) :
    entry ∈ r.shadings.entries ∨ .shading entry.2 ∈ qs := by
  induction qs generalizing r with
  | nil => exact .inl there
  | cons q qs ih =>
    rcases ih there with served | later
    · cases q with
      | shading s =>
        refine (Table.mem_entries_allocate served).imp_right fun new => ?_
        rw [new]
        exact List.mem_cons_self
      | state | image | font => exact .inl served
    · exact .inr (List.mem_cons_of_mem _ later)

end Resources

theorem GraphicsState.shading_notMem_uses (state : GraphicsState) (s : Shading) :
    .shading s ∉ state.uses := by
  unfold GraphicsState.uses
  split_ifs <;> simp

namespace TextItem

mutual

theorem shading_notMem_uses (t : TextStyle Float) (item : TextItem Float) (s : Shading) :
    .shading s ∉ item.uses t := by
  cases item with
  | literal run => simp [uses]
  | nested inner items =>
    intro there
    rcases List.mem_append.mp there with state | inside
    · exact GraphicsState.shading_notMem_uses _ s state
    · exact shading_notMem_usesOf inner items s inside

theorem shading_notMem_usesOf (t : TextStyle Float) (items : List (TextItem Float)) (s : Shading) :
    .shading s ∉ usesOf t items := by
  cases items with
  | nil => simp [usesOf]
  | cons item items =>
    intro there
    rcases List.mem_append.mp there with first | later
    · exact shading_notMem_uses t item s first
    · exact shading_notMem_usesOf t items s later

end

end TextItem

namespace Node

mutual

theorem exists_shape_of_mem_uses {n : Node Float} {s : Shading} (asked : .shading s ∈ n.uses) :
    ∃ shape, .shape shape ∈ n.figures ∧ .shading s ∈ shape.gradientUses := by
  cases n with
  | shape shape =>
    rcases List.mem_append.mp asked with state | gradient
    · exact absurd state (GraphicsState.shading_notMem_uses _ s)
    · exact ⟨shape, List.mem_cons_self, gradient⟩
  | image i =>
    rcases List.mem_append.mp asked with state | image
    · exact absurd state (GraphicsState.shading_notMem_uses _ s)
    · simp at image
  | text t items => exact absurd asked (TextItem.shading_notMem_uses t _ s)
  | group paint base children =>
    rcases List.mem_append.mp asked with state | inside
    · exact absurd state (GraphicsState.shading_notMem_uses _ s)
    · obtain ⟨shape, there, gradient⟩ := exists_shape_of_mem_usesOf inside
      exact ⟨shape, List.mem_cons_of_mem _ there, gradient⟩

theorem exists_shape_of_mem_usesOf {ns : List (Node Float)} {s : Shading}
    (asked : .shading s ∈ usesOf ns) :
    ∃ shape, .shape shape ∈ figuresAmong ns ∧ .shading s ∈ shape.gradientUses := by
  cases ns with
  | nil => simp [usesOf] at asked
  | cons n ns =>
    rcases List.mem_append.mp asked with first | later
    · obtain ⟨shape, there, gradient⟩ := exists_shape_of_mem_uses first
      exact ⟨shape, List.mem_append_left _ there, gradient⟩
    · obtain ⟨shape, there, gradient⟩ := exists_shape_of_mem_usesOf later
      exact ⟨shape, List.mem_append_right _ there, gradient⟩

end

end Node

theorem Shape.exists_gradient_of_mem {shape : Shape Float} {s : Shading}
    (asked : .shading s ∈ shape.gradientUses) :
    ∃ g ramp, shape.paint.fill = some (.gradient g) ∧ s = .ofGradient ramp g.stops := by
  unfold gradientUses at asked
  split at asked
  · next g filled =>
    obtain ⟨placed, -, same⟩ := List.mem_map.mp asked
    exact ⟨g, placed.ramp, filled, (Request.shading.inj same).symm⟩
  · cases asked

/-- What an element paints with keeps to its ranges, whatever the size of text. -/
theorem Context.upholds_painted {cx : Context}
    (registered : ∀ id g, cx.definitions.gradient? id = some g → g.Valid) :
    cx.Upholds (fun _ paint _ => paint.Valid) fun _ f => ∀ s, f = .shape s → s.paint.Valid where
  shape := by
    intro head around paint wanted kind s inherits known isShape read
    obtain ⟨-, painted, -⟩ := parts_of_shape read
    rintro _ ⟨⟩
    exact PaintStyle.valid_of_paintStyle registered inherits painted
  image := by
    intro head around paint wanted handle i inherits known read s same
    cases same
  text := by
    intro head around paint wanted start inherits isText read
    obtain ⟨-, painted, -, -⟩ := parts_of_textStart read
    refine ⟨PaintStyle.valid_of_paintStyle registered inherits painted, fun style read s same => ?_⟩
    cases same
  group := by
    intro head around inherited start inherits isGroup read
    obtain ⟨painted, -, -⟩ := parts_of_groupStart read
    refine ⟨PaintStyle.valid_of_paintStyle registered inherits painted, ?_⟩
    intro isNested children g read
    obtain ⟨base, place, -, -, rfl⟩ := parts_of_groupEnd read
    refine ⟨_, rfl, fun s same => ?_⟩
    cases same

section

variable {σ : Type} {e : Embedder σ} {o : Options Float} {fonts : FontTable} {text : List Char}
  {state : σ}

theorem Rounds.orderly_of_mem_uses (r : Rounds e o fonts text state) {s : Shading}
    (asked : .shading s ∈ r.document.root.uses) : s.Orderly := by
  obtain ⟨shape, there, asked⟩ := Node.exists_shape_of_mem_uses asked
  obtain ⟨g, ramp, filled, rfl⟩ := Shape.exists_gradient_of_mem asked
  have painted := r.forall_mem_figures
    (Context.upholds_painted fun _ _ => r.valid_of_gradient?) PaintStyle.valid_initial
  exact Shading.orderly_ofGradient ((painted _ there shape rfl).fill _ filled) ramp

/-- What a document adds to the shadings of a page has its offsets in order. -/
theorem Document.orderly_of_mem_shadings {d : Document} {r : Resources} {name : String}
    {s : Shading} (ok : (Document.read e o fonts text state).result = .ok d)
    (there : (name, s) ∈ (d.compile o r).2.shadings.entries)
    (new : (name, s) ∉ r.shadings.entries) : s.Orderly := by
  obtain ⟨rounds, rfl⟩ := Document.exists_rounds ok
  have served := congrArg Prod.snd (rounds.document.compile_eq_serveAll o r)
  dsimp only at served
  rw [served] at there
  rcases Resources.mem_shadings_serveAll there with before | asked
  · exact absurd before new
  · exact rounds.orderly_of_mem_uses asked

end

/-- A shading has one passage for each step between its stops, which are filled up to two. Its
bounds are in the domain iff the offsets of the stops inside are numbers, and they are in order where
the offsets are. Both are so in whatever a document adds to a page. -/
theorem Shading.function_stitched (s : Shading) :
    ∃ f, s.dictionary.lookup "Function" = some (.dictionary f) ∧
      (s.stops.length ≤ 2 → ∃ a b, ColorFunction.filled s.stops = [a, b] ∧
        ColorFunction.Passes a.color b.color f) ∧
      (2 < s.stops.length → ColorFunction.Stitches s.stops f) ∧
      (ColorFunction.InDomain f ↔
        ∀ a ∈ ColorFunction.inner s.stops, a.offset.isNaN = false) ∧
      ((s.stops.map (·.offset)).Pairwise (· ≤ ·) → ColorFunction.Ascending f) ∧
      ∀ (σ : Type) (e : Embedder σ) (o : Options Float) (fonts : FontTable) (text : List Char)
        (state : σ) (d : Document) (r : Resources) (name : String),
        (Document.read e o fonts text state).result = .ok d →
          (name, s) ∈ (d.compile o r).2.shadings.entries → (name, s) ∉ r.shadings.entries →
            s.Orderly ∧ ColorFunction.InDomain f ∧ ColorFunction.Ascending f := by
  have domain := ColorFunction.inDomain_iff s.stops
  have ascending := ColorFunction.ascending_ofStops s.stops
  refine ⟨_, s.lookup_function, ColorFunction.passes_ofStops s.stops,
    ColorFunction.stitches_ofStops s.stops, domain, ascending, ?_⟩
  intro σ e o fonts text state d r name ok there new
  have orderly := Document.orderly_of_mem_shadings ok there new
  exact ⟨orderly, domain.mpr orderly.numbers, ascending orderly.ascending⟩

def wavering : List Char :=
  ["<svg><linearGradient id=\"a\">", "<stop offset=\"10%\"/>", "<stop offset=\"60%\"/>",
    "<stop offset=\"30%\"/>", "<stop offset=\"1\"/>", "</linearGradient>",
    "<rect width=\"1\" height=\"1\" ", "fill=\"url(#a)\"/></svg>"].flatMap String.toList

/-- The third stop moves up to the second one, so two bounds are equal. -/
theorem Shading.function_stitched_wavering : ∃ d name s f,
    (Document.read Workshop.embedder .initial .empty wavering {}).result = .ok d ∧
      (name, s) ∈ (d.compile .initial Resources.empty).2.shadings.entries ∧
      s.stops.map (·.offset) = [0.1, 0.6, 0.6, 1] ∧
      s.dictionary.lookup "Function" = some (.dictionary f) ∧ ColorFunction.Stitches s.stops f ∧
      ColorFunction.InDomain f ∧ ColorFunction.Ascending f := by
  have shadings : (Document.read Workshop.embedder .initial .empty wavering {}).result.toOption.map
      (fun d => (d.compile .initial Resources.empty).2.shadings.entries.map fun entry =>
        entry.2.stops.map (·.offset)) = some [[0.1, 0.6, 0.6, 1]] := by
    decide +kernel
  cases ok : (Document.read Workshop.embedder .initial .empty wavering {}).result with
  | error problem =>
    rw [ok] at shadings
    cases shadings
  | ok d =>
    rw [ok] at shadings
    obtain ⟨⟨name, s⟩, single, offsets⟩ := List.map_eq_singleton_iff.mp (Option.some.inj shadings)
    have there : (name, s) ∈ (d.compile .initial Resources.empty).2.shadings.entries :=
      single ▸ List.mem_cons_self
    have several : 2 < s.stops.length := by
      rw [← List.length_map (f := (·.offset)), offsets]
      decide
    obtain ⟨f, written, -, stitched, -, -, added⟩ := function_stitched s
    obtain ⟨-, domain, ascending⟩ := added _ _ _ _ _ _ d .empty name ok there nofun
    exact ⟨d, name, s, f, rfl, there, offsets, written, stitched several, domain, ascending⟩

/-- A shading whose second stop has an offset that is not a number. -/
def Shading.astray : Shading :=
  ⟨.axial 0 0 1 0, [⟨0, .black⟩, ⟨0 / 0, ⟨1, 0, 0⟩⟩, ⟨1, ⟨1, 1, 1⟩⟩]⟩

/-- What is not a number is neither below zero nor above one, so it is not brought in between. -/
theorem Shading.function_bound_astray : ∃ f b,
    Shading.astray.dictionary.lookup "Function" = some (.dictionary f) ∧
      f.lookup "Bounds" = some (.list [.real b]) ∧ ¬Single.IsShare b := by
  refine ⟨_, Single.bound (0 / 0), rfl, rfl, fun share => ?_⟩
  cases Single.isShare_bound_iff.mp share

end SvgPage

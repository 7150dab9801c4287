import SvgPage.Proofs.Page.Paintings
import SvgPage.Proofs.Page.WellFormed

/-!
# Numbers of a page

The operands of a compiled scene are numbers of the scene, each as often and in the order in which
it is drawn. So a page has only finite operands exactly if what is drawn is finite: compiling makes
up no number, and it holds none back.
-/

namespace SvgPage

open Drawing

def Point.numbers (p : Point Float) : List Float := [p.x, p.y]

def Matrix.numbers (m : Matrix Float) : List Float := [m.a, m.b, m.c, m.d, m.e, m.f]

def Color.numbers (c : Color Float) : List Float := [c.r, c.g, c.b]

def Dash.numbers (d : Dash Float) : List Float := d.pattern ++ [d.phase]

def Path.numbers (ops : List (PathOp Float)) : List Float :=
  (ops.flatMap PathOp.points).flatMap Point.numbers

namespace Operator

def numbers : Operator → List Float
  | concat m | textMatrix m => m.numbers
  | moveTo p | lineTo p => p.numbers
  | curveTo c₁ c₂ p => c₁.numbers ++ c₂.numbers ++ p.numbers
  | fillColor c | strokeColor c => c.numbers
  | lineWidth w => [w]
  | miterLimit limit => [limit]
  | dash d => d.numbers
  | font _ size => [size]
  | _ => []

def numbersOf (ops : List Operator) : List Float := ops.flatMap numbers

@[simp] theorem numbersOf_nil : numbersOf [] = [] := rfl

@[simp] theorem numbersOf_cons (op : Operator) (ops : List Operator) :
    numbersOf (op :: ops) = op.numbers ++ numbersOf ops := rfl

@[simp] theorem numbersOf_append (ops ops' : List Operator) :
    numbersOf (ops ++ ops') = numbersOf ops ++ numbersOf ops' := List.flatMap_append

@[simp] theorem numbersOf_map {α : Type} (f : α → Operator) (as : List α) :
    numbersOf (as.map f) = as.flatMap fun a => (f a).numbers := List.flatMap_map ..

@[simp] theorem numbersOf_toList {α : Type} (f : α → Operator) (a : Option α) :
    numbersOf (a.map f).toList = a.toList.flatMap fun a => (f a).numbers := by
  cases a <;> simp

@[simp] theorem numbersOf_path (ops : List (PathOp Float)) :
    numbersOf (path ops) = Path.numbers ops := by
  have own (op : PathOp Float) : (ofPath op).numbers = op.points.flatMap Point.numbers := by
    cases op <;> simp [ofPath, numbers, PathOp.points]
  simp [numbersOf, path, Path.numbers, List.flatMap_assoc, List.flatMap_map, own]

end Operator

open Operator

def Base.numbers (base : Base Float) : List Float :=
  base.transform.flatMap Matrix.numbers ++ base.clip.toList.flatMap fun c => Path.numbers c.ops

/-- The numbers in the settings of an outline. Those of the line count only if there is one. -/
def PaintStyle.numbers (paint : PaintStyle Float) : List Float :=
  paint.fillColor?.toList.flatMap Color.numbers ++
    paint.strokeColor?.toList.flatMap fun c =>
      c.numbers ++ paint.strokeWidth.toList ++ paint.miterLimit.toList ++
        paint.dash.toList.flatMap Dash.numbers

def Shape.gradientNumbers (s : Shape Float) : List Float :=
  match s.paint.fill with
  | some (.gradient g) =>
    ((Path.bbox? s.ops).bind g.place?).toList.flatMap fun placed =>
      Path.numbers s.ops ++ placed.matrix.numbers
  | _ => []

def Shape.numbers (s : Shape Float) : List Float :=
  s.base.numbers ++ s.gradientNumbers ++ s.paint.numbers ++ Path.numbers s.ops

def PlacedImage.numbers (i : PlacedImage Float) : List Float :=
  i.base.numbers ++ (Matrix.translate i.box.x (i.box.y + i.box.height)).numbers ++
    (Matrix.scale i.box.width (-i.box.height)).numbers

def TextStyle.runNumbers (t : TextStyle Float) (pen : Point Float) : List Float :=
  t.fillColor?.toList.flatMap Color.numbers ++ t.strokeColor?.toList.flatMap Color.numbers ++
    [t.size] ++ (⟨1, 0, 0, -1, pen.x, pen.y⟩ : Matrix Float).numbers

namespace TextItem

mutual

/-- The numbers in a part of a text, with the pen at a place. -/
def numbers (t : TextStyle Float) (pen : Point Float) : TextItem Float → List Float
  | literal _ => t.runNumbers pen
  | nested inner items => inner.base.numbers ++ numbersOf inner (inner.origin pen) items

def numbersOf (t : TextStyle Float) (pen : Point Float) : List (TextItem Float) → List Float
  | [] => []
  | i :: is => numbers t pen i ++ numbersOf t (i.endPen t pen) is

end

end TextItem

namespace Node

mutual

def numbers : Node Float → List Float
  | shape s => s.numbers
  | image i => i.numbers
  | text t items => TextItem.numbers t ⟨0, 0⟩ (.nested t items)
  | group _ base children => base.numbers ++ numbersOf children

def numbersOf : List (Node Float) → List Float
  | [] => []
  | n :: ns => numbers n ++ numbersOf ns

end

end Node

/-- The numbers of a document that is put in its viewport. -/
def Document.numbers (d : Document) (o : Options Float) : List Float :=
  (o.placement d.viewBox d.size).toList.flatMap Matrix.numbers ++ d.root.numbers

/-- A computation writes operators with just these operands. -/
def Writes {ρ : Type} (m : StateM ρ (List Operator)) (xs : List Float) : Prop :=
  Yields (fun ops => numbersOf ops = xs) m

namespace Drawing

variable {ρ : Type} [Registry ρ]

theorem writes_opening (base : Base Float) (g : GraphicsState) :
    Writes (opening base g : StateM ρ (List Operator)) base.numbers := by
  have state : Writes (graphicsState g : StateM ρ (List Operator)) [] := by
    unfold graphicsState
    split
    · exact .pure rfl
    · exact (Yields.any _).bind fun _ _ => .pure rfl
  refine state.bind fun ops none => .pure ?_
  have clipped : numbersOf (clipping base.clip) =
      base.clip.toList.flatMap fun c => Path.numbers c.ops := by
    cases base.clip <;> simp [clipping, clip, Operator.numbers]
  simp [none, clipped, Operator.numbers, Base.numbers]

theorem writes_gradientOf (s : Shape Float) :
    Writes (gradientOf s : StateM ρ (List Operator)) s.gradientNumbers := by
  unfold gradientOf Shape.gradientNumbers
  cases s.paint.fill with
  | none => exact .pure rfl
  | some paint =>
    cases paint with
    | solid color => exact .pure rfl
    | gradient g =>
      dsimp only
      unfold gradientFill
      cases (Path.bbox? s.ops).bind g.place? with
      | none => exact .pure rfl
      | some placed =>
        refine (Yields.any _).bind fun name _ => .pure ?_
        simp [clip, Operator.numbers]

theorem numbersOf_outline (s : Shape Float) :
    numbersOf (outline s) = s.paint.numbers ++ Path.numbers s.ops := by
  have settings (c : Color Float) : numbersOf (strokeSettings s.paint c) = c.numbers ++
      s.paint.strokeWidth.toList ++ s.paint.miterLimit.toList ++
        s.paint.dash.toList.flatMap Dash.numbers := by
    have wordless {α : Type} (word : Option α) :
        word.toList.flatMap (fun _ => ([] : List Float)) = [] := by cases word <;> rfl
    simp [strokeSettings, Operator.numbers, wordless]
  have last : numbersOf [pathEnd s.paint.fillColor?.isSome s.paint.strokeColor?.isSome
      s.paint.fillRule] = [] := by
    cases s.paint.fillColor? <;> cases s.paint.strokeColor? <;> rfl
  rw [outline_eq, PaintStyle.numbers]
  simp only [numbersOf_append, numbersOf_toList, numbersOf_path, last, List.append_nil]
  cases s.paint.strokeColor? with
  | none => simp [Operator.numbers]
  | some c => simp [settings, Operator.numbers]

theorem writes_shape (s : Shape Float) :
    Writes (shape s : StateM ρ (List Operator)) s.numbers := by
  refine (writes_opening s.base (shapeState s)).bind fun start opened => ?_
  refine (writes_gradientOf s).bind fun gradient filled => .pure ?_
  simp [opened, filled, numbersOf_outline, Shape.numbers, Operator.numbers]

theorem writes_image (i : PlacedImage Float) :
    Writes (image i : StateM ρ (List Operator)) i.numbers := by
  refine (writes_opening i.base _).bind fun start opened => ?_
  refine (Yields.any _).bind fun name _ => .pure ?_
  simp [opened, PlacedImage.numbers, Operator.numbers]

theorem numbersOf_run (t : TextStyle Float) (font : String) (pen : Point Float)
    (characters : List Char) : numbersOf (run t font pen characters) = t.runNumbers pen := by
  have mode (m : Nat) : numbersOf (if m = 0 then [] else [.renderMode m]) = [] := by
    split <;> rfl
  rw [run_eq, TextStyle.runNumbers]
  simp [mode, Operator.numbers]

mutual

/-- By induction on the text: the pen is where the cursor says. -/
theorem writes_textItem (t : TextStyle Float) (item : TextItem Float) (c : Cursor) :
    Yields (fun written => numbersOf written.1 = item.numbers t c.pen ∧
        written.2.pen = item.endPen t c.pen)
      (textItem t item c : StateM ρ (List Operator × Cursor)) := by
  cases item with
  | literal characters =>
    unfold textItem
    refine (Yields.any _).bind fun name _ => .pure ?_
    rw [TextItem.numbers, TextItem.endPen]
    exact ⟨numbersOf_run .., rfl⟩
  | nested inner items =>
    unfold textItem
    rw [TextItem.numbers, TextItem.endPen]
    refine (writes_opening inner.base (textState inner)).bind fun start opened => ?_
    refine (writes_textItems inner items _).bind fun body written => .pure ⟨?_, written.2⟩
    have within : numbersOf body.1 = TextItem.numbersOf inner (inner.origin c.pen) items := written.1
    simp [opened, within, Operator.numbers]

theorem writes_textItems (t : TextStyle Float) (items : List (TextItem Float)) (c : Cursor) :
    Yields (fun written => numbersOf written.1 = TextItem.numbersOf t c.pen items ∧
        written.2.pen = TextItem.endPens t c.pen items)
      (textItems t items c : StateM ρ (List Operator × Cursor)) := by
  cases items with
  | nil =>
    unfold textItems
    rw [TextItem.numbersOf, TextItem.endPens]
    exact .pure ⟨rfl, rfl⟩
  | cons i is =>
    unfold textItems
    rw [TextItem.numbersOf, TextItem.endPens]
    refine (writes_textItem t i c).bind fun first head => ?_
    refine (writes_textItems t is first.2).bind fun rest tail => .pure ?_
    rw [head.2] at tail
    exact ⟨by rw [numbersOf_append, head.1, tail.1], tail.2⟩

end

end Drawing

namespace Node

variable {ρ : Type} [Registry ρ]

mutual

/-- By induction on the scene: exactly its numbers are written, in the order of drawing. -/
theorem writes_compile (n : Node Float) :
    Writes (n.compile : StateM ρ (List Operator)) n.numbers := by
  cases n with
  | shape s =>
    unfold compile
    rw [numbers]
    exact writes_shape s
  | image i =>
    unfold compile
    rw [numbers]
    exact writes_image i
  | text t items =>
    unfold compile Drawing.text
    rw [numbers]
    exact (writes_textItem t (.nested t items) ⟨⟨0, 0⟩, none⟩).bind fun written h => .pure h.1
  | group paint base children =>
    unfold compile
    rw [numbers]
    refine (writes_opening base _).bind fun start opened => ?_
    refine (writes_compileAll children).bind fun body written => .pure ?_
    simp [opened, written, Operator.numbers]

theorem writes_compileAll (ns : List (Node Float)) :
    Writes (compileAll ns : StateM ρ (List Operator)) (numbersOf ns) := by
  cases ns with
  | nil =>
    unfold compileAll
    rw [numbersOf]
    exact .pure rfl
  | cons n ns =>
    unfold compileAll
    rw [numbersOf]
    refine (writes_compile n).bind fun first head => ?_
    refine (writes_compileAll ns).bind fun rest tail => .pure ?_
    rw [numbersOf_append, head, tail]

end

end Node

theorem Document.writes_compile {ρ : Type} [Registry ρ] (d : Document) (o : Options Float) :
    Writes (d.compile o : StateM ρ (List Operator)) (d.numbers o) := by
  refine d.root.writes_compile.bind fun body written => .pure ?_
  unfold Document.numbers
  cases o.placement d.viewBox d.size <;> simp [written, Operator.numbers]

/-- What a converted document writes is the numbers that it draws. So all operands are finite
exactly if these numbers are. -/
theorem operands_finite_iff {σ ρ : Type} [Registry ρ] {e : Embedder σ} {o : Options Float}
    {text : List Char} {p : Press σ ρ} {ops : List Operator}
    (converted : (convert e o text p).1 = .ok ops) :
    ∃ d, (Document.read e o .empty text p.state).result = .ok d ∧
      ops.flatMap Operator.numbers = d.numbers o ∧
      ((∀ op ∈ ops, ∀ x ∈ op.numbers, x.isFinite = true) ↔
        ∀ x ∈ d.numbers o, x.isFinite = true) := by
  cases read : (Document.read e o .empty text p.state).result with
  | error problem => simp [convert_of_error read] at converted
  | ok d =>
    rw [convert_of_ok read] at converted
    cases converted
    have written : (d.compile o p.resources).1.flatMap Operator.numbers = d.numbers o :=
      d.writes_compile o p.resources
    refine ⟨d, rfl, written, ?_⟩
    rw [← written]
    simp only [List.mem_flatMap]
    exact ⟨fun h x ⟨op, member, own⟩ => h op member x own,
      fun h op member x own => h x ⟨op, member, own⟩⟩

/-- A triangle with one coordinate as it is written. -/
def cornerText (x : String) : List Char :=
  ["<svg><polygon ", "points=\"", x, " 0 1 1 2 0\"/>", "</svg>"].flatMap String.toList

/-- The options and the triangle are finite, and so is the page. -/
theorem operands_finite_iff_corner :
    ∃ ops, ∃ d : Document, (convert Workshop.embedder .initial (cornerText "4")
        (⟨{}, .empty⟩ : Press Workshop Resources)).1 = .ok ops ∧
      ops.flatMap Operator.numbers = d.numbers .initial ∧
        ∀ op ∈ ops, ∀ x ∈ op.numbers, x.isFinite = true := by
  generalize converted : (convert Workshop.embedder .initial (cornerText "4")
    (⟨{}, .empty⟩ : Press Workshop Resources)).1 = outcome
  have finite : (outcome.toOption.map fun ops =>
      ops.all fun op => op.numbers.all Float.isFinite) = some true := by
    rw [← converted]
    decide +kernel
  cases outcome with
  | error problem => cases finite
  | ok ops =>
    obtain ⟨d, -, written, -⟩ := operands_finite_iff converted
    exact ⟨ops, d, rfl, written, by simpa [Except.toOption, List.all_eq_true] using finite⟩

/-- A coordinate that is no finite number is read all the same, and the page has it. -/
theorem operands_not_finite :
    ∃ ops, (convert Workshop.embedder .initial (cornerText "inf")
        (⟨{}, .empty⟩ : Press Workshop Resources)).1 = .ok ops ∧
      ∃ op ∈ ops, ∃ x ∈ op.numbers, x.isFinite = false := by
  generalize converted : (convert Workshop.embedder .initial (cornerText "inf")
    (⟨{}, .empty⟩ : Press Workshop Resources)).1 = outcome
  have endless : (outcome.toOption.map fun ops =>
      ops.any fun op => op.numbers.any fun x => !x.isFinite) = some true := by
    rw [← converted]
    decide +kernel
  cases outcome with
  | error problem => cases endless
  | ok ops => exact ⟨ops, rfl, by simpa [Except.toOption, List.any_eq_true] using endless⟩

end SvgPage

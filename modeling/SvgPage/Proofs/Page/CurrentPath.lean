import SvgPage.Proofs.Page.WellFormed
import SvgPage.Proofs.Scene.BlankShapes

/-!
# The current path

To clip or to paint takes an outline that has been built since the last one was ended, and one that
starts with a move. Compilation goes from one outline to the next: at every clip and every paint the
current path is the outline of the clip or the shape in question, whole, or nothing where that is
empty. So the operators that have no path are those of the empty outlines of the scene. No document
has any as long as its shapes have data and its clip paths have shapes.
-/

namespace SvgPage

open Drawing

namespace Operator

/-- The current path after an operator. -/
def extend (path : List Operator) (op : Operator) : List Operator :=
  match op.role with
  | .build => path ++ [op]
  | .paint | .finish => []
  | _ => path

/-- What has been built since an outline was last ended. -/
def currentPath (ops : List Operator) : List Operator := ops.foldl extend []

/-- The operator clips to the current path or paints it. -/
def takesPath (op : Operator) : Bool := op.role == .clip || op.role == .paint

/-- The operator does nothing to the current path. -/
def isIdle (op : Operator) : Bool := !([Role.build, .paint, .finish, .clip].contains op.role)

/-- A path starts with a move. -/
def opensPath : List Operator → Bool
  | moveTo _ :: _ => true
  | _ => false

/-- Those operators that take a path where there is none, with a path to start from. -/
def pathlessFrom (path : List Operator) : List Operator → List Operator
  | [] => []
  | op :: ops => (if takesPath op && !opensPath path then [op] else []) ++
      pathlessFrom (extend path op) ops

def pathless (ops : List Operator) : List Operator := pathlessFrom [] ops

theorem pathlessFrom_append (path ops ops' : List Operator) : pathlessFrom path (ops ++ ops') =
    pathlessFrom path ops ++ pathlessFrom (ops.foldl extend path) ops' := by
  induction ops generalizing path with
  | nil => rfl
  | cons op ops ih =>
    simp only [List.cons_append, pathlessFrom, List.foldl_cons, ih, List.append_assoc]

/-- Every operator that clips or paints has a path, which starts with a move. -/
def HavePaths (ops : List Operator) : Prop :=
  ∀ before op after, ops = before ++ op :: after → takesPath op = true →
    opensPath (currentPath before) = true

theorem pathlessFrom_eq_nil_iff {path ops : List Operator} : pathlessFrom path ops = [] ↔
    ∀ before op after, ops = before ++ op :: after → takesPath op = true →
      opensPath (before.foldl extend path) = true := by
  induction ops generalizing path with
  | nil =>
    refine iff_of_true rfl fun before op after split => ?_
    cases before <;> cases split
  | cons op ops ih =>
    rw [pathlessFrom, List.append_eq_nil_iff, ih]
    constructor
    · rintro ⟨own, others⟩ before op' after split takes
      cases before with
      | nil =>
        cases split
        by_contra closed
        have closed : opensPath path = false := Bool.eq_false_iff.mpr closed
        simp [takes, closed] at own
      | cons first before =>
        cases split
        exact others before op' after rfl takes
    · intro all
      constructor
      · rw [if_neg]
        intro stuck
        obtain ⟨takes, closed⟩ := Bool.and_eq_true_iff.mp stuck
        have opens := all [] op ops rfl takes
        simp [show opensPath path = true from opens] at closed
      · intro before op' after split takes
        exact all (op :: before) op' after (by rw [split]; rfl) takes

theorem havePaths_iff {ops : List Operator} : HavePaths ops ↔ pathless ops = [] :=
  pathlessFrom_eq_nil_iff.symm

/-- Operators after which no outline is open, with those of them that have no path. -/
structure Leaves (missed ops : List Operator) : Prop where
  ended : ops.foldl extend [] = []
  pathless : pathlessFrom [] ops = missed

namespace Leaves

variable {missed missed' ops ops' : List Operator}

theorem nil : Leaves [] [] := ⟨rfl, rfl⟩

theorem append (h : Leaves missed ops) (h' : Leaves missed' ops') :
    Leaves (missed ++ missed') (ops ++ ops') where
  ended := by rw [List.foldl_append, h.ended, h'.ended]
  pathless := by rw [pathlessFrom_append, h.ended, h.pathless, h'.pathless]

theorem idle (h : ∀ op ∈ ops, op.isIdle = true) : Leaves [] ops := by
  induction ops with
  | nil => exact nil
  | cons op ops ih =>
    obtain ⟨own, others⟩ := List.forall_mem_cons.mp h
    have first : Leaves [] [op] := by
      constructor <;> cases op <;> first | rfl | cases own
    exact first.append (ih others)

theorem scope (opening : Leaves missed ops) (contents : Leaves missed' ops') :
    Leaves (missed ++ missed') (ops ++ ops' ++ [.pop]) := by
  have last : Leaves [] [Operator.pop] := idle (by simp [isIdle, role])
  have whole := (opening.append contents).append last
  rwa [List.append_nil] at whole

theorem idleOption {α : Type} {f : α → Operator} (h : ∀ a, (f a).isIdle = true) (a : Option α) :
    Leaves [] (a.map f).toList := by
  cases a with
  | none => exact nil
  | some a => exact idle (by simpa using h a)

end Leaves

theorem foldl_extend_path (path : List Operator) (drawn : List (PathOp Float)) :
    (Drawing.path drawn).foldl extend path = path ++ Drawing.path drawn := by
  induction drawn generalizing path with
  | nil => exact (List.append_nil path).symm
  | cons op drawn ih =>
    have build : extend path (ofPath op) = path ++ [ofPath op] := by cases op <;> rfl
    change ((Drawing.path drawn).foldl extend (extend path (ofPath op))) = _
    rw [build, ih, List.append_assoc]
    rfl

theorem pathlessFrom_path (path : List Operator) (drawn : List (PathOp Float)) :
    pathlessFrom path (Drawing.path drawn) = [] := by
  induction drawn generalizing path with
  | nil => rfl
  | cons op drawn ih =>
    have own : takesPath (ofPath op) = false := by cases op <;> rfl
    change (if takesPath (ofPath op) && _ then _ else _) ++ pathlessFrom _ (Drawing.path drawn) = []
    rw [own, ih]
    rfl

theorem opensPath_path {drawn : List (PathOp Float)} (opens : Path.OpensWithMove drawn) :
    opensPath (Drawing.path drawn) = !drawn.isEmpty := by
  cases drawn with
  | nil => rfl
  | cons op drawn =>
    have moves := opens op rfl
    cases op with
    | moveTo p => rfl
    | lineTo | curveTo | close => cases moves

/-- The operator behind an outline, if it takes a path and the outline is empty. -/
def pathlessAfter (drawn : List (PathOp Float)) (op : Operator) : List Operator :=
  if drawn.isEmpty && takesPath op then [op] else []

theorem Leaves.path {drawn : List (PathOp Float)} (opens : Path.OpensWithMove drawn)
    {op : Operator} {after : List Operator}
    (ended : after.foldl extend (extend (Drawing.path drawn) op) = [])
    (idle : pathlessFrom (extend (Drawing.path drawn) op) after = []) :
    Leaves (pathlessAfter drawn op) (Drawing.path drawn ++ op :: after) := by
  constructor
  · rw [List.foldl_append, foldl_extend_path]
    exact ended
  · rw [pathlessFrom_append, pathlessFrom_path, foldl_extend_path]
    change (if takesPath op && !opensPath (Drawing.path drawn) then [op] else []) ++
      pathlessFrom (extend (Drawing.path drawn) op) after = _
    rw [idle, opensPath_path opens, List.append_nil, pathlessAfter, Bool.not_not, Bool.and_comm]

end Operator

open Operator

def Shape.pathEnd (s : Shape Float) : Operator :=
  Drawing.pathEnd (solidFill? s.paint).isSome (s.paint.stroke.bind soleColor?).isSome
    s.paint.fillRule

/-- The clip of a node whose outline is empty. -/
def Base.pathless (base : Base Float) : List Operator :=
  base.clip.toList.flatMap fun c => pathlessAfter c.ops (.clip c.rule)

/-- The operators of a figure that have no path. -/
def Figure.pathless : Figure → List Operator
  | .shape s => s.base.pathless ++ pathlessAfter s.ops s.pathEnd
  | f => f.base.pathless

/-- Where a figure is clipped or painted there is something in the outline. -/
structure Figure.Outlined (f : Figure) : Prop where
  clip : ∀ c, f.base.clip = some c → c.ops ≠ []
  shape : ∀ s, f = .shape s → takesPath s.pathEnd = true → s.ops ≠ []

theorem pathlessAfter_eq_nil_iff {drawn : List (PathOp Float)} {op : Operator} :
    pathlessAfter drawn op = [] ↔ (takesPath op = true → drawn ≠ []) := by
  unfold pathlessAfter
  cases drawn <;> simp

theorem Base.pathless_eq_nil_iff {base : Base Float} :
    base.pathless = [] ↔ ∀ c, base.clip = some c → c.ops ≠ [] := by
  unfold Base.pathless
  cases base.clip with
  | none => simp
  | some c =>
    have takes : takesPath (.clip c.rule) = true := rfl
    simp [pathlessAfter_eq_nil_iff, takes]

theorem Figure.pathless_eq_nil_iff {f : Figure} : f.pathless = [] ↔ f.Outlined := by
  cases f with
  | shape s =>
    unfold Figure.pathless
    rw [List.append_eq_nil_iff, Base.pathless_eq_nil_iff, pathlessAfter_eq_nil_iff]
    constructor
    · rintro ⟨clip, own⟩
      refine ⟨clip, ?_⟩
      rintro _ ⟨⟩
      exact own
    · intro outlined
      exact ⟨outlined.clip, outlined.shape s rfl⟩
  | image | text | group =>
    unfold Figure.pathless
    rw [Base.pathless_eq_nil_iff]
    constructor
    · intro clip
      refine ⟨clip, ?_⟩
      intro s same
      cases same
    · exact Outlined.clip

/-- A computation writes operators that end every outline, with just these of them pathless. -/
def LeavesPathless {ρ : Type} (m : StateM ρ (List Operator)) (missed : List Operator) : Prop :=
  Yields (Leaves missed) m

namespace Drawing

variable {ρ : Type} [Registry ρ]

theorem leaves_clip {drawn : List (PathOp Float)} (opens : Path.OpensWithMove drawn)
    (rule : FillRule) : Leaves (pathlessAfter drawn (.clip rule)) (clip drawn rule) := by
  unfold clip
  exact .path opens rfl rfl

theorem leaves_opening {base : Base Float} (opens : ∀ ops ∈ base.outlines, Path.OpensWithMove ops)
    (g : GraphicsState) :
    LeavesPathless (opening base g : StateM ρ (List Operator)) base.pathless := by
  have state : LeavesPathless (graphicsState g : StateM ρ (List Operator)) [] := by
    unfold graphicsState
    split
    · exact .pure .nil
    · exact (Yields.any _).bind fun _ _ => .pure (.idle (by simp [isIdle, role]))
  refine state.bind fun written left => .pure ?_
  have start : Leaves [] (.push :: base.transform.map .concat) :=
    .idle (by simp [isIdle, role])
  have clipped : Leaves base.pathless (clipping base.clip) := by
    unfold Base.pathless
    cases there : base.clip with
    | none => exact .nil
    | some c =>
      have own := leaves_clip (opens c.ops (by simp [Base.outlines, there])) c.rule
      simpa [clipping] using own
  have whole := (start.append clipped).append left
  rwa [List.nil_append, List.append_nil] at whole

/-- A gradient is clipped to an outline that is there, since it has a box. -/
theorem leaves_gradientOf {s : Shape Float} (opens : Path.OpensWithMove s.ops) :
    LeavesPathless (gradientOf s : StateM ρ (List Operator)) [] := by
  unfold gradientOf
  cases s.paint.fill with
  | none => exact .pure .nil
  | some paint =>
    cases paint with
    | solid color => exact .pure .nil
    | gradient g =>
      dsimp only
      unfold gradientFill
      cases placed : (Path.bbox? s.ops).bind g.place? with
      | none => exact .pure .nil
      | some place =>
        refine (Yields.any _).bind fun name _ => .pure ?_
        have some : s.ops.isEmpty = false := by
          cases drawn : s.ops with
          | nil =>
            rw [drawn] at placed
            cases placed
          | cons op ops => rfl
        have clipped := leaves_clip opens s.paint.fillRule
        rw [pathlessAfter, some] at clipped
        have start : Leaves [] [Operator.push] := .idle (by simp [isIdle, role])
        have rest : Leaves [] [.concat place.matrix, .paintShading name, .pop] :=
          .idle (by simp [isIdle, role])
        exact (start.append clipped).append rest

theorem leaves_outline {s : Shape Float} (opens : Path.OpensWithMove s.ops) :
    Leaves (pathlessAfter s.ops s.pathEnd) (outline s) := by
  have settings :
      Leaves [] (((s.paint.stroke.bind soleColor?).map (strokeSettings s.paint)).getD []) := by
    cases s.paint.stroke.bind soleColor? with
    | none => exact .nil
    | some color =>
      have own : Leaves [] [Operator.strokeColor color] := .idle (by simp [isIdle, role])
      exact ((((own.append (.idleOption (fun _ => rfl) _)).append
        (.idleOption (fun _ => rfl) _)).append (.idleOption (fun _ => rfl) _)).append
          (.idleOption (fun _ => rfl) _)).append (.idleOption (fun _ => rfl) _)
  have fill : Leaves [] ((solidFill? s.paint).map Operator.fillColor).toList :=
    .idleOption (fun _ => rfl) _
  have drawn : Leaves (pathlessAfter s.ops s.pathEnd) (path s.ops ++ [s.pathEnd]) := by
    apply Leaves.path opens
    · unfold Shape.pathEnd
      cases (solidFill? s.paint).isSome <;> cases (s.paint.stroke.bind soleColor?).isSome <;> rfl
    · rfl
  have whole := (fill.append settings).append drawn
  rw [List.nil_append, List.nil_append, ← List.append_assoc] at whole
  exact whole

theorem leaves_shape {s : Shape Float}
    (opens : ∀ ops ∈ (Figure.shape s).outlines, Path.OpensWithMove ops) :
    LeavesPathless (shape s : StateM ρ (List Operator)) (Figure.shape s).pathless := by
  obtain ⟨own, carried⟩ := List.forall_mem_cons.mp opens
  refine (leaves_opening carried (shapeState s)).bind fun start opened => ?_
  refine (leaves_gradientOf own).bind fun gradient filled => .pure ?_
  exact opened.scope (filled.append (leaves_outline own))

theorem leaves_image {i : PlacedImage Float}
    (opens : ∀ ops ∈ (Figure.image i).outlines, Path.OpensWithMove ops) :
    LeavesPathless (image i : StateM ρ (List Operator)) (Figure.image i).pathless := by
  refine (leaves_opening opens _).bind fun start opened => ?_
  refine (Yields.any _).bind fun name _ => .pure ?_
  have placed : Leaves [] [.concat (.translate i.box.x (i.box.y + i.box.height)),
      .concat (.scale i.box.width (-i.box.height)), .drawImage name] :=
    .idle (by simp [isIdle, role])
  have whole := opened.scope placed
  rwa [List.append_nil] at whole

theorem leaves_run (t : TextStyle Float) (font : String) (pen : Point Float)
    (characters : List Char) : Leaves [] (run t font pen characters) := by
  have mode (m : Nat) : Leaves [] (if m = 0 then [] else [Operator.renderMode m]) := by
    split
    · exact .nil
    · exact .idle (by simp [isIdle, role])
  have start : Leaves [] [.beginText, .font font t.size] := .idle (by simp [isIdle, role])
  have shown : Leaves [] [.textMatrix ⟨1, 0, 0, -1, pen.x, pen.y⟩,
      .showText (t.font.encode (String.ofList characters)), .endText] :=
    .idle (by simp [isIdle, role])
  exact ((((Leaves.idleOption (fun _ => rfl) _).append (.idleOption (fun _ => rfl) _)).append
    start).append (mode _)).append shown

mutual

theorem leaves_textItem (t : TextStyle Float) {item : TextItem Float}
    (opens : ∀ f ∈ item.figures, ∀ ops ∈ f.outlines, Path.OpensWithMove ops) (c : Cursor) :
    Yields (fun written => Leaves (item.figures.flatMap Figure.pathless) written.1)
      (textItem t item c : StateM ρ (List Operator × Cursor)) := by
  cases item with
  | literal characters =>
    unfold textItem
    exact (Yields.any _).bind fun name _ => .pure (leaves_run ..)
  | nested inner items =>
    unfold textItem
    rw [TextItem.figures] at opens ⊢
    obtain ⟨own, others⟩ := List.forall_mem_cons.mp opens
    refine (leaves_opening own (textState inner)).bind fun start opened => ?_
    refine (leaves_textItems inner others _).bind fun body written => .pure ?_
    exact opened.scope written

theorem leaves_textItems (t : TextStyle Float) {items : List (TextItem Float)}
    (opens : ∀ f ∈ TextItem.figuresAmong items, ∀ ops ∈ f.outlines, Path.OpensWithMove ops)
    (c : Cursor) :
    Yields (fun written => Leaves ((TextItem.figuresAmong items).flatMap Figure.pathless) written.1)
      (textItems t items c : StateM ρ (List Operator × Cursor)) := by
  cases items with
  | nil =>
    unfold textItems
    exact .pure .nil
  | cons i is =>
    unfold textItems
    rw [TextItem.figuresAmong] at opens ⊢
    obtain ⟨first, others⟩ := List.forall_mem_append.mp opens
    refine (leaves_textItem t first c).bind fun head left => ?_
    refine (leaves_textItems t others head.2).bind fun tail right => .pure ?_
    rw [List.flatMap_append]
    exact left.append right

end

end Drawing

namespace Node

variable {ρ : Type} [Registry ρ]

mutual

/-- By induction on the scene: between two nodes there is no path, and the operators without a path
are in each node those of its own empty outlines. -/
theorem leaves_compile {n : Node Float}
    (opens : ∀ f ∈ n.figures, ∀ ops ∈ f.outlines, Path.OpensWithMove ops) :
    LeavesPathless (n.compile : StateM ρ (List Operator)) (n.figures.flatMap Figure.pathless) := by
  cases n with
  | shape s =>
    unfold compile
    rw [figures, List.flatMap_singleton]
    exact leaves_shape (opens _ (List.mem_singleton.mpr rfl))
  | image i =>
    unfold compile
    rw [figures, List.flatMap_singleton]
    exact leaves_image (opens _ (List.mem_singleton.mpr rfl))
  | text t items =>
    unfold compile Drawing.text
    have whole := @leaves_textItem ρ _ t (.nested t items) opens ⟨⟨0, 0⟩, none⟩
    exact whole.bind fun written left => .pure left
  | group paint base children =>
    unfold compile
    rw [figures] at opens ⊢
    obtain ⟨own, others⟩ := List.forall_mem_cons.mp opens
    refine (leaves_opening own _).bind fun start opened => ?_
    refine (leaves_compileAll others).bind fun body written => .pure ?_
    exact opened.scope written

theorem leaves_compileAll {ns : List (Node Float)}
    (opens : ∀ f ∈ figuresAmong ns, ∀ ops ∈ f.outlines, Path.OpensWithMove ops) :
    LeavesPathless (compileAll ns : StateM ρ (List Operator))
      ((figuresAmong ns).flatMap Figure.pathless) := by
  cases ns with
  | nil =>
    unfold compileAll
    exact .pure .nil
  | cons n ns =>
    unfold compileAll
    rw [figuresAmong] at opens ⊢
    obtain ⟨first, others⟩ := List.forall_mem_append.mp opens
    refine (leaves_compile first).bind fun head left => ?_
    refine (leaves_compileAll others).bind fun tail right => .pure ?_
    rw [List.flatMap_append]
    exact left.append right

end

end Node

theorem Document.leaves_compile {ρ : Type} [Registry ρ] {d : Document}
    (opens : ∀ f ∈ d.root.figures, ∀ ops ∈ f.outlines, Path.OpensWithMove ops)
    (o : Options Float) :
    LeavesPathless (d.compile o : StateM ρ (List Operator))
      (d.root.figures.flatMap Figure.pathless) := by
  refine (Node.leaves_compile opens).bind fun body left => .pure ?_
  cases o.placement d.viewBox d.size with
  | none => exact left
  | some m =>
    have start : Leaves [] [.push, .concat m] := .idle (by simp [isIdle, role])
    exact start.scope left

/-- Where the drawn shapes have data and the clip paths have shapes, every figure is outlined. -/
theorem Rounds.outlined_of_filled {σ : Type} {e : Embedder σ} {o : Options Float}
    {fonts : FontTable} {text : List Char} {s : σ} (r : Rounds e o fonts text s)
    (shapes : ∀ site ∈ r.root.drawn [], site.head.isOf ElementKind.isShape = true →
      site.head.isBlank = false)
    (clipPaths : ∀ e ∈ r.root.elements, e.head.isOf (· == .clipPath) = true → e.isBlank = false) :
    ∀ f ∈ r.document.root.figures, f.Outlined := by
  intro f drawn
  constructor
  · intro c clipped
    obtain ⟨e, inside, isClipPath, same⟩ := r.exists_clipPath drawn clipped
    rw [clipPaths e inside isClipPath] at same
    exact List.isEmpty_eq_false_iff.mp same
  · rintro s rfl -
    obtain ⟨site, inside, isShape, same⟩ := r.exists_shape drawn
    rw [shapes site inside isShape] at same
    exact List.isEmpty_eq_false_iff.mp same

/-- In a page, the operators that clip or paint without a path are those of the empty outlines of
the scene, in order. So there is none exactly if every figure has something in the outlines that it
is clipped to or painted by, and that is so where all shapes and clip paths have content. -/
theorem convert_havePaths_iff {σ ρ : Type} [Registry ρ] {e : Embedder σ} {o : Options Float}
    {text : List Char} {p : Press σ ρ} {ops : List Operator}
    (converted : (convert e o text p).1 = .ok ops) :
    ∃ root d, Xml.Node.read? text = some root ∧
      (Document.read e o .empty text p.state).result = .ok d ∧
      Operator.pathless ops = d.root.figures.flatMap Figure.pathless ∧
      (HavePaths ops ↔ ∀ f ∈ d.root.figures, f.Outlined) ∧
      ((∀ site ∈ root.drawn [], site.head.isOf ElementKind.isShape = true →
          site.head.isBlank = false) →
        (∀ e ∈ root.elements, e.head.isOf (· == .clipPath) = true → e.isBlank = false) →
          HavePaths ops) := by
  cases read : (Document.read e o .empty text p.state).result with
  | error problem => simp [convert_of_error read] at converted
  | ok d =>
    rw [convert_of_ok read] at converted
    cases converted
    obtain ⟨r, rfl⟩ := Document.exists_rounds read
    have written := (Document.leaves_compile r.outlined_figures o p.resources).pathless
    have present : HavePaths (r.document.compile o p.resources).1 ↔
        ∀ f ∈ r.document.root.figures, f.Outlined := by
      rw [havePaths_iff, Operator.pathless, written, List.flatMap_eq_nil_iff]
      exact forall₂_congr fun f _ => Figure.pathless_eq_nil_iff
    refine ⟨r.root, r.document, Document.read?_of_frame r.framed, rfl, written, present, ?_⟩
    intro shapes clipPaths
    exact present.mpr (r.outlined_of_filled shapes clipPaths)

/-- A path, and a rectangle that is clipped to the same path, with its data as it is written. -/
def tracedText (data : String) : List Char :=
  ["<svg><path d=\"", data, "\"/>", "<clipPath id=\"a\">", "<path d=\"", data, "\"/>",
    "</clipPath>", "<rect width=\"1\" ", "height=\"1\" ", "clip-path=\"", "url(#a)\"/>", "</svg>"]
    |>.flatMap String.toList

/-- Two shapes are painted and one is clipped, and none of them is blank. -/
theorem convert_havePaths_iff_traced :
    ∃ ops, (convert Workshop.embedder .initial (tracedText "M0 0h2v2z")
        (⟨{}, .empty⟩ : Press Workshop Resources)).1 = .ok ops ∧
      (ops.filter takesPath).map Operator.role = [.paint, .clip, .paint] ∧ HavePaths ops := by
  have filled : ((Xml.Node.read? (tracedText "M0 0h2v2z")).map fun root => decide
      ((∀ site ∈ root.drawn [], site.head.isOf ElementKind.isShape = true →
          site.head.isBlank = false) ∧
        ∀ e ∈ root.elements, e.head.isOf (· == .clipPath) = true → e.isBlank = false)) =
      some true := by
    decide +kernel
  generalize converted : (convert Workshop.embedder .initial (tracedText "M0 0h2v2z")
    (⟨{}, .empty⟩ : Press Workshop Resources)).1 = outcome
  have taken : (outcome.toOption.map fun ops => (ops.filter takesPath).map Operator.role) =
      some [.paint, .clip, .paint] := by
    rw [← converted]
    decide +kernel
  cases outcome with
  | error problem => cases taken
  | ok ops =>
    obtain ⟨root, d, tree, -, -, -, present⟩ := convert_havePaths_iff converted
    rw [tree] at filled
    obtain ⟨shapes, clipPaths⟩ := of_decide_eq_true (Option.some.inj filled)
    exact ⟨ops, rfl, Option.some.inj taken, present shapes clipPaths⟩

/-- Empty path data is read all the same. The path is filled and the rectangle is clipped with no
path there. -/
theorem not_havePaths_blank :
    ∃ ops, (convert Workshop.embedder .initial (tracedText "")
        (⟨{}, .empty⟩ : Press Workshop Resources)).1 = .ok ops ∧
      (Operator.pathless ops).map Operator.role = [.paint, .clip] ∧ ¬HavePaths ops := by
  generalize converted : (convert Workshop.embedder .initial (tracedText "")
    (⟨{}, .empty⟩ : Press Workshop Resources)).1 = outcome
  have pathless : (outcome.toOption.map fun ops => (Operator.pathless ops).map Operator.role) =
      some [.paint, .clip] := by
    rw [← converted]
    decide +kernel
  cases outcome with
  | error problem => cases pathless
  | ok ops =>
    have some : (Operator.pathless ops).map Operator.role = [.paint, .clip] :=
      Option.some.inj pathless
    refine ⟨ops, rfl, some, fun present => ?_⟩
    rw [havePaths_iff.mp present] at some
    cases some

end SvgPage

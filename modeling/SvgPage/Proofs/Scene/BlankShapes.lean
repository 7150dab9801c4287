import SvgPage.Proofs.Scene.Outlines
import SvgPage.Proofs.Text.Pieces

/-!
# Blank shapes

Path data and lists of points may be missing, or hold separators only. A shape with such data has
nothing in its outline, and no other shape has. So a clip path has an empty outline exactly if all
the shapes in it are of this kind, as where there is none.
-/

namespace SvgPage

open Xml

namespace PathData

variable {α : Type} [Scalar α]

theorem Reaches.isSeparator_of_mem {previous last : Option Command} {cs : List Char}
    (way : Reaches (α := α) previous cs [] last []) : ∀ c ∈ cs, isSeparator c = true := by
  generalize unread : ([] : List (Segment α)) = segments at way
  generalize stop : ([] : List Char) = rest at way
  induction way with
  | here =>
    subst stop
    nofun
  | separator separates _ ih => exact List.forall_mem_cons.mpr ⟨separates, ih unread stop⟩
  | group => cases unread

theorem isEmpty_outline {text : List Char} {ops : List (PathOp α)} (read : outline text = .ok ops) :
    ops.isEmpty = text.all isSeparator := by
  rw [outline_eq] at read
  by_cases blank : ∀ c ∈ text, isSeparator c = true
  · rw [segmentsFrom_of_skip_eq_nil (List.dropWhile_eq_nil_iff.mpr blank)] at read
    cases read
    exact (List.all_eq_true.mpr blank).symm
  · obtain ⟨segments, last, done | ⟨rest, fault, way, fails⟩⟩ :=
      Reaches.exists_end (α := α) none text
    · have some : segments ≠ [] := by
        rintro rfl
        exact blank done.isSeparator_of_mem
      obtain ⟨p, head⟩ := (done.tracks some).opens
      rw [done.segmentsFrom_of_end] at read
      cases read
      have content : text.all isSeparator = false :=
        Bool.eq_false_iff.mpr fun all => blank (List.all_eq_true.mp all)
      rw [content, List.isEmpty_eq_false_iff]
      intro nothing
      rw [nothing] at head
      cases head
    · rw [way.segmentsFrom_of_fails fails] at read
      cases read

end PathData

theorem isEmpty_readPoints? {cs : List Char} {ps : List (Point Float)}
    (read : readPoints? cs = some ps) : ps.isEmpty = cs.all Text.isSeparator := by
  obtain ⟨xs, numbers, pairs⟩ := Option.bind_eq_some_iff.mp read
  have points : ps.isEmpty = xs.isEmpty := by
    unfold pointPairs? at pairs
    split at pairs
    · cases pairs
      rfl
    · obtain ⟨rest, -, rfl⟩ := Option.map_eq_some_iff.mp pairs
      rfl
    · cases pairs
  have words : xs.isEmpty = (Text.fields Text.isSeparator cs).isEmpty := by
    cases fields : Text.fields Text.isSeparator cs with
    | nil =>
      rw [fields] at numbers
      cases numbers
      rfl
    | cons word words =>
      rw [fields, List.mapM_cons] at numbers
      obtain ⟨x, -, numbers⟩ := Option.bind_eq_some_iff.mp numbers
      obtain ⟨rest, -, numbers⟩ := Option.bind_eq_some_iff.mp numbers
      cases numbers
      rfl
  rw [points, words, Bool.eq_iff_iff, List.isEmpty_iff, Text.fields_eq_nil_iff, List.all_eq_true]

namespace Xml

/-- Elements without an outline: those that are no shapes, and shapes without data. -/
def Head.isBlank (h : Head) : Bool :=
  match h.kind with
  | .ok .path => ((h.get? "d").getD "").toList.all PathData.isSeparator
  | .ok .polygon | .ok .polyline => ((h.get? "points").getD "").toList.all Text.isSeparator
  | .ok kind => !kind.isShape
  | .error _ => true

theorem Head.Draws.isEmpty_eq {h : Head} {kind : ElementKind} {ops : List (PathOp Float)}
    (draws : h.Draws kind ops) (known : h.kind = .ok kind) : ops.isEmpty = h.isBlank := by
  unfold Head.isBlank
  rw [known]
  -- A missing attribute is as good as one without characters.
  have points {ps : Option (List (Point Float))}
      (read : h.read "points" (fun raw => readPoints? raw.toList) = .ok ps) :
      (ps.getD []).isEmpty = ((h.get? "points").getD "").toList.all Text.isSeparator := by
    unfold Head.read at read
    cases given : h.get? "points" with
    | none =>
      rw [given] at read
      cases read
      rfl
    | some raw =>
      rw [given] at read
      obtain ⟨ps', wanted, rfl⟩ := exists_of_map_eq_ok read
      exact isEmpty_readPoints? (Properties.required_eq_ok_iff.mp wanted)
  cases draws with
  | solid plain =>
    cases kind <;> first | rfl | cases plain
  | @polygon ps read =>
    rw [← points read]
    cases ps.getD [] <;> rfl
  | @polyline ps read =>
    rw [← points read]
    cases ps.getD [] <;> rfl
  | path drawn => exact PathData.isEmpty_outline (PathData.outline_of_report drawn)
  | nothing noShape =>
    cases kind <;> first | rfl | cases noShape

/-- An element that encloses nothing: no shape in it has an outline. -/
def Element.isBlank (e : Element) : Bool :=
  e.inner.all fun inner => !inner.head.isOf ElementKind.isClipShape || inner.head.isBlank

end Xml

namespace Context

variable {cx : Context}

/-- By induction on the elements of a clip path. -/
theorem isEmpty_of_clipOutline {container : String} {m : Matrix Float} {es : List Element}
    {ops : List (PathOp Float)} (read : cx.clipOutline container m es = .ok ops) :
    ops.isEmpty = es.all fun e => !e.head.isOf ElementKind.isClipShape || e.head.isBlank := by
  induction es generalizing ops with
  | nil =>
    cases read
    rfl
  | cons e es ih =>
    obtain ⟨kind, first, more, known, others, rfl, own⟩ := parts_of_clipOutline read
    have both : (first ++ more).isEmpty = (first.isEmpty && more.isEmpty) := by
      cases first <;> rfl
    rw [both, List.all_cons, ih others, Head.isOf_eq known]
    congr 1
    rcases own with ⟨isShape, drawn, place, outlined, rfl⟩ | ⟨noShape, rfl⟩
    · rw [isShape, ← (draws_of_outline outlined).isEmpty_eq known]
      exact List.isEmpty_map
    · rw [noShape]
      rfl

theorem isEmpty_of_clipPath {e : Element} {c : ClipPath Float} (read : cx.clipPath e = .ok c) :
    c.ops.isEmpty = e.isBlank := by
  unfold Context.clipPath at read
  obtain ⟨units, -, read⟩ := exists_of_bind_eq_ok read
  obtain ⟨rule, -, read⟩ := exists_of_bind_eq_ok read
  obtain ⟨own, -, read⟩ := exists_of_bind_eq_ok read
  obtain ⟨ops, children, read⟩ := exists_of_bind_eq_ok read
  cases read
  exact isEmpty_of_clipOutline children

theorem clipPath_of_definition? {e : Element} {c : ClipPath Float}
    (read : cx.definition? e = some (.ok (.clipPath c))) :
    e.head.kind = .ok .clipPath ∧ cx.clipPath e = .ok c := by
  unfold definition? at read
  split at read
  case h_3 known =>
    obtain ⟨c', own, same⟩ := exists_of_map_eq_ok (Option.some.inj read)
    cases same
    exact ⟨known, own⟩
  case h_1 | h_2 | h_4 | h_5 =>
    obtain ⟨_, -, same⟩ := exists_of_map_eq_ok (Option.some.inj read)
    cases same
  case h_6 => cases read

/-- The outline of a shape is empty exactly if its element is blank, whatever is inherited. -/
theorem upholds_blank : cx.Upholds (fun _ _ _ => True) fun site f => ∀ s, f = .shape s →
    site.head.isOf ElementKind.isShape = true ∧ s.ops.isEmpty = site.head.isBlank where
  shape := by
    intro head around paint wanted kind s _ known isShape read
    rintro _ ⟨⟩
    obtain ⟨outlined, -, -⟩ := parts_of_shape read
    exact ⟨(Head.isOf_eq known _).trans isShape, (draws_of_outline outlined).isEmpty_eq known⟩
  image := by
    intro head around paint wanted handle i _ known read s same
    cases same
  text := by
    intro head around paint wanted start _ isText read
    refine ⟨trivial, fun style read' s same => ?_⟩
    cases same
  group := by
    intro head around inherited start _ isGroup read
    refine ⟨trivial, fun isNested children g read' => ?_⟩
    obtain ⟨base, place, carried, -, rfl⟩ := parts_of_groupEnd read'
    refine ⟨_, rfl, fun s same => ?_⟩
    cases same

end Context

namespace Rounds

variable {σ : Type} {e : Embedder σ} {o : Options Float} {fonts : FontTable} {text : List Char}
  {s : σ} (r : Rounds e o fonts text s)

theorem exists_shape {s : Shape Float} (drawn : .shape s ∈ r.document.root.figures) :
    ∃ site ∈ r.root.drawn [], site.head.isOf ElementKind.isShape = true ∧
      s.ops.isEmpty = site.head.isBlank := by
  obtain ⟨site, inside, same⟩ :=
    exists_of_forall₂ (r.forall₂_figures Context.upholds_blank trivial).flip drawn
  exact ⟨site, inside, same s rfl⟩

theorem exists_clipPath {f : Figure} (drawn : f ∈ r.document.root.figures) {c : Clip Float}
    (clipped : f.base.clip = some c) : ∃ e ∈ r.root.elements,
      e.head.isOf (· == .clipPath) = true ∧ c.ops.isEmpty = e.isBlank := by
  obtain ⟨site, -, resolves⟩ := exists_of_forall₂ r.forall₂_resolves.flip drawn
  obtain ⟨clipPath, refers, carried⟩ := resolves.base.clip
  rw [carried] at clipped
  obtain ⟨c', given, rfl⟩ := Option.map_eq_some_iff.mp clipped
  obtain ⟨id, found⟩ := refers.exists_registered c' given
  obtain ⟨e, inside, defined⟩ := Context.exists_definition?_of_gathered rfl r.gathered found rfl
  obtain ⟨known, read⟩ := Context.clipPath_of_definition? defined
  refine ⟨e, inside, (Head.isOf_eq known _).trans rfl, ?_⟩
  rw [← Context.isEmpty_of_clipPath read]
  change (c'.opsFor f.box).isEmpty = _
  unfold ClipPath.opsFor
  split
  · exact List.isEmpty_map
  · rfl

end Rounds

end SvgPage

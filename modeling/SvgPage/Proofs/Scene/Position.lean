import Mathlib
import SvgPage.Page.Conversion
import SvgPage.Page.Resources
import SvgPage.Proofs.Scene.Insertion
import SvgPage.Proofs.Scene.Relaxation
import SvgPage.Proofs.Scene.Rounds

/-!
# Where definitions stand

A definition may stand anywhere among the contents of a picture, a group or a definition list,
before or after its uses and in any order with the others. Only for the style sheets of a document
the order counts, so a definition that takes one along is another matter.
-/

namespace SvgPage

open Xml

def Xml.Element.style? (e : Element) : Option (List Char) :=
  match e.head.kind with
  | .ok .style => some (e.children.flatMap Xml.Node.styleText)
  | _ => none

theorem Xml.Element.style?_of_style {e : Element} (known : e.head.kind = .ok .style) :
    e.style? = some (e.children.flatMap Xml.Node.styleText) := by
  rw [style?, known]

theorem Xml.Element.style?_of_other {e : Element} (other : e.head.kind = .ok .style → False) :
    e.style? = none := by
  unfold style?
  split
  · next known => exact (other known).elim
  · rfl

def Xml.Node.styles (n : Xml.Node) : List (List Char) := n.elements.filterMap Element.style?

/-- Of a tree, the first round sees the style sheets only. -/
theorem StyleBlock.applyAll_eq_forM {σ : Type} (e : Embedder σ) (es : List Element) :
    applyAll e es = (es.filterMap Element.style?).forM (apply e) := by
  induction es with
  | nil => rfl
  | cons element es ih =>
    rw [applyAll, ih]
    split
    · next known =>
      rw [List.filterMap_cons_some (Element.style?_of_style known)]
      rfl
    · next other => rw [List.filterMap_cons_none (Element.style?_of_other other)]

theorem StyleBlock.applyAll_congr {σ : Type} (e : Embedder σ) {n n' : Xml.Node}
    (styles : n'.styles = n.styles) : applyAll e n'.elements = applyAll e n.elements := by
  rw [applyAll_eq_forM, applyAll_eq_forM]
  exact congrArg (fun sheets => sheets.forM (apply e)) styles

/-- Trees that differ in the place of one definition. -/
def Xml.Node.Moved (n n' : Xml.Node) : Prop :=
  ∃ d base : Xml.Node, d.IsDefinition ∧ Inserted Head.IsContainer d base n ∧
    Inserted Head.IsContainer d base n'

namespace Xml.Node.Moved

variable {n n' : Xml.Node}

theorem symm (h : Moved n n') : Moved n' n := by
  obtain ⟨d, base, defines, here, there⟩ := h
  exact ⟨d, base, defines, there, here⟩

theorem exists_head (h : Moved n n') :
    ∃ head children children', n = .element head children ∧ n' = .element head children' := by
  obtain ⟨d, base, -, here, there⟩ := h
  obtain ⟨head, _, children, rfl, rfl⟩ := here.exists_head
  obtain ⟨_, _, children', same, rfl⟩ := there.exists_head
  cases same
  exact ⟨head, children, children', rfl, rfl⟩

theorem declared_perm (h : Moved n n') (cx : Context) :
    (cx.declared n').Perm (cx.declared n) := by
  obtain ⟨d, base, -, here, there⟩ := h
  exact (there.declared_perm cx).trans (here.declared_perm cx).symm

theorem scene_eq (h : Moved n n') {σ : Type} (e : Embedder σ) (cx : Context) (fontSize : Float) :
    Document.scene e cx fontSize n' = Document.scene e cx fontSize n := by
  obtain ⟨d, base, defines, here, there⟩ := h
  unfold Document.scene
  rw [(here.drawnAlike defines).node, (there.drawnAlike defines).node]

end Xml.Node.Moved

theorem Document.frame_congr {text text' : List Char} {head : Head}
    {children children' : List Xml.Node}
    (read : Xml.Node.read? text = some (.element head children))
    (read' : Xml.Node.read? text' = some (.element head children')) :
    frame text' = (frame text).map fun framed => (.element head children', framed.2) := by
  simp only [frame, rootElement, read, read']
  split
  · simp only [bind, Except.bind]
    cases head.read "viewBox" fun raw => ViewBox.read? raw.toList <;> rfl
  · rfl
  · rfl

variable {σ : Type}

/-- Outcomes that are the same but for the order in which definitions were registered. -/
structure Outcome.Alike (x y : Outcome σ) : Prop where
  result : y.result = x.result
  classes : y.registers.classes = x.registers.classes
  definitions : y.registers.definitions.entries.Perm x.registers.definitions.entries
  lookups : x.registers.definitions.Agree y.registers.definitions
  fonts : y.registers.fonts = x.registers.fonts
  state : y.state = x.state

/-- Texts of which both or none can be read and converted, and with the same results. -/
structure Interchangeable (text text' : List Char) : Prop where
  readable : ∀ {σ : Type} (e : Embedder σ) o fonts s,
    (∃ d, (Document.read e o fonts text s).result = .ok d) ↔
      ∃ d, (Document.read e o fonts text' s).result = .ok d
  read : ∀ {σ : Type} (e : Embedder σ) o fonts s d,
    (Document.read e o fonts text s).result = .ok d →
      (Document.read e o fonts text s).Alike (Document.read e o fonts text' s)
  convertible : ∀ {σ ρ : Type} [Registry ρ] (e : Embedder σ) o (p : Press σ ρ),
    (∃ ops, (convert e o text p).1 = .ok ops) ↔ ∃ ops, (convert e o text' p).1 = .ok ops
  converted : ∀ {σ ρ : Type} [Registry ρ] (e : Embedder σ) o (p : Press σ ρ) ops,
    (convert e o text p).1 = .ok ops → convert e o text' p = convert e o text p

variable {e : Embedder σ} {o : Options Float} {fonts : FontTable} {s : σ}
  {text text' : List Char} {root root' : Xml.Node}

/-- Every round of a document is one of the document in which a definition has been moved. -/
theorem Rounds.exists_moved (r : Rounds e o fonts text s)
    (read : Xml.Node.read? text = some root) (read' : Xml.Node.read? text' = some root')
    (moved : root.Moved root') (styles : root'.styles = root.styles) :
    ∃ r' : Rounds e o fonts text' s, r.outcome.Alike r'.outcome := by
  obtain ⟨head, children, children', rfl, rfl⟩ := moved.exists_head
  have top := Document.frame_congr read read
  have framed := Document.frame_congr read read'
  rw [r.framed] at top framed
  have root : r.root = .element head children := congrArg Prod.fst (Except.ok.inj top)
  have styled := r.styled
  have gathered := r.gathered
  have drawn := r.drawn
  rw [root] at styled gathered drawn
  obtain ⟨definitions, gathered, entries, lookups⟩ :=
    gatherDefinitions_of_perm rfl (moved.declared_perm _) gathered
  have styled : StyleBlock.applyAll e (Xml.Node.element head children').elements
      ⟨.empty, fonts, s⟩ = (.ok (), r.desk) := by
    rw [StyleBlock.applyAll_congr e styles]
    exact styled
  -- The walk asks for definitions by id, and the two registries agree on every id.
  have relaxes : Context.Relaxes
      { Context.start o.strict r.viewBox r.size r.desk with definitions := definitions }
      { Context.start o.strict r.viewBox r.size r.desk with definitions := r.definitions } :=
    ⟨id, rfl, rfl, lookups, rfl⟩
  let r' : Rounds e o fonts text' s := {
    root := .element head children'
    viewBox := r.viewBox
    size := r.size
    desk := r.desk
    definitions := definitions
    node := r.node
    state := r.state
    framed := framed
    styled := styled
    gathered := gathered
    drawn := by
      rw [moved.scene_eq]
      exact relaxes.scene e o.fontSize _ _ _ _ drawn }
  exact ⟨r', rfl, rfl, entries, lookups, rfl, rfl⟩

theorem Document.read_moved (read : Xml.Node.read? text = some root)
    (read' : Xml.Node.read? text' = some root') (moved : root.Moved root')
    (styles : root'.styles = root.styles) {d : Document}
    (ok : (Document.read e o fonts text s).result = .ok d) :
    (Document.read e o fonts text s).Alike (Document.read e o fonts text' s) := by
  obtain ⟨r, -⟩ := exists_rounds ok
  obtain ⟨r', alike⟩ := r.exists_moved read read' moved styles
  rwa [r.read_eq, r'.read_eq]

theorem convert_moved {ρ : Type} [Registry ρ] {p : Press σ ρ}
    (read : Xml.Node.read? text = some root) (read' : Xml.Node.read? text' = some root')
    (moved : root.Moved root') (styles : root'.styles = root.styles) {ops : List Operator}
    (ok : (convert e o text p).1 = .ok ops) : convert e o text' p = convert e o text p := by
  cases found : (Document.read e o .empty text p.state).result with
  | error problem => simp [convert_of_error found] at ok
  | ok d =>
    have alike := Document.read_moved read read' moved styles found
    rw [convert_of_ok found, convert_of_ok (alike.result.trans found), alike.state]

/-- A definition may be moved to any place among the contents of a picture, a group or a definition
list: as long as the style sheets stay in order, nothing is read or converted differently. -/
theorem interchangeable_of_moved (read : Xml.Node.read? text = some root)
    (read' : Xml.Node.read? text' = some root') (moved : root.Moved root')
    (styles : root'.styles = root.styles) : Interchangeable text text' where
  readable e o fonts s := by
    constructor
    · rintro ⟨d, ok⟩
      exact ⟨d, (Document.read_moved read read' moved styles ok).result.trans ok⟩
    · rintro ⟨d, ok⟩
      exact ⟨d, (Document.read_moved read' read moved.symm styles.symm ok).result.trans ok⟩
  read e o fonts s d ok := Document.read_moved read read' moved styles ok
  convertible e o p := by
    constructor
    · rintro ⟨ops, ok⟩
      exact ⟨ops, (congrArg Prod.fst (convert_moved read read' moved styles ok)).trans ok⟩
    · rintro ⟨ops, ok⟩
      exact ⟨ops, (congrArg Prod.fst (convert_moved read' read moved.symm styles.symm ok)).trans ok⟩
  converted e o p ops ok := convert_moved read read' moved styles ok

def plainHead (tag : String) (attributes : List (String × String)) : Head :=
  ⟨⟨none, tag⟩, attributes.map fun a => ⟨⟨none, a.1⟩, a.2⟩⟩

/-- A gradient that takes its stops from another one, which may be put in front or in the group at
the end. -/
def linkedText (front group : List String) : List Char :=
  (["<svg>"] ++ front ++ ["<rect width=\"2\" ", "height=\"1\" ", "fill=\"url(#a)\"/>",
    "<linearGradient ", "id=\"a\" href=\"#b\"/>", "<g>"] ++ group ++ ["</g></svg>"]).flatMap
      String.toList

def linkedTree (front group : List Xml.Node) : Xml.Node :=
  .element (plainHead "svg" []) (front ++ [
    .element (plainHead "rect" [("width", "2"), ("height", "1"), ("fill", "url(#a)")]) [],
    .element (plainHead "linearGradient" [("id", "a"), ("href", "#b")]) [],
    .element (plainHead "g" []) group])

def linkedStops : List String := ["<linearGradient ", "id=\"b\"><stop/>", "</linearGradient>"]

def linkedNode : Xml.Node :=
  .element (plainHead "linearGradient" [("id", "b")]) [.element (plainHead "stop" []) []]

/-- A gradient may take its stops from one that comes later or from one that has come before. -/
theorem interchangeable_linked :
    Interchangeable (linkedText [] linkedStops) (linkedText linkedStops []) ∧
    let outcome := Document.read Workshop.embedder .initial .empty (linkedText [] linkedStops) {}
    outcome.result.toOption.isSome ∧
      Shelf.keys outcome.registers.definitions.entries = ["a", "b"] := by
  refine ⟨?_, by decide +kernel⟩
  have moved : (linkedTree [] [linkedNode]).Moved (linkedTree [linkedNode] []) := by
    refine ⟨linkedNode, linkedTree [] [], ⟨_, _, .linearGradient, rfl, rfl, rfl⟩, ?_, ?_⟩
    · exact @Xml.Node.Inserted.inside _ _ _ [_, _] _ _ []
        (@Xml.Node.Inserted.between _ _ (plainHead "g" []) [] [] (.inr (.inl rfl)))
    · exact @Xml.Node.Inserted.between _ _ _ [] _ (.inl rfl)
  exact interchangeable_of_moved (by cbv) (by cbv) moved rfl

/-- A text of a class that two style sheets know. One of them stands in a clip path, which may be
put in front or at the end. -/
def sheetText (front back : List String) : List Char :=
  (["<svg>"] ++ front ++ ["<style>.a\x7bmix-", "blend-mode:", "darken\x7d</style>",
    "<text class=\"a\">", "b</text>"] ++ back ++ ["</svg>"]).flatMap String.toList

def sheetTree (front back : List Xml.Node) : Xml.Node :=
  .element (plainHead "svg" []) (front ++ [
    .element (plainHead "style" []) [.text ".a\x7bmix-blend-mode:darken\x7d".toList],
    .element (plainHead "text" [("class", "a")]) [.text ['b']]] ++ back)

def sheetClip : List String :=
  ["<clipPath>", "<style>.a\x7bmix-", "blend-mode:", "screen\x7d</style>", "</clipPath>"]

def sheetNode : Xml.Node :=
  .element (plainHead "clipPath" [])
    [.element (plainHead "style" []) [.text ".a\x7bmix-blend-mode:screen\x7d".toList]]

/-- The blend modes of what stands right in the picture. -/
def Document.blendModes (d : Document) : List (Option BlendMode) :=
  match d.root with
  | .group _ _ children => children.map fun n => n.base.blendMode
  | _ => []

/-- The last style sheet wins, so the definition that holds one cannot be moved behind another. -/
theorem not_interchangeable_of_moved :
    ¬∀ (text text' : List Char) (root root' : Xml.Node), Xml.Node.read? text = some root →
      Xml.Node.read? text' = some root' → root.Moved root' → Interchangeable text text' := by
  intro all
  have moved : (sheetTree [sheetNode] []).Moved (sheetTree [] [sheetNode]) := by
    refine ⟨sheetNode, sheetTree [] [], ⟨_, _, .clipPath, rfl, rfl, rfl⟩, ?_, ?_⟩
    · exact @Xml.Node.Inserted.between _ _ _ [] _ (.inl rfl)
    · exact @Xml.Node.Inserted.between _ _ _ [_, _] [] (.inl rfl)
  have same := all (sheetText sheetClip []) (sheetText [] sheetClip) _ _ (by cbv) (by cbv) moved
  let result (text : List Char) := (Document.read Workshop.embedder .initial .empty text {}).result
  obtain ⟨darken, screen⟩ :
      (result (sheetText sheetClip [])).toOption.map Document.blendModes = some [some .darken] ∧
        (result (sheetText [] sheetClip)).toOption.map Document.blendModes =
          some [some .screen] := by decide +kernel
  cases ok : result (sheetText sheetClip []) with
  | error problem => simp [ok, Except.toOption] at darken
  | ok d =>
    have equal : result (sheetText [] sheetClip) = result (sheetText sheetClip []) :=
      (same.read _ _ _ _ d ok).result
    rw [equal, darken] at screen
    cases screen

end SvgPage

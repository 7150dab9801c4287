import SvgPage.Scene.Document

/-!
# The rounds of a document

A document that is read passes all three rounds, and what each round leaves determines the outcome.
-/

namespace SvgPage

open Xml

variable {σ : Type}

def Context.start (strict : Bool) (viewBox : Option (Rect Float)) (size : Option (Size Float))
    (d : Desk σ) : Context :=
  ⟨strict, (viewBox.map fun b => ⟨b.width, b.height⟩).or size, d.classes, .empty, d.fonts⟩

/-- The rounds of a document, none of which makes a problem. -/
structure Rounds (e : Embedder σ) (o : Options Float) (fonts : FontTable) (text : List Char)
    (s : σ) where
  root : Xml.Node
  viewBox : Option (Rect Float)
  size : Option (Size Float)
  desk : Desk σ
  definitions : Definitions Float
  node : Node Float
  state : σ
  framed : Document.frame text = .ok (root, viewBox, size)
  styled : StyleBlock.applyAll e root.elements ⟨.empty, fonts, s⟩ = (.ok (), desk)
  gathered : gatherDefinitions (.start o.strict viewBox size desk) root = (.ok (), definitions)
  drawn : Document.scene e { Context.start o.strict viewBox size desk with definitions } o.fontSize
    root desk.state = (.ok node, state)

variable {e : Embedder σ} {o : Options Float} {fonts : FontTable} {text : List Char} {s : σ}

namespace Rounds

variable (r : Rounds e o fonts text s)

def document : Document := ⟨r.node, r.viewBox, r.size⟩

def outcome : Outcome σ :=
  ⟨.ok r.document, ⟨r.desk.classes, r.definitions, r.desk.fonts⟩, r.state⟩

theorem read_eq : Document.read e o fonts text s = r.outcome := by
  have gathered := r.gathered
  have drawn := r.drawn
  unfold Context.start at gathered drawn
  simp only [Document.read, r.framed, r.styled, gathered, drawn]
  rfl

end Rounds

theorem Document.exists_rounds {d : Document} (h : (read e o fonts text s).result = .ok d) :
    ∃ r : Rounds e o fonts text s, r.document = d := by
  cases framed : frame text with
  | error problem => simp [read, framed] at h
  | ok frame =>
    obtain ⟨root, viewBox, size⟩ := frame
    rcases styled : StyleBlock.applyAll e root.elements ⟨.empty, fonts, s⟩ with ⟨_ | ⟨⟩, desk⟩
    · simp [read, framed, styled] at h
    rcases gathered : gatherDefinitions (.start o.strict viewBox size desk) root with
      ⟨_ | ⟨⟩, definitions⟩
    · unfold Context.start at gathered
      simp [read, framed, styled, gathered] at h
    rcases drawn : scene e { Context.start o.strict viewBox size desk with definitions } o.fontSize
      root desk.state with ⟨_ | node, state⟩
    · unfold Context.start at gathered drawn
      simp [read, framed, styled, gathered, drawn, Except.map] at h
    · let r : Rounds e o fonts text s := {
        root, viewBox, size, desk, definitions, node, state, framed, styled, gathered, drawn }
      refine ⟨r, ?_⟩
      rw [r.read_eq] at h
      exact Except.ok.inj h

end SvgPage

import SvgPage.Page.Compile
import SvgPage.Scene.Document

/-!
# Conversion

A document becomes a list of operators over the resources of a page. A document that cannot be read
leaves the resources as they were.
-/

namespace SvgPage

variable {σ ρ : Type} [Registry ρ]

def Document.compile (d : Document) (o : Options Float) : StateM ρ (List Operator) := do
  let body ← d.root.compile
  return match o.placement d.viewBox d.size with
    | some m => .push :: .concat m :: body ++ [.pop]
    | none => body

/-- The state of a conversion: that of the embedder, and the resources of the page. -/
structure Press (σ ρ : Type) where
  state : σ
  resources : ρ

def convert (e : Embedder σ) (o : Options Float) (text : List Char) (p : Press σ ρ) :
    Except Problem (List Operator) × Press σ ρ :=
  let outcome := Document.read e o .empty text p.state
  match outcome.result with
  | .error problem => (.error problem, { p with state := outcome.state })
  | .ok d =>
    let (ops, resources) := d.compile o p.resources
    (.ok ops, ⟨outcome.state, resources⟩)

section

variable {e : Embedder σ} {o : Options Float} {text : List Char} {p : Press σ ρ}

theorem convert_of_error {problem : Problem}
    (h : (Document.read e o .empty text p.state).result = .error problem) :
    convert e o text p =
      (.error problem, { p with state := (Document.read e o .empty text p.state).state }) := by
  simp [convert, h]

theorem convert_of_ok {d : Document} (h : (Document.read e o .empty text p.state).result = .ok d) :
    convert e o text p = (.ok (d.compile o p.resources).1,
      ⟨(Document.read e o .empty text p.state).state, (d.compile o p.resources).2⟩) := by
  rw [convert]
  simp only [h]
  rfl

end

end SvgPage

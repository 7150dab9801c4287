import Mathlib.Data.List.Forall2
import SvgPage.Proofs.Scene.Relaxation

/-!
# Elements and figures

The drawn elements of a document become the nodes of its scene, one for one and in document order.
So what holds of the reading of every element, given what is inherited there, holds of every node.
-/

namespace SvgPage

namespace ElementKind

def isGroup (k : ElementKind) : Bool := [svg, group].contains k

def isText (k : ElementKind) : Bool := [text, tspan, textPath].contains k

/-- Pictures, groups and texts, which show their contents. -/
def isOpen (k : ElementKind) : Bool := k.isGroup || k.isText

def isPainted (k : ElementKind) : Bool := k.isShape || k.isOpen

def isDrawn (k : ElementKind) : Bool := k.isPainted || k == image

variable {k : ElementKind}

theorem isOpen_of_isShape : k.isShape = true → k.isOpen = false := by
  cases k <;> decide

theorem isDrawn_of_isShape : k.isShape = true → k.isDrawn = true := by
  cases k <;> decide

theorem isOpen_of_not_isDrawn : k.isDrawn = false → k.isOpen = false := by
  cases k <;> decide

end ElementKind

namespace Xml

def Head.isOf (h : Head) (p : ElementKind → Bool) : Bool :=
  match h.kind with
  | .ok kind => p kind
  | .error _ => false

theorem Head.isOf_eq {h : Head} {kind : ElementKind} (known : h.kind = .ok kind)
    (p : ElementKind → Bool) : h.isOf p = p kind := by
  rw [isOf, known]

/-- An element at its place: its head and those of the elements around it, the nearest first. -/
structure Site where
  head : Head
  around : List Head

namespace Node

mutual

/-- The elements of a tree that are reached through open ones, in document order. -/
def visible (around : List Head) : Node → List Site
  | element head children =>
    ⟨head, around⟩ ::
      if head.isOf ElementKind.isOpen then visibleAmong (head :: around) children else []
  | _ => []

def visibleAmong (around : List Head) : List Node → List Site
  | [] => []
  | n :: ns => visible around n ++ visibleAmong around ns

end

def areDrawn (sites : List Site) : List Site := sites.filter (·.head.isOf ElementKind.isDrawn)

def drawn (around : List Head) (n : Node) : List Site := areDrawn (n.visible around)

def drawnAmong (around : List Head) (ns : List Node) : List Site :=
  areDrawn (visibleAmong around ns)

variable (around : List Head)

theorem drawnAmong_cons (n : Node) (ns : List Node) :
    drawnAmong around (n :: ns) = n.drawn around ++ drawnAmong around ns :=
  List.filter_append ..

theorem drawnAmong_append (ns ms : List Node) :
    drawnAmong around (ns ++ ms) = drawnAmong around ns ++ drawnAmong around ms := by
  induction ns with
  | nil => rfl
  | cons n ns ih => rw [List.cons_append, drawnAmong_cons, drawnAmong_cons, ih, List.append_assoc]

section

variable {head : Head} {kind : ElementKind} (known : head.kind = .ok kind) (children : List Node)

include known

theorem drawn_open (isOpen : kind.isOpen = true) : (element head children).drawn around =
    ⟨head, around⟩ :: drawnAmong (head :: around) children := by
  simp [drawn, areDrawn, drawnAmong, visible, Head.isOf_eq known, ElementKind.isDrawn,
    ElementKind.isPainted, isOpen]

theorem drawn_closed (closed : kind.isOpen = false) : (element head children).drawn around =
    if kind.isDrawn then [⟨head, around⟩] else [] := by
  simp [drawn, areDrawn, visible, Head.isOf_eq known, closed, List.filter_cons]

end

end Node

end Xml

open Xml

/-- A node of a scene without its contents. Of a group the box is kept. -/
inductive Figure where
  | shape (s : Shape Float)
  | image (i : PlacedImage Float)
  | text (style : TextStyle Float)
  | group (paint : PaintStyle Float) (base : Base Float) (box : Option (Rect Float))

namespace Figure

/-- Whether an element of a kind can become this figure. -/
def fits : Figure → ElementKind → Bool
  | shape _, k => k.isShape
  | image _, k => k == .image
  | text _, k => k.isText
  | group .., k => k.isGroup

def base : Figure → Base Float
  | shape s => s.base
  | image i => i.base
  | text style => style.base
  | group _ base _ => base

/-- The bounding box in a figure's own user space. Text has none. -/
def box : Figure → Option (Rect Float)
  | shape s => Path.bbox? s.ops
  | image i => some i.box
  | text _ => none
  | group _ _ box => box

def ofGroup (paint : PaintStyle Float) (base : Base Float) (children : List (Node Float)) :
    Figure :=
  group paint base (Node.group paint base children).bbox?

end Figure

namespace TextItem

mutual

def figures : TextItem Float → List Figure
  | literal _ => []
  | nested style items => .text style :: figuresAmong items

def figuresAmong : List (TextItem Float) → List Figure
  | [] => []
  | i :: is => figures i ++ figuresAmong is

end

theorem figuresAmong_eq (is : List (TextItem Float)) : figuresAmong is = is.flatMap figures := by
  induction is with
  | nil => rfl
  | cons i is ih => rw [figuresAmong, ih, List.flatMap_cons]

mutual

theorem figures_dropRepeated (after : Bool) (i : TextItem Float) :
    (dropRepeated after i).1.figures = i.figures := by
  cases i with
  | literal run => rfl
  | nested style items =>
    exact congrArg (Figure.text style :: ·) (figuresAmong_dropRepeatedAmong after items)

theorem figuresAmong_dropRepeatedAmong (after : Bool) (is : List (TextItem Float)) :
    figuresAmong (dropRepeatedAmong after is).1 = figuresAmong is := by
  cases is with
  | nil => rfl
  | cons i is =>
    exact congrArg₂ (· ++ ·) (figures_dropRepeated after i)
      (figuresAmong_dropRepeatedAmong (dropRepeated after i).2 is)

end

mutual

theorem figures_trimEnd (i : TextItem Float) : i.trimEnd.1.figures = i.figures := by
  cases i with
  | literal run => rfl
  | nested style items =>
    exact congrArg (Figure.text style :: ·) (figuresAmong_trimEndAmong items)

theorem figuresAmong_trimEndAmong (is : List (TextItem Float)) :
    figuresAmong (trimEndAmong is).1 = figuresAmong is := by
  cases is with
  | nil => rfl
  | cons i is =>
    have first := figures_trimEnd i
    have rest := figuresAmong_trimEndAmong is
    unfold trimEndAmong
    dsimp only
    split
    · exact congrArg (i.figures ++ ·) rest
    · exact congrArg₂ (· ++ ·) first rest

end

mutual

theorem figures_dropEmpty (i : TextItem Float) : i.dropEmpty.figures = i.figures := by
  cases i with
  | literal run => rfl
  | nested style items =>
    exact congrArg (Figure.text style :: ·) (figuresAmong_dropEmptyAmong items)

theorem figuresAmong_dropEmptyAmong (is : List (TextItem Float)) :
    figuresAmong (dropEmptyAmong is) = figuresAmong is := by
  cases is with
  | nil => rfl
  | cons i is =>
    have rest := figuresAmong_dropEmptyAmong is
    unfold dropEmptyAmong
    split
    · next empty =>
      cases i with
      | literal run => exact rest
      | nested style items => cases empty
    · exact congrArg₂ (· ++ ·) (figures_dropEmpty i) rest

end

theorem figuresAmong_tidy (is : List (TextItem Float)) :
    figuresAmong (tidy is) = figuresAmong is := by
  rw [tidy, figuresAmong_dropEmptyAmong, figuresAmong_trimEndAmong, figuresAmong_dropRepeatedAmong]

end TextItem

namespace Node

mutual

def figures : Node Float → List Figure
  | shape s => [.shape s]
  | image i => [.image i]
  | text style items => .text style :: TextItem.figuresAmong items
  | group paint base children => .ofGroup paint base children :: figuresAmong children

def figuresAmong : List (Node Float) → List Figure
  | [] => []
  | n :: ns => figures n ++ figuresAmong ns

end

theorem figuresAmong_eq (ns : List (Node Float)) : figuresAmong ns = ns.flatMap figures := by
  induction ns with
  | nil => rfl
  | cons n ns ih => rw [figuresAmong, ih, List.flatMap_cons]

end Node

end SvgPage

import SvgPage.Proofs.Page.WellFormed

/-!
# The place of each run of text

A text is a row of events: a text of its own style begins, or some characters follow. The pen goes
through them in order, whatever they are nested in. Compiled texts show each run of characters in a
bracket of its own, at the place where the pen stands by then.
-/

namespace SvgPage

/-- Bytes as they are shown, with the size and the matrix that are set by then. -/
structure Showing where
  bytes : List UInt8
  size : Option Float
  matrix : Option (Matrix Float)

namespace Operator

/-- Whether an operator stands at an end of a bracket of text or has its place in one. -/
def isText : Operator → Bool
  | beginText | endText | font .. | textMatrix _ | renderMode _ | showText _ => true
  | _ => false

/-- What is shown from a size and a matrix on. A matrix is set for one bracket only. -/
def shown (size : Option Float) (matrix : Option (Matrix Float)) : List Operator → List Showing
  | [] => []
  | beginText :: ops | endText :: ops => shown size none ops
  | font _ size :: ops => shown (some size) matrix ops
  | textMatrix m :: ops => shown size (some m) ops
  | showText bytes :: ops => ⟨bytes, size, matrix⟩ :: shown size matrix ops
  | _ :: ops => shown size matrix ops

/-- Operators that show bytes one after another, each time in a bracket that sets the size and the
matrix itself. -/
inductive Typesets : List Operator → List Showing → Prop
  | nil : Typesets [] []
  | other {op ops showings} : op.isText = false → Typesets ops showings →
      Typesets (op :: ops) showings
  | bracket {name size modes matrix bytes ops showings} :
      (∀ op ∈ modes, ∃ mode, op = renderMode mode) → Typesets ops showings →
      Typesets ([beginText, font name size] ++ modes ++
        [textMatrix matrix, showText bytes, endText] ++ ops)
        (⟨bytes, some size, some matrix⟩ :: showings)

namespace Typesets

variable {ops ops' : List Operator} {showings showings' : List Showing}

theorem append (h : Typesets ops showings) (h' : Typesets ops' showings') :
    Typesets (ops ++ ops') (showings ++ showings') := by
  induction h with
  | nil => exact h'
  | other plain _ ih => exact .other plain ih
  | bracket modes _ ih =>
    rw [List.append_assoc, List.cons_append]
    exact .bracket modes ih

theorem ofPlain (plain : ∀ op ∈ ops, op.isText = false) : Typesets ops [] := by
  induction ops with
  | nil => exact .nil
  | cons op ops ih =>
    rw [List.forall_mem_cons] at plain
    exact .other plain.1 (ih plain.2)

theorem shown_eq (h : Typesets ops showings) (size : Option Float)
    (matrix : Option (Matrix Float)) : shown size matrix ops = showings := by
  induction h generalizing size matrix with
  | nil => rfl
  | @other op ops showings plain _ ih =>
    have skipped : shown size matrix (op :: ops) = shown size matrix ops := by
      cases op <;> first | rfl | cases plain
    rw [skipped, ih]
  | @bracket name own modes m bytes ops showings onlyModes _ ih =>
    have skipped (tail : List Operator) :
        shown (some own) none (modes ++ tail) = shown (some own) none tail := by
      induction modes with
      | nil => rfl
      | cons op modes ih =>
        rw [List.forall_mem_cons] at onlyModes
        obtain ⟨⟨mode, rfl⟩, others⟩ := onlyModes
        exact ih others
    simp [shown, skipped, ih]

end Typesets

end Operator

/-- What follows next in a text. -/
inductive TextEvent where
  /-- A text of its own style begins. -/
  | enter (t : TextStyle Float)
  /-- Characters follow, in the style of the text that they are in. -/
  | literal (t : TextStyle Float) (run : List Char)

namespace TextItem

mutual

def events (t : TextStyle Float) : TextItem Float → List TextEvent
  | literal run => [.literal t run]
  | nested inner items => .enter inner :: eventsAmong inner items

def eventsAmong (t : TextStyle Float) : List (TextItem Float) → List TextEvent
  | [] => []
  | i :: is => events t i ++ eventsAmong t is

end

end TextItem

namespace TextEvent

def move (pen : Point Float) : TextEvent → Point Float
  | enter t => ⟨t.x.getD pen.x, t.y.getD pen.y⟩
  | literal t run => ⟨pen.x + t.font.advance (String.ofList run) * t.size, pen.y⟩

def showing? (pen : Point Float) : TextEvent → Option Showing
  | enter _ => none
  | literal t run =>
    some ⟨t.font.encode (String.ofList run), some t.size, some ⟨1, 0, 0, -1, pen.x, pen.y⟩⟩

/-- What is shown by a pen that goes through events. -/
def layOut (pen : Point Float) : List TextEvent → List Showing
  | [] => []
  | e :: es => (e.showing? pen).toList ++ layOut (e.move pen) es

theorem layOut_append (pen : Point Float) (es es' : List TextEvent) :
    layOut pen (es ++ es') = layOut pen es ++ layOut (es.foldl move pen) es' := by
  induction es generalizing pen with
  | nil => rfl
  | cons e es ih => simp [layOut, ih]

end TextEvent

namespace Drawing

open Operator

variable {ρ : Type} [Registry ρ]

theorem yields_opening_plain (base : Base Float) (s : GraphicsState) :
    Yields (fun ops => ∀ op ∈ ops, op.isText = false)
      (opening base s : StateM ρ (List Operator)) := by
  have state : Yields (fun ops => ∀ op ∈ ops, op.isText = false)
      (graphicsState s : StateM ρ (List Operator)) := by
    unfold graphicsState
    split
    · exact .pure (by simp)
    · exact (Yields.any _).bind fun name _ => .pure (by simp [isText])
  have outline (o : PathOp Float) : (Operator.ofPath o).isText = false := by cases o <;> rfl
  have clipped : ∀ op ∈ clipping base.clip, op.isText = false := by
    cases base.clip with
    | none => simp [clipping]
    | some c =>
      exact List.forall_mem_append.mpr
        ⟨List.forall_mem_map.mpr fun o _ => outline o, by simp [isText]⟩
  refine state.bind fun ops plain => .pure ?_
  simpa [isText, or_imp, forall_and] using And.intro clipped plain

theorem typesets_run (t : TextStyle Float) (font : String) (pen : Point Float)
    (characters : List Char) :
    Typesets (run t font pen characters) (TextEvent.layOut pen [.literal t characters]) := by
  unfold run
  dsimp only
  generalize renderMode _ _ = mode
  -- The colours that are set stand before the bracket, so they are passed over.
  have colors : ∀ op ∈ ((t.fill.bind soleColor?).map Operator.fillColor).toList ++
      ((t.stroke.bind soleColor?).map Operator.strokeColor).toList, op.isText = false := by
    cases t.fill.bind soleColor? <;> cases t.stroke.bind soleColor? <;> simp [isText]
  have modes : ∀ op ∈ (if mode = 0 then [] else [Operator.renderMode mode]),
      ∃ mode, op = Operator.renderMode mode := by
    split <;> simp
  have bracket : Typesets ([.beginText, .font font t.size] ++
      (if mode = 0 then [] else [.renderMode mode]) ++ [.textMatrix ⟨1, 0, 0, -1, pen.x, pen.y⟩,
        .showText (t.font.encode (String.ofList characters)), .endText] ++ [])
      (TextEvent.layOut pen [.literal t characters]) := .bracket modes .nil
  simpa only [List.append_assoc, List.append_nil, List.nil_append] using
    (Typesets.ofPlain colors).append bracket

/-- What writing a part of a text comes to: its events are shown, and the pen has gone through
them. -/
structure Goes (pen : Point Float) (es : List TextEvent) (written : List Operator × Cursor) :
    Prop where
  shows : Typesets written.1 (TextEvent.layOut pen es)
  pen : written.2.pen = es.foldl TextEvent.move pen

mutual

theorem goes_textItem (t : TextStyle Float) (item : TextItem Float) (c : Cursor) :
    Yields (Goes c.pen (item.events t))
      (textItem t item c : StateM ρ (List Operator × Cursor)) := by
  cases item with
  | literal characters =>
    unfold textItem
    exact (Yields.any _).bind fun name _ => .pure ⟨typesets_run t name c.pen characters, rfl⟩
  | nested inner items =>
    unfold textItem
    refine (yields_opening_plain inner.base (textState inner)).bind fun start plain => ?_
    refine (goes_textItems inner items _).bind fun body hbody => .pure ⟨?_, hbody.pen⟩
    have pop : Typesets [.pop] [] := .ofPlain (by simp [isText])
    have shows := ((Typesets.ofPlain plain).append hbody.shows).append pop
    rwa [List.append_nil] at shows

theorem goes_textItems (t : TextStyle Float) (items : List (TextItem Float)) (c : Cursor) :
    Yields (Goes c.pen (TextItem.eventsAmong t items))
      (textItems t items c : StateM ρ (List Operator × Cursor)) := by
  cases items with
  | nil =>
    unfold textItems
    exact .pure ⟨.nil, rfl⟩
  | cons i is =>
    unfold textItems
    refine (goes_textItem t i c).bind fun first hfirst => ?_
    refine (goes_textItems t is first.2).bind fun rest hrest => .pure ⟨?_, ?_⟩
    · rw [TextItem.eventsAmong, TextEvent.layOut_append, ← hfirst.pen]
      exact hfirst.shows.append hrest.shows
    · rw [TextItem.eventsAmong, List.foldl_append, ← hfirst.pen]
      exact hrest.pen

end

end Drawing

/-- A compiled text shows its literals in document order, each in its own bracket. The pen starts at
the place of the text, goes on by the advance of each literal, and moves where a nested text has a
place of its own. -/
theorem Node.text_laidOut {ρ : Type} [Registry ρ] (t : TextStyle Float)
    (items : List (TextItem Float)) (r : ρ) :
    let ops := ((Node.text t items).compile r).1
    let showings := TextEvent.layOut ⟨t.x.getD 0, t.y.getD 0⟩ (TextItem.eventsAmong t items)
    Operator.Typesets ops showings ∧ Operator.shown none none ops = showings := by
  have goes := Drawing.goes_textItem t (.nested t items) ⟨⟨0, 0⟩, none⟩ r
  exact ⟨goes.shows, goes.shows.shown_eq none none⟩

/-- The advance of a nested text carries over to what follows it, and so does its place. -/
example (t : TextStyle Float) (a b : List Char) :
    TextEvent.layOut ⟨0, 0⟩ (TextItem.eventsAmong t
      [.nested { t with x := none, y := some 9 } [.literal a], .literal b]) =
    [⟨t.font.encode (String.ofList a), some t.size, some ⟨1, 0, 0, -1, 0, 9⟩⟩,
      ⟨t.font.encode (String.ofList b), some t.size,
        some ⟨1, 0, 0, -1, 0 + t.font.advance (String.ofList a) * t.size, 9⟩⟩] := rfl

end SvgPage

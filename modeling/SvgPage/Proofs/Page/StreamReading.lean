import SvgPage.Proofs.Page.Closure
import SvgPage.Proofs.Page.ContentSyntax

/-!
# Reading content streams

A content stream is read back by its syntax alone: each line is an operation, whose keyword is the
last word on the line. A keyword with its operands means one operator, so the stream tells what the
operators were, up to the precision of their numbers.

How numerals are read is left open; there is a reader that reads every number as it was printed.
-/

namespace SvgPage

namespace Content

def whole? : Token → Option Nat
  | .word cs => if cs.all Decimal.isDigit then some (Decimal.wholeOfDigits cs) else none
  | _ => none

section

variable (real? : List Char → Option Float32)

def number? : Token → Option Float
  | .word cs => (real? cs).map Float32.toFloat
  | _ => none

def bare (op : Operator) : List Token → Option Operator
  | [] => some op
  | _ => none

def numbers (make : List Float → Option Operator) (ts : List Token) : Option Operator :=
  (ts.mapM (number? real?)).bind make

def number (make : Float → Operator) : List Token → Option Operator :=
  numbers real? fun
    | [x] => some (make x)
    | _ => none

def point (make : Point Float → Operator) : List Token → Option Operator :=
  numbers real? fun
    | [x, y] => some (make ⟨x, y⟩)
    | _ => none

def color (make : Color Float → Operator) : List Token → Option Operator :=
  numbers real? fun
    | [r, g, b] => some (make ⟨r, g, b⟩)
    | _ => none

def matrix (make : Matrix Float → Operator) : List Token → Option Operator :=
  numbers real? fun
    | [a, b, c, d, e, f] => some (make ⟨a, b, c, d, e, f⟩)
    | _ => none

def curve : List Token → Option Operator :=
  numbers real? fun
    | [x₁, y₁, x₂, y₂, x, y] => some (.curveTo ⟨x₁, y₁⟩ ⟨x₂, y₂⟩ ⟨x, y⟩)
    | _ => none

def whole (make? : Nat → Option Operator) : List Token → Option Operator
  | [t] => (whole? t).bind make?
  | _ => none

def named (make : String → Operator) : List Token → Option Operator
  | [.name cs] => some (make (String.ofList cs))
  | _ => none

def font : List Token → Option Operator
  | [.name cs, t] => (number? real? t).map (.font (String.ofList cs))
  | _ => none

def dash : List Token → Option Operator
  | [.list words, t] => do
    let pattern ← words.mapM fun word => number? real? (.word word)
    let phase ← number? real? t
    return .dash ⟨pattern, phase⟩
  | _ => none

def shown : List Token → Option Operator
  | [.bytes bs] => some (.showText bs)
  | _ => none

/-- What the keywords mean, each of some operands. -/
def vocabulary : List (String × (List Token → Option Operator)) :=
  [("q", bare .push), ("Q", bare .pop), ("cm", matrix real? .concat),
    ("m", point real? .moveTo), ("l", point real? .lineTo), ("c", curve real?),
    ("h", bare .closePath), ("n", bare .endPath),
    ("W", bare (.clip .nonZero)), ("W*", bare (.clip .evenOdd)),
    ("f", bare (.fill .nonZero)), ("f*", bare (.fill .evenOdd)), ("S", bare .stroke),
    ("B", bare (.fillStroke .nonZero)), ("B*", bare (.fillStroke .evenOdd)),
    ("gs", named .graphicsState), ("rg", color real? .fillColor), ("RG", color real? .strokeColor),
    ("w", number real? .lineWidth), ("M", number real? .miterLimit),
    ("j", whole fun n => ([.miter, .round, .bevel].find? (·.number == n)).map .lineJoin),
    ("J", whole fun n => ([.butt, .round, .square].find? (·.number == n)).map .lineCap),
    ("d", dash real?), ("BT", bare .beginText), ("ET", bare .endText), ("Tf", font real?),
    ("Tm", matrix real? .textMatrix), ("Tr", whole fun n => some (.renderMode n)), ("Tj", shown),
    ("Do", named .drawImage), ("sh", named .paintShading)]

/-- A keyword means one thing. -/
theorem nodup_keywords : ((vocabulary real?).map (·.1)).Nodup := by
  simp [vocabulary]

def operator? (cs : List Char) : Option Operator :=
  (tokens? cs).bind fun ts =>
    match ts.reverse with
    | .word keyword :: operands =>
      ((vocabulary real?).lookup (String.ofList keyword)).bind fun meaning =>
        meaning operands.reverse
    | _ => none

def operators? (cs : List Char) : Option (List Operator) :=
  (Text.fields (· == '\n') cs).mapM (operator? real?)

end

end Content

def nearestSingle (x : Float) : Float := x.toFloat32.toFloat

def Point.single (p : Point Float) : Point Float := ⟨nearestSingle p.x, nearestSingle p.y⟩

def Color.single (c : Color Float) : Color Float :=
  ⟨nearestSingle c.r, nearestSingle c.g, nearestSingle c.b⟩

def Matrix.single (m : Matrix Float) : Matrix Float :=
  ⟨nearestSingle m.a, nearestSingle m.b, nearestSingle m.c, nearestSingle m.d, nearestSingle m.e,
    nearestSingle m.f⟩

def Operator.single : Operator → Operator
  | .concat m => .concat m.single
  | .moveTo p => .moveTo p.single
  | .lineTo p => .lineTo p.single
  | .curveTo c₁ c₂ p => .curveTo c₁.single c₂.single p.single
  | .fillColor c => .fillColor c.single
  | .strokeColor c => .strokeColor c.single
  | .lineWidth w => .lineWidth (nearestSingle w)
  | .miterLimit limit => .miterLimit (nearestSingle limit)
  | .dash d => .dash ⟨d.pattern.map nearestSingle, nearestSingle d.phase⟩
  | .font name size => .font name (nearestSingle size)
  | .textMatrix m => .textMatrix m.single
  | op => op

namespace Content

variable {real? : List Char → Option Float32}

theorem whole?_of (n : Nat) : whole? (Token.of (.whole n)) = some n := by
  have text : (toString n).toList = Nat.toDigits 10 n := Nat.toList_repr
  have digits := List.all_eq_true.mpr (Decimal.digits_toDigits n)
  rw [Token.of, text, whole?, if_pos digits, Decimal.wholeOfDigits_toDigits]

section

variable (inverse : ∀ x, real? (singleText x) = some x)
include inverse

theorem number?_of (x : Float) :
    number? real? (Token.of (.ofFloat x)) = some (nearestSingle x) := by
  simp [Token.of, Operand.ofFloat, number?, inverse, nearestSingle]

theorem number_of (make : Float → Operator) (x : Float) :
    number real? make ([Operand.ofFloat x].map Token.of) = some (make (nearestSingle x)) := by
  simp [number, numbers, number?_of inverse]

theorem point_of (make : Point Float → Operator) (p : Point Float) :
    point real? make ((Operand.ofPoint p).map Token.of) = some (make p.single) := by
  simp [Operand.ofPoint, point, numbers, number?_of inverse, Point.single]

theorem color_of (make : Color Float → Operator) (c : Color Float) :
    color real? make ((Operand.ofColor c).map Token.of) = some (make c.single) := by
  simp [Operand.ofColor, color, numbers, number?_of inverse, Color.single]

theorem matrix_of (make : Matrix Float → Operator) (m : Matrix Float) :
    matrix real? make ((Operand.ofMatrix m).map Token.of) = some (make m.single) := by
  simp [Operand.ofMatrix, matrix, numbers, number?_of inverse, Matrix.single]

theorem pattern_of (xs : List Float) :
    xs.mapM (fun x => number? real? (.word (singleText x.toFloat32))) =
      some (xs.map nearestSingle) := by
  induction xs with
  | nil => rfl
  | cons x xs ih =>
    have first : number? real? (.word (singleText x.toFloat32)) = some (nearestSingle x) :=
      number?_of inverse x
    simp [first, ih]

theorem exists_meaning (op : Operator) :
    ∃ meaning, (vocabulary real?).lookup (Operation.ofOperator op).keyword = some meaning ∧
      meaning ((Operation.ofOperator op).operands.map Token.of) = some op.single := by
  cases op with
  | push | pop | closePath | endPath | stroke | beginText | endText => exact ⟨_, rfl, rfl⟩
  | clip rule | fill rule | fillStroke rule => cases rule <;> exact ⟨_, rfl, rfl⟩
  | concat m | textMatrix m => exact ⟨_, rfl, matrix_of inverse _ m⟩
  | moveTo p | lineTo p => exact ⟨_, rfl, point_of inverse _ p⟩
  | curveTo c₁ c₂ p =>
    refine ⟨_, rfl, ?_⟩
    simp [Operation.ofOperator, Operand.ofPoint, curve, numbers, number?_of inverse, Operator.single,
      Point.single]
  | fillColor c | strokeColor c => exact ⟨_, rfl, color_of inverse _ c⟩
  | lineWidth x | miterLimit x => exact ⟨_, rfl, number_of inverse _ x⟩
  | lineJoin join => cases join <;> exact ⟨_, rfl, rfl⟩
  | lineCap cap => cases cap <;> exact ⟨_, rfl, rfl⟩
  | renderMode mode =>
    refine ⟨_, rfl, ?_⟩
    simp [Operation.ofOperator, whole, whole?_of, Operator.single]
  | dash d =>
    refine ⟨_, rfl, ?_⟩
    simp [Operation.ofOperator, dash, Token.of_list, Function.comp_def, pattern_of inverse,
      number?_of inverse, Operator.single]
  | graphicsState name | drawImage name | paintShading name =>
    refine ⟨_, rfl, ?_⟩
    simp [Operation.ofOperator, Token.of_name, named, Operator.single]
  | font name size =>
    refine ⟨_, rfl, ?_⟩
    simp [Operation.ofOperator, Token.of_name, font, Operator.single, number?_of inverse]
  | showText bytes => exact ⟨_, rfl, rfl⟩

end

end Content

def ResourceName.text : ResourceName → String
  | .state name | .image name | .font name | .shading name => name

/-- The label of a table with digits after it. -/
def ResourceName.IsNumbered (r : ResourceName) : Prop :=
  ∃ label ∈ [Naming.states.label, Naming.images.label, Naming.fonts.label, Naming.shadings.label],
    ∃ digits : List Char, r.text.toList = label.toList ++ digits ∧ ∀ c ∈ digits, c.isDigit

namespace Content

theorem isRegular_of_isNumbered {r : ResourceName} (numbered : r.IsNumbered) {c : Char}
    (inside : c ∈ r.text.toList) : isRegular c = true := by
  obtain ⟨label, member, digits, text, digit⟩ := numbered
  rw [text, List.mem_append] at inside
  rcases inside with h | h
  · have labels : ∀ label ∈ [Naming.states.label, Naming.images.label, Naming.fonts.label,
        Naming.shadings.label], label.toList.all isRegular = true := by decide +kernel
    exact List.all_eq_true.mp (labels label member) c h
  · exact isRegular_of_isPrinted (isPrinted_of_isDigit (digit c h))

theorem keyword_mem_vocabulary (op : Operator) :
    (Operation.ofOperator op).keyword ∈ (vocabulary fun _ => none).map (·.1) := by
  cases op with
  | clip rule | fill rule | fillStroke rule =>
    cases rule <;> simp [vocabulary, Operation.ofOperator, Operation.byRule]
  | _ => simp [vocabulary, Operation.ofOperator]

theorem keywords_regular : ∀ keyword ∈ (vocabulary fun _ => none).map (·.1),
    keyword.toList ≠ [] ∧ keyword.toList.all isRegular = true := by
  decide +kernel

theorem plain_operands {op : Operator} (named : ∀ r ∈ op.resource?, r.IsNumbered) :
    ∀ x ∈ (Operation.ofOperator op).operands, Plain x := by
  have name {r : ResourceName} (h : r ∈ op.resource?) : Plain (.name r.text) :=
    fun _ inside => isRegular_of_isNumbered (named r h) inside
  cases op with
  | graphicsState | drawImage | paintShading => exact List.forall_mem_singleton.mpr (name rfl)
  | font => exact List.forall_mem_cons.mpr ⟨name rfl, List.forall_mem_singleton.mpr trivial⟩
  | _ =>
    simp [Operation.ofOperator, Operation.byRule, Operand.ofPoint, Operand.ofColor,
      Operand.ofMatrix, Operand.ofFloat, Plain]

theorem plain_ofOperator {op : Operator} (named : ∀ r ∈ op.resource?, r.IsNumbered) :
    PlainOperation (Operation.ofOperator op) where
  operands := plain_operands named
  filled := (keywords_regular _ (keyword_mem_vocabulary op)).1
  keyword := List.all_eq_true.mp (keywords_regular _ (keyword_mem_vocabulary op)).2

variable {real? : List Char → Option Float32}

theorem operator?_text (inverse : ∀ x, real? (singleText x) = some x) {op : Operator}
    (plain : PlainOperation (Operation.ofOperator op)) :
    operator? real? (Operation.ofOperator op).text = some op.single := by
  obtain ⟨meaning, known, means⟩ := exists_meaning inverse op
  simp [operator?, plain.tokens?, known, means]

theorem fields_streamText {ops : List Operator}
    (plain : ∀ op ∈ ops, PlainOperation (Operation.ofOperator op)) :
    Text.fields (· == '\n') (streamText ops) = ops.map fun op => (Operation.ofOperator op).text := by
  apply Text.fields_join rfl
  intro line member
  obtain ⟨op, inside, rfl⟩ := List.mem_map.mp member
  refine ⟨?_, fun c h => beq_false_of_ne (ne_newline_of_mem_text (plain op inside) h)⟩
  simp [Operation.text, (plain op inside).filled]

theorem operators?_of_plain (inverse : ∀ x, real? (singleText x) = some x) {ops : List Operator}
    (plain : ∀ op ∈ ops, PlainOperation (Operation.ofOperator op)) :
    operators? real? (streamText ops) = some (ops.map Operator.single) := by
  rw [operators?, fields_streamText plain, List.mapM_map]
  induction ops with
  | nil => rfl
  | cons op ops ih =>
    have first := operator?_text inverse (plain op (.head ops))
    have rest := ih fun op' member => plain op' (.tail op member)
    simp [first, rest]

theorem plain_of_named {ops : List Operator} (named : ∀ r ∈ resourceNames ops, r.IsNumbered) :
    ∀ op ∈ ops, PlainOperation (Operation.ofOperator op) := fun op member =>
  plain_ofOperator fun r names => named r (List.mem_filterMap.mpr ⟨op, member, names⟩)

/-- If numbers in single precision are read as they are printed, content streams are read as they
were written, up to single precision. -/
theorem operators?_streamText (inverse : ∀ x, real? (singleText x) = some x) {ops : List Operator}
    (named : ∀ r ∈ resourceNames ops, r.IsNumbered) :
    operators? real? (streamText ops) = some (ops.map Operator.single) :=
  operators?_of_plain inverse (plain_of_named named)

/-- A path with a dash, and bytes that are delimiters or white space. -/
def dashedPage : List Operator :=
  [.push, .graphicsState "GS0", .dash ⟨[3, 1.5], 0.1⟩, .moveTo ⟨0, -1⟩, .clip .evenOdd, .endPath,
    .font "F12" 16, .showText [0x3E, 0x0A, 0xFF], .pop]

theorem operators?_streamText_dashed :
    (∀ x, readSingle? (singleText x) = some x) ∧
      (∀ r ∈ resourceNames dashedPage, r.IsNumbered) ∧
      operators? readSingle? (streamText dashedPage) = some (dashedPage.map Operator.single) := by
  have named : ∀ r ∈ resourceNames dashedPage, r.IsNumbered := by
    intro r member
    simp only [dashedPage, resourceNames_cons, resourceNames_nil, Operator.resource?,
      Option.toList_none, Option.toList_some, List.nil_append, List.cons_append, List.mem_cons,
      List.not_mem_nil, or_false] at member
    rcases member with rfl | rfl
    · exact ⟨"GS", by simp [Naming.states], ['0'], rfl, by simp⟩
    · exact ⟨"F", by simp [Naming.fonts], ['1', '2'], rfl, by simp⟩
  exact ⟨readSingle?_singleText, named, operators?_streamText readSingle?_singleText named⟩

end Content

theorem Table.Sound.exists_number {κ β : Type} {n : Naming κ β} {t : Table κ β} (h : t.Sound n)
    {name : String} {b : β} (found : t.find? name = some b) :
    ∃ digits : List Char, name.toList = n.label.toList ++ digits ∧ ∀ c ∈ digits, c.isDigit := by
  obtain ⟨i, inside, entry⟩ := List.mem_iff_getElem.mp ((h.mem_iff_find? name b).mpr found)
  refine ⟨Nat.toDigits 10 i, ?_, fun _ => isDigit_of_mem_toDigits⟩
  have numbered : name = n.label ++ toString i := by
    simpa only [entry] using h.numbered i inside
  rw [numbered, String.toList_append]
  exact congrArg _ Nat.toList_repr

theorem Resources.Holds.isNumbered {r : Resources} (h : r.Sound) {name : ResourceName} {q : Request}
    (there : r.Holds name q) : name.IsNumbered := by
  cases there with
  | state found => exact ⟨_, by simp, h.states.exists_number found⟩
  | image found => exact ⟨_, by simp, h.images.exists_number found⟩
  | font found => exact ⟨_, by simp, h.fonts.exists_number found⟩
  | shading found => exact ⟨_, by simp, h.shadings.exists_number found⟩

namespace Conversion

variable {σ : Type} {c : Conversion σ} {ops : List Operator}

theorem isNumbered_of_ok (h : c.before.resources.Sound) (ok : c.result = .ok ops) :
    ∀ r ∈ resourceNames ops, r.IsNumbered := by
  obtain ⟨d, -, found⟩ := (closed h (.refl _)).named ops ok
  intro r member
  obtain ⟨i, inside, rfl⟩ := List.getElem_of_mem member
  have known := (found.get inside (found.length_eq ▸ inside)).1
  obtain ⟨q, there, -⟩ := Resources.key?_eq_some_iff.mp known
  exact there.isNumbered (sound_after h)

/-- The stream of a document is read as it was written. -/
theorem content_read (h : c.before.resources.Sound) (ok : c.result = .ok ops) :
    Content.operators? readSingle? (streamText ops) = some (ops.map Operator.single) :=
  Content.operators?_of_plain readSingle?_singleText (Content.plain_of_named (isNumbered_of_ok h ok))

end Conversion

end SvgPage

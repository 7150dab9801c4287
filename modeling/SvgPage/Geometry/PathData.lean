import SvgPage.Geometry.Arc

/-!
# Path data

The text of a path is a sequence of command letters with groups of arguments. Reading cuts it into
segments, one per group; drawing folds over the segments with a pen that remembers the current
point, where the subpath began, and the control points that a smooth curve reflects.

Any fault fails the whole path. A fault keeps the text that was left, and its position is the
number of bytes before that text.
-/

namespace SvgPage.PathData

open Scalar

inductive Verb where
  | move
  | line
  | horizontal
  | vertical
  | cubic
  | smoothCubic
  | quadratic
  | smoothQuadratic
  | arc
  | close
  deriving DecidableEq, Repr

/-- A command letter: what it draws, and whether its points are relative to the pen. -/
structure Command where
  verb : Verb
  relative : Bool
  deriving DecidableEq, Repr

def Command.ofLetter? : Char → Option Command
  | 'M' => some ⟨.move, false⟩
  | 'm' => some ⟨.move, true⟩
  | 'L' => some ⟨.line, false⟩
  | 'l' => some ⟨.line, true⟩
  | 'H' => some ⟨.horizontal, false⟩
  | 'h' => some ⟨.horizontal, true⟩
  | 'V' => some ⟨.vertical, false⟩
  | 'v' => some ⟨.vertical, true⟩
  | 'C' => some ⟨.cubic, false⟩
  | 'c' => some ⟨.cubic, true⟩
  | 'S' => some ⟨.smoothCubic, false⟩
  | 's' => some ⟨.smoothCubic, true⟩
  | 'Q' => some ⟨.quadratic, false⟩
  | 'q' => some ⟨.quadratic, true⟩
  | 'T' => some ⟨.smoothQuadratic, false⟩
  | 't' => some ⟨.smoothQuadratic, true⟩
  | 'A' => some ⟨.arc, false⟩
  | 'a' => some ⟨.arc, true⟩
  | 'Z' => some ⟨.close, false⟩
  | 'z' => some ⟨.close, true⟩
  | _ => none

/-- What a further group of arguments means: after a move, a line; otherwise the same again. -/
def Command.repeated (c : Command) : Command :=
  if c.verb = .move then ⟨.line, c.relative⟩ else c

inductive Reason where
  | unknownCommand (letter : Char)
  | noMove
  | numberAfterClose
  | noNumber
  | incompleteExponent
  | badFlag
  deriving DecidableEq, Repr

def Reason.message : Reason → String
  | unknownCommand c => "unknown command '" ++ String.singleton c ++ "'"
  | noMove => "path data must begin with a moveto"
  | numberAfterClose => "unexpected number after closepath"
  | noNumber => "expected a number"
  | incompleteExponent => "incomplete exponent"
  | badFlag => "arc flag must be 0 or 1"

structure Fault where
  reason : Reason
  rest : List Char
  deriving DecidableEq, Repr

def byteLength (cs : List Char) : Nat := cs.foldl (fun n c => n + c.utf8Size) 0

/-- The number of bytes of a text before the place of the fault. -/
def Fault.position (fault : Fault) (text : List Char) : Nat :=
  byteLength text - byteLength fault.rest

inductive Arguments (α : Type) where
  | move (p : Point α)
  | line (p : Point α)
  | horizontal (x : α)
  | vertical (y : α)
  | cubic (c₁ c₂ p : Point α)
  | smoothCubic (c₂ p : Point α)
  | quadratic (q p : Point α)
  | smoothQuadratic (p : Point α)
  | arc (rx ry rotation : α) (large sweep : Bool) (p : Point α)
  | close
  deriving DecidableEq, Repr

structure Segment (α : Type) where
  relative : Bool
  arguments : Arguments α
  deriving DecidableEq, Repr

def isSeparator (c : Char) : Bool := c == ' ' || c == '\n' || c == '\r' || c == '\t' || c == ','

def skip (cs : List Char) : List Char := cs.dropWhile isSeparator

variable {α : Type} [Scalar α]

def number (cs : List Char) : Except Fault (α × List Char) :=
  let start := skip cs
  match Decimal.scan start with
  | .ok (d, rest) => .ok (ofDecimal d, rest)
  | .error .digits => .error ⟨.noNumber, start⟩
  | .error (.exponent rest) => .error ⟨.incompleteExponent, rest⟩

def point (cs : List Char) : Except Fault (Point α × List Char) := do
  let (x, cs) ← number cs
  let (y, cs) ← number cs
  return (⟨x, y⟩, cs)

def flag (cs : List Char) : Except Fault (Bool × List Char) :=
  match skip cs with
  | '0' :: rest => .ok (false, rest)
  | '1' :: rest => .ok (true, rest)
  | rest => .error ⟨.badFlag, rest⟩

def arguments : Verb → List Char → Except Fault (Arguments α × List Char)
  | .move, cs => do
    let (p, cs) ← point cs
    return (.move p, cs)
  | .line, cs => do
    let (p, cs) ← point cs
    return (.line p, cs)
  | .horizontal, cs => do
    let (x, cs) ← number cs
    return (.horizontal x, cs)
  | .vertical, cs => do
    let (y, cs) ← number cs
    return (.vertical y, cs)
  | .cubic, cs => do
    let (c₁, cs) ← point cs
    let (c₂, cs) ← point cs
    let (p, cs) ← point cs
    return (.cubic c₁ c₂ p, cs)
  | .smoothCubic, cs => do
    let (c₂, cs) ← point cs
    let (p, cs) ← point cs
    return (.smoothCubic c₂ p, cs)
  | .quadratic, cs => do
    let (q, cs) ← point cs
    let (p, cs) ← point cs
    return (.quadratic q p, cs)
  | .smoothQuadratic, cs => do
    let (p, cs) ← point cs
    return (.smoothQuadratic p, cs)
  | .arc, cs => do
    let (rx, cs) ← number cs
    let (ry, cs) ← number cs
    let (rotation, cs) ← number cs
    let (large, cs) ← flag cs
    let (sweep, cs) ← flag cs
    let (p, cs) ← point cs
    return (.arc rx ry rotation large sweep p, cs)
  | .close, cs => .ok (.close, cs)

/-- The command at the head of a text: its letter, or the previous one again. -/
def command (previous : Option Command) (c : Char) (cs : List Char) :
    Except Fault (Command × List Char) :=
  if c.isAlpha then
    match Command.ofLetter? c with
    | none => .error ⟨.unknownCommand c, cs⟩
    | some k => if previous.isNone && k.verb != .move then .error ⟨.noMove, cs⟩ else .ok (k, cs)
  else
    match previous with
    | none => .error ⟨.noMove, c :: cs⟩
    | some k => if k.verb = .close then .error ⟨.numberAfterClose, c :: cs⟩
      else .ok (k.repeated, c :: cs)

/-- The segments of a text. Each takes at least one character, so the length bounds their number. -/
def segmentsWithin : Nat → Option Command → List Char → Except Fault (List (Segment α))
  | 0, _, _ => .ok []
  | fuel + 1, previous, cs =>
    match skip cs with
    | [] => .ok []
    | c :: rest => do
      let (k, rest) ← command previous c rest
      let (a, rest) ← arguments k.verb rest
      let more ← segmentsWithin fuel (some k) rest
      return ⟨k.relative, a⟩ :: more

def segments (cs : List Char) : Except Fault (List (Segment α)) :=
  segmentsWithin (cs.length + 1) none cs

/-- What the commands so far leave behind. -/
structure Pen (α : Type) where
  current : Point α
  start : Point α
  /-- The second control point, when the previous group was a cubic. -/
  cubic : Option (Point α)
  /-- The control point, when the previous group was a quadratic. -/
  quadratic : Option (Point α)
  deriving DecidableEq, Repr

def Pen.initial : Pen α := ⟨⟨0, 0⟩, ⟨0, 0⟩, none, none⟩

/-- A point as written, made absolute. -/
def Pen.place (pen : Pen α) (relative : Bool) (p : Point α) : Point α :=
  if relative then ⟨pen.current.x + p.x, pen.current.y + p.y⟩ else p

/-- The point opposite to a control point, seen from the current point. -/
def Pen.reflect (pen : Pen α) : Option (Point α) → Point α
  | some c => ⟨2 * pen.current.x - c.x, 2 * pen.current.y - c.y⟩
  | none => pen.current

/-- The cubic that traces a quadratic curve. -/
def quadraticAsCubic (p₀ q p : Point α) : PathOp α :=
  .curveTo ⟨p₀.x + 2 / 3 * (q.x - p₀.x), p₀.y + 2 / 3 * (q.y - p₀.y)⟩
    ⟨p.x + 2 / 3 * (q.x - p.x), p.y + 2 / 3 * (q.y - p.y)⟩ p

def Pen.draw (pen : Pen α) (s : Segment α) : List (PathOp α) × Pen α :=
  let at_ := pen.place s.relative
  match s.arguments with
  | .move p => ([.moveTo (at_ p)], ⟨at_ p, at_ p, none, none⟩)
  | .line p => ([.lineTo (at_ p)], ⟨at_ p, pen.start, none, none⟩)
  | .horizontal x =>
    let p : Point α := ⟨if s.relative then pen.current.x + x else x, pen.current.y⟩
    ([.lineTo p], ⟨p, pen.start, none, none⟩)
  | .vertical y =>
    let p : Point α := ⟨pen.current.x, if s.relative then pen.current.y + y else y⟩
    ([.lineTo p], ⟨p, pen.start, none, none⟩)
  | .cubic c₁ c₂ p =>
    ([.curveTo (at_ c₁) (at_ c₂) (at_ p)], ⟨at_ p, pen.start, some (at_ c₂), none⟩)
  | .smoothCubic c₂ p =>
    ([.curveTo (pen.reflect pen.cubic) (at_ c₂) (at_ p)], ⟨at_ p, pen.start, some (at_ c₂), none⟩)
  | .quadratic q p =>
    ([quadraticAsCubic pen.current (at_ q) (at_ p)], ⟨at_ p, pen.start, none, some (at_ q)⟩)
  | .smoothQuadratic p =>
    let q := pen.reflect pen.quadratic
    ([quadraticAsCubic pen.current q (at_ p)], ⟨at_ p, pen.start, none, some q⟩)
  | .arc rx ry rotation large sweep p =>
    let arc : Arc.Endpoint α := ⟨pen.current, rx, ry, rotation, large, sweep, at_ p⟩
    (arc.toPath, ⟨at_ p, pen.start, none, none⟩)
  | .close => ([.close], ⟨pen.start, pen.start, none, none⟩)

def outlineFrom : Pen α → List (Segment α) → List (PathOp α)
  | _, [] => []
  | pen, s :: rest => (pen.draw s).1 ++ outlineFrom (pen.draw s).2 rest

def outline (cs : List Char) : Except Fault (List (PathOp α)) :=
  (segments cs).map (outlineFrom Pen.initial)

end SvgPage.PathData

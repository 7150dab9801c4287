import SvgPage.Number.Shortest
import SvgPage.Page.Resources
import SvgPage.Payload.Digest

/-!
# Content streams

One operation stands on a line: its operands, each with a space after it, and its keyword. Numbers
are in single precision and in the shortest notation that reads back.
-/

namespace SvgPage

inductive Operand where
  | whole (n : Nat)
  | real (x : Float32)
  | name (s : String)
  | bytes (bs : List UInt8)
  | list (xs : List Float32)
  deriving DecidableEq, Repr

namespace Operand

def hexDigit (n : Nat) : Char := "0123456789ABCDEF".toList.getD n '0'

def hexText (bs : List UInt8) : List Char :=
  bs.flatMap fun b => [hexDigit (b.toNat / 16), hexDigit (b.toNat % 16)]

def text : Operand → List Char
  | whole n => (toString n).toList
  | real x => singleText x
  | name s => '/' :: s.toList
  | bytes bs => '<' :: hexText bs ++ ['>']
  | list xs => '[' :: Text.join [' '] (xs.map singleText) ++ [']']

def ofFloat (x : Float) : Operand := real x.toFloat32

def ofPoint (p : Point Float) : List Operand := [ofFloat p.x, ofFloat p.y]

def ofMatrix (m : Matrix Float) : List Operand := [m.a, m.b, m.c, m.d, m.e, m.f].map ofFloat

def ofColor (c : Color Float) : List Operand := [c.r, c.g, c.b].map ofFloat

end Operand

structure Operation where
  operands : List Operand
  keyword : String
  deriving DecidableEq, Repr

namespace Operation

def text (o : Operation) : List Char :=
  o.operands.flatMap (fun x => x.text ++ [' ']) ++ o.keyword.toList

def byRule (rule : FillRule) (nonZero evenOdd : String) : Operation :=
  ⟨[], match rule with
    | .nonZero => nonZero
    | .evenOdd => evenOdd⟩

def ofOperator : Operator → Operation
  | .push => ⟨[], "q"⟩
  | .pop => ⟨[], "Q"⟩
  | .concat m => ⟨Operand.ofMatrix m, "cm"⟩
  | .moveTo p => ⟨Operand.ofPoint p, "m"⟩
  | .lineTo p => ⟨Operand.ofPoint p, "l"⟩
  | .curveTo c₁ c₂ p => ⟨Operand.ofPoint c₁ ++ Operand.ofPoint c₂ ++ Operand.ofPoint p, "c"⟩
  | .closePath => ⟨[], "h"⟩
  | .clip rule => byRule rule "W" "W*"
  | .endPath => ⟨[], "n"⟩
  | .graphicsState name => ⟨[.name name], "gs"⟩
  | .fillColor c => ⟨Operand.ofColor c, "rg"⟩
  | .strokeColor c => ⟨Operand.ofColor c, "RG"⟩
  | .lineWidth w => ⟨[.ofFloat w], "w"⟩
  | .lineJoin join => ⟨[.whole join.number], "j"⟩
  | .miterLimit limit => ⟨[.ofFloat limit], "M"⟩
  | .lineCap cap => ⟨[.whole cap.number], "J"⟩
  | .dash d => ⟨[.list (d.pattern.map Float.toFloat32), .ofFloat d.phase], "d"⟩
  | .fill rule => byRule rule "f" "f*"
  | .stroke => ⟨[], "S"⟩
  | .fillStroke rule => byRule rule "B" "B*"
  | .beginText => ⟨[], "BT"⟩
  | .endText => ⟨[], "ET"⟩
  | .font name size => ⟨[.name name, .ofFloat size], "Tf"⟩
  | .textMatrix m => ⟨Operand.ofMatrix m, "Tm"⟩
  | .renderMode mode => ⟨[.whole mode], "Tr"⟩
  | .showText bytes => ⟨[.bytes bytes], "Tj"⟩
  | .drawImage name => ⟨[.name name], "Do"⟩
  | .paintShading name => ⟨[.name name], "sh"⟩

end Operation

def streamText (ops : List Operator) : List Char :=
  Text.join ['\n'] (ops.map fun o => (Operation.ofOperator o).text)

end SvgPage

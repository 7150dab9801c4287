import SvgPage.Scene.Node

/-!
# Page operators

A page is a list of operators. A resource is known by the name it was given.
-/

namespace SvgPage

inductive Operator where
  | push
  | pop
  | concat (m : Matrix Float)
  | moveTo (p : Point Float)
  | lineTo (p : Point Float)
  | curveTo (c₁ c₂ p : Point Float)
  | closePath
  | clip (rule : FillRule)
  | endPath
  /-- Sets opacities and blend mode. -/
  | graphicsState (name : String)
  | fillColor (c : Color Float)
  | strokeColor (c : Color Float)
  | lineWidth (w : Float)
  | lineJoin (join : LineJoin)
  | miterLimit (limit : Float)
  | lineCap (cap : LineCap)
  | dash (d : Dash Float)
  | fill (rule : FillRule)
  | stroke
  | fillStroke (rule : FillRule)
  | beginText
  | endText
  | font (name : String) (size : Float)
  | textMatrix (m : Matrix Float)
  | renderMode (mode : Nat)
  | showText (bytes : List UInt8)
  | drawImage (name : String)
  | paintShading (name : String)
  deriving DecidableEq, Repr

def Operator.ofPath : PathOp Float → Operator
  | .moveTo p => moveTo p
  | .lineTo p => lineTo p
  | .curveTo c₁ c₂ p => curveTo c₁ c₂ p
  | .close => closePath

end SvgPage

import SvgPage.Css.Reader

/-!
# Reference boxes

The box that a shape or a picture is laid out in.
-/

namespace SvgPage.Css

inductive Box where
  | border
  | padding
  | content
  | margin
  | fill
  | stroke
  | view
  deriving DecidableEq, Repr

namespace Box

def name : Box → String
  | .border => "border-box"
  | .padding => "padding-box"
  | .content => "content-box"
  | .margin => "margin-box"
  | .fill => "fill-box"
  | .stroke => "stroke-box"
  | .view => "view-box"

def all : List Box := [.border, .padding, .content, .margin, .fill, .stroke, .view]

def read? : Reader Box := fun cs =>
  (word? cs).bind fun (w, rest) => (all.find? fun b => b.name == w).map (·, rest)

def text (b : Box) : List Char := b.name.toList

end Box

end SvgPage.Css

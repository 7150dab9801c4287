import SvgPage.Geometry.PathData
import SvgPage.Text.Quoted

/-!
# What can go wrong

The first problem met in document order ends a conversion. A problem is its cause; the wording is
one function of it.
-/

namespace SvgPage

inductive DefinitionKind where
  | gradient
  | clipPath
  | mask
  | filter
  deriving DecidableEq, Repr

def DefinitionKind.name : DefinitionKind → String
  | gradient => "gradient"
  | clipPath => "clipPath"
  | mask => "mask"
  | filter => "filter"

inductive FontFaceFault where
  | noFamily
  | noWeight
  | noSource
  | noData (family : String)
  deriving DecidableEq, Repr

def FontFaceFault.message : FontFaceFault → String
  | noFamily => "@font-face without font-family"
  | noWeight => "@font-face without font-weight"
  | noSource => "@font-face without src"
  | noData family => "@font-face for " ++ Text.quoted family ++ " has no data: source"

inductive Problem where
  | malformedDocument
  | unsupportedElement (tag : String) (context : Option String)
  | unsupportedAttribute (tag property value : String)
  | unresolvedReference (tag id : String) (expected : DefinitionKind)
  | unresolvedFont (tag family : String) (weight style : Option String)
  | malformedPath (position : Nat) (reason : PathData.Reason)
  | unsupportedImageType (mime : String)
  | malformedStyleBlock (fault : FontFaceFault)
  | duplicateDefinition (tag id : String)
  | unusableFont (hint : String)
  | unusableImage
  deriving DecidableEq, Repr

namespace Problem

def ofPath (text : List Char) (fault : PathData.Fault) : Problem :=
  .malformedPath (fault.position text) fault.reason

def message : Problem → String
  | malformedDocument => "malformed document"
  | unsupportedElement tag context =>
    "unsupported element <" ++ tag ++ ">" ++
      match context with
      | some c => " inside <" ++ c ++ ">"
      | none => ""
  | unsupportedAttribute tag property value =>
    "unsupported value " ++ Text.quoted value ++ " for attribute \x60" ++ property ++
      "\x60 on <" ++ tag ++ ">"
  | unresolvedReference tag id expected =>
    "<" ++ tag ++ "> references #" ++ id ++ ", which is not a defined " ++ expected.name
  | unresolvedFont tag family weight style =>
    "no font for family " ++ Text.quoted family ++ " weight " ++ weight.getD "*" ++ " style " ++
      style.getD "*" ++ " on <" ++ tag ++ ">"
  | malformedPath position reason =>
    "malformed path data at byte " ++ toString position ++ ": " ++ reason.message
  | unsupportedImageType mime => "unsupported image type " ++ Text.quoted mime
  | malformedStyleBlock fault => "malformed style block: " ++ fault.message
  | duplicateDefinition tag id => "duplicate definition #" ++ id ++ " on <" ++ tag ++ ">"
  | unusableFont hint => "failed to embed font: invalid font data for " ++ hint
  | unusableImage => "failed to embed image"

end Problem

end SvgPage

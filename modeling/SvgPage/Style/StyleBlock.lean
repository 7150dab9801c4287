import SvgPage.Css.Rule
import SvgPage.Payload.DataUri
import SvgPage.Problem
import SvgPage.Style.Cascade

/-!
# Style blocks

A style block contributes properties of classes and font faces. A rule counts for a class only
where the class stands alone as a selector.
-/

namespace SvgPage

structure FontFace where
  family : String
  weight : String
  style : String
  bytes : List UInt8
  deriving DecidableEq, Repr

structure StyleBlock where
  classes : List (String × Properties)
  fontFaces : List FontFace
  deriving DecidableEq, Repr

namespace StyleBlock

def empty : StyleBlock := ⟨[], []⟩

def append (a b : StyleBlock) : StyleBlock :=
  ⟨a.classes ++ b.classes, a.fontFaces ++ b.fontFaces⟩

def isClassChar (c : Char) : Bool := Text.isAsciiAlphanumeric c || c == '-' || c == '_'

def className? : List Char → Option String
  | '.' :: name =>
    if !name.isEmpty && name.all isClassChar then some (String.ofList name) else none
  | _ => none

/-- The classes that stand between the commas of a text. -/
def classNames (selectors : List Char) : List String :=
  (Text.pieces (· == ',') selectors).filterMap fun piece => className? (Text.trim piece)

def ofStyleRule (selectors : List Css.Selector) (ds : List Css.Declaration) : StyleBlock :=
  let ps := Shelf.ofList (Properties.split (Css.Declaration.listText ds))
  if ps.isEmpty then empty
  else ⟨(classNames (Css.Selector.listText selectors)).map (·, ps), []⟩

/-- The data of the first address that holds some. -/
def dataWithin : Nat → List Char → Option (List UInt8)
  | 0, _ => none
  | fuel + 1, cs => do
    let rest ← Text.afterFirst? "url(".toList cs
    let (inside, rest) ← Text.splitFirst? (· == ')') rest
    match DataUri.read? (Text.unquote (Text.trim inside)) with
    | some uri => some uri.bytes
    | none => dataWithin fuel rest

def firstData? (source : String) : Option (List UInt8) :=
  dataWithin (source.length + 1) source.toList

/-- A font face needs a family, a weight and data. Of a range of weights the first one counts. -/
def fontFace (ds : List Css.Declaration) : Except FontFaceFault FontFace := do
  let ps := Shelf.ofList (Properties.split (Css.Declaration.blockText ds))
  let family ← (Shelf.get? ps "font-family").elim (.error .noFamily) .ok
  let weight ← (Shelf.get? ps "font-weight").elim (.error .noWeight) .ok
  let source ← (Shelf.get? ps "src").elim (.error .noSource) .ok
  let family := String.ofList (Text.unquote family.toList)
  let bytes ← (firstData? source).elim (.error (.noData family)) .ok
  return {
    family := family
    weight := ((Text.fields Text.isBlank weight.toList).head?.map String.ofList).getD "400"
    style := (Shelf.get? ps "font-style").getD "normal"
    bytes := bytes }

mutual

def ofRule : Css.Rule → Except FontFaceFault StyleBlock
  | .style selectors ds => .ok (ofStyleRule selectors ds)
  | .media rules => ofRules rules
  | .fontFace ds => (fontFace ds).map fun face => ⟨[], [face]⟩

def ofRules : List Css.Rule → Except FontFaceFault StyleBlock
  | [] => .ok empty
  | r :: rs =>
    match ofRule r with
    | .error fault => .error fault
    | .ok first => (ofRules rs).map first.append

end

def read (cs : List Char) : Except FontFaceFault StyleBlock :=
  ofRules (Css.Rule.list (Text.trim cs))

end StyleBlock

end SvgPage

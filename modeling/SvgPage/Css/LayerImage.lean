import SvgPage.Css.Picture

/-!
# Images of layers

A layer shows a picture, or one of several that differ in resolution or in kind. The candidates are
written with their resolution always there; the older function writes addresses as such, the newer
one as strings.
-/

namespace SvgPage.Css

/-- A picture with its resolution and its kind of medium. -/
structure Candidate where
  picture : Picture
  resolution : Quantity
  medium : Option String
  deriving BEq

inductive LayerImage where
  | picture (p : Picture)
  | choice (older : Bool) (candidates : List Candidate)
  deriving BEq

def string? : Reader String := fun cs =>
  match next? cs with
  | some (.token (.string s), rest) => some (s, rest)
  | _ => none

def resolution? : Reader Quantity := fun cs =>
  match next? cs with
  | some (.token (.dimension n unit), rest) =>
    (Quantity.ofDimension? n.single unit).bind fun q =>
      if q.measure? = some .resolution then some (q, rest) else none
  | _ => none

namespace Candidate

def plain : Quantity := .dimension 1 "x"

def medium? : Reader String := string?.inFunction "type"

def read? : Reader Candidate := fun cs => do
  let (p, rest) ← Reader.first [string?.map .url, Picture.read?] cs
  match resolution? rest with
  | some (r, rest) =>
    let (m, rest) := (medium?.map some).orElse none rest
    some (⟨p, r, m⟩, rest)
  | none =>
    let (m, rest) := (medium?.map some).orElse none rest
    let (r, rest) := resolution?.orElse plain rest
    some (⟨p, r, m⟩, rest)

def text (older : Bool) (c : Candidate) : List Char :=
  let shown : List Char :=
    match c.picture with
    | .url u => if older then urlText u else stringText u
    | p => p.text
  let kind : List Char :=
    match c.medium with
    | some m => " type(".toList ++ stringText m ++ [')']
    | none => []
  shown ++ ' ' :: c.resolution.fullText ++ kind

end Candidate

namespace LayerImage

def choiceName (older : Bool) : String := if older then "-webkit-image-set" else "image-set"

def choice? (older : Bool) : Reader LayerImage := fun cs =>
  match next? cs with
  | some (.function name inside, rest) =>
    if Text.lower name.toList = (choiceName older).toList then
      (Candidate.read?.list? inside).map fun found => (.choice older found, rest)
    else none
  | _ => none

def read? : Reader LayerImage :=
  Reader.first [Picture.read?.map .picture, choice? false, choice? true]

def text : LayerImage → List Char
  | .picture p => p.text
  | .choice older candidates =>
    (choiceName older).toList ++
      '(' :: Text.join [',', ' '] (candidates.map (Candidate.text older)) ++ [')']

end LayerImage

end SvgPage.Css

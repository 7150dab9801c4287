import SvgPage.Css.Amount

/-!
# Positions in a box

A position has a horizontal and a vertical part. Each is the centre, a length from the near side, or
a side with a length from there. Parts that go without saying are left out in writing.
-/

namespace SvgPage.Css

/-- The words for the two sides of one direction. -/
structure Axis where
  near : String
  far : String

def Axis.horizontal : Axis := ⟨"left", "right"⟩

def Axis.vertical : Axis := ⟨"top", "bottom"⟩

/-- Which side a word names: whether it is the far one. -/
def Axis.side? (axis : Axis) : Reader Bool := fun cs =>
  (keyword? [axis.near, axis.far] cs).map fun (w, rest) => (w == axis.far, rest)

inductive Place where
  | center
  | length (e : Expression)
  | side (far : Bool) (offset : Option Expression)
  deriving BEq

namespace Place

def half : Expression := .quantity (.percentage 0.5)

def isCenter : Place → Bool
  | .center => true
  | .length e => e == half
  | .side _ _ => false

def center? : Reader Unit := fun cs => (keyword? ["center"] cs).map fun (_, rest) => ((), rest)

def offset? (cs : List Component) : Option Expression × List Component :=
  (lengthPercentage?.map some).orElse none cs

def read? (axis : Axis) : Reader Place := fun cs =>
  match center? cs, lengthPercentage? cs with
  | some (_, rest), _ => some (.center, rest)
  | none, some (e, rest) => some (.length e, rest)
  | none, none =>
    (axis.side? cs).map fun (far, rest) =>
      let (e, rest) := offset? rest
      (.side far e, rest)

def text (axis : Axis) : Place → List Char
  | .center => "center".toList
  | .length e => e.text
  | .side far offset =>
    (if far then axis.far else axis.near).toList ++
      (offset.map fun e => ' ' :: e.text).getD []

def sideText (far : Bool) : List Char := if far then "100%".toList else ['0']

def distanceText? : Place → Option (List Char)
  | .center => some half.text
  | .length e => some (if e.isZero then ['0'] else e.text)
  | .side false none => some ['0']
  | .side false (some e) => some (if e.isZero then ['0'] else e.text)
  | .side true _ => none

end Place

structure Position where
  x : Place
  y : Place
  deriving BEq

namespace Position

def center : Position := ⟨.center, .center⟩

def isCenter (p : Position) : Bool := p.x.isCenter && p.y.isCenter

/-- After a horizontal centre, a vertical place, or a horizontal one that came second. -/
def afterCenter (cs : List Component) : Position × List Component :=
  match Place.read? .vertical cs with
  | some (y, rest) => (⟨.center, y⟩, rest)
  | none =>
    let (x, rest) := (Place.read? .horizontal).orElse .center cs
    (⟨x, .center⟩, rest)

def afterLength (e : Expression) (cs : List Component) : Position × List Component :=
  match Axis.vertical.side? cs, lengthPercentage? cs, Place.center? cs with
  | some (far, rest), _, _ => (⟨.length e, .side far none⟩, rest)
  | none, some (y, rest), _ => (⟨.length e, .length y⟩, rest)
  | none, none, some (_, rest) => (⟨.length e, .center⟩, rest)
  | none, none, none => (⟨.length e, .center⟩, cs)

/-- After a horizontal side, the vertical centre or side; a length that no vertical side follows is
the vertical place. -/
def afterSide (far : Bool) (offset : Option Expression) (cs : List Component) :
    Position × List Component :=
  match Place.center? cs, Axis.vertical.side? cs with
  | some (_, rest), _ => (⟨.side far offset, .center⟩, rest)
  | none, some (below, rest) =>
    let (e, rest) := Place.offset? rest
    (⟨.side far offset, .side below e⟩, rest)
  | none, none => (⟨.side far none, (offset.map Place.length).getD .center⟩, cs)

/-- What may follow a vertical side that came first: a length, then the horizontal place. -/
def horizontalAfter? : Reader (Option Expression × Place) := fun cs =>
  let (y, rest) := Place.offset? cs
  match Axis.horizontal.side? rest, Place.center? rest with
  | some (far, rest), _ =>
    let (x, rest) := Place.offset? rest
    some ((y, .side far x), rest)
  | none, some (_, rest) => some ((y, .center), rest)
  | none, none => none

def read? : Reader Position := fun cs =>
  match Place.read? .horizontal cs with
  | some (.center, rest) => some (afterCenter rest)
  | some (.length e, rest) => some (afterLength e rest)
  | some (.side far offset, rest) => some (afterSide far offset rest)
  | none =>
    (Axis.vertical.side? cs).map fun (below, rest) =>
      match horizontalAfter? rest with
      | some ((y, x), rest) => (⟨x, .side below y⟩, rest)
      | none => (⟨.center, .side below none⟩, rest)

def text (p : Position) : List Char :=
  let both : List Char :=
    match p.x.distanceText?, p.y.distanceText? with
    | some x, some y => x ++ ' ' :: y
    | _, _ => p.x.text .horizontal ++ ' ' :: p.y.text .vertical
  match p.x, p.y with
  | .side true (some _), .length y => p.x.text .horizontal ++ " top ".toList ++ y.text
  | .side true (some _), y =>
    if y.isCenter then p.x.text .horizontal ++ " center".toList else both
  | .length x, .side true (some _) =>
    "left ".toList ++ x.text ++ ' ' :: p.y.text .vertical
  | x, y =>
    if x.isCenter && y.isCenter then x.text .horizontal
    else
      match x, y.isCenter, y with
      | .length e, true, _ => e.text
      | .side far none, true, _ => Place.sideText far
      | _, _, .side below none =>
        if x.isCenter then y.text .vertical
        else
          match x with
          | .side far none => Place.sideText far ++ ' ' :: Place.sideText below
          | _ => both
      | _, _, _ => both

end Position

end SvgPage.Css

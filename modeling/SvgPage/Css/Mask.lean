import SvgPage.Css.Box
import SvgPage.Css.LayerImage

/-!
# Mask layers

A mask is a list of layers. The parts of a layer may come in any order and may all be missing; they
are written in one order, without those that say nothing new.
-/

namespace SvgPage.Css

/-- The size of a layer's picture. A missing length is left to the picture. -/
inductive LayerSize where
  | cover
  | contain
  | lengths (width height : Option Expression)
  deriving BEq

structure Repetition where
  x : String
  y : String
  deriving DecidableEq, Repr

/-- Where a layer is cut off: at a box or nowhere. -/
inductive LayerClip where
  | box (b : Box)
  | nowhere
  deriving DecidableEq, Repr

structure MaskLayer where
  picture : Option LayerImage
  position : Option Position
  size : Option LayerSize
  repetition : Option Repetition
  origin : Option Box
  clip : Option LayerClip
  composite : Option String
  mode : Option String

namespace LayerSize

def default : LayerSize := .lengths none none

def length? : Reader (Option Expression) :=
  Reader.first [(keyword? ["auto"]).map fun _ => none, lengthPercentage?.map some]

def read? : Reader LayerSize := fun cs =>
  match length? cs with
  | some (width, rest) =>
    let (height, rest) := length?.orElse none rest
    some (.lengths width height, rest)
  | none =>
    (keyword? ["cover", "contain"] cs).map fun (w, rest) =>
      (if w = "cover" then .cover else .contain, rest)

def lengthText : Option Expression → List Char
  | none => "auto".toList
  | some e => e.text

def text : LayerSize → List Char
  | .cover => "cover".toList
  | .contain => "contain".toList
  | .lengths width height =>
    lengthText width ++ (if height.isSome then ' ' :: lengthText height else [])

end LayerSize

namespace Repetition

def default : Repetition := ⟨"repeat", "repeat"⟩

def way? : Reader String := keyword? ["repeat", "space", "round", "no-repeat"]

def read? : Reader Repetition :=
  Reader.first
    [(keyword? ["repeat-x"]).map fun _ => ⟨"repeat", "no-repeat"⟩,
      (keyword? ["repeat-y"]).map fun _ => ⟨"no-repeat", "repeat"⟩,
      fun cs => (way? cs).map fun (x, rest) =>
        let (y, rest) := way?.orElse x rest
        (⟨x, y⟩, rest)]

def text (r : Repetition) : List Char :=
  if r = ⟨"repeat", "no-repeat"⟩ then "repeat-x".toList
  else if r = ⟨"no-repeat", "repeat"⟩ then "repeat-y".toList
  else r.x.toList ++ (if r.x = r.y then [] else ' ' :: r.y.toList)

end Repetition

namespace LayerClip

def read? : Reader LayerClip :=
  Reader.first [Box.read?.map .box, (keyword? ["no-clip"]).map fun _ => .nowhere]

def text : LayerClip → List Char
  | .box b => b.text
  | .nowhere => "no-clip".toList

end LayerClip

namespace MaskLayer

def empty : MaskLayer := ⟨none, none, none, none, none, none, none, none⟩

/-- A part that has not been given yet. -/
def fresh (given : Option α) (r : Reader α) (set : α → MaskLayer) : Reader MaskLayer := fun cs =>
  if given.isSome then none else r.map set cs

def size? (cs : List Component) : Option LayerSize × List Component :=
  let r : Reader (Option LayerSize) := fun cs =>
    (slash? cs).bind fun (_, rest) => (LayerSize.read?.map some) rest
  r.orElse none cs

def position? (l : MaskLayer) : Reader MaskLayer := fun cs =>
  if l.position.isSome then none
  else
    (Position.read? cs).map fun (p, rest) =>
      let (size, rest) := size? rest
      ({ l with position := some p, size := size }, rest)

/-- One more part; a box is the origin before it is the clip. -/
def part? (l : MaskLayer) : Reader MaskLayer :=
  Reader.first
    [fresh l.picture LayerImage.read? fun p => { l with picture := some p },
      position? l,
      fresh l.repetition Repetition.read? fun r => { l with repetition := some r },
      fresh l.origin Box.read? fun b => { l with origin := some b },
      fresh l.clip LayerClip.read? fun c => { l with clip := some c },
      fresh l.composite (keyword? ["add", "subtract", "intersect", "exclude"]) fun w =>
        { l with composite := some w },
      fresh l.mode (keyword? ["luminance", "alpha", "match-source"]) fun w =>
        { l with mode := some w }]

def readWithin (l : MaskLayer) : Nat → List Component → MaskLayer × List Component
  | 0, cs => (l, cs)
  | fuel + 1, cs =>
    match part? l cs with
    | some (l, rest) => readWithin l fuel rest
    | none => (l, cs)

/-- A layer has at most seven parts. -/
def read? : Reader MaskLayer := fun cs => some (readWithin empty 7 cs)

def corner : Position :=
  ⟨.length (.quantity (.percentage 0)), .length (.quantity (.percentage 0))⟩

def text (l : MaskLayer) : List Char :=
  let position := l.position.getD corner
  let size := l.size.getD .default
  let repetition := l.repetition.getD .default
  let origin := l.origin.getD .border
  let clip := l.clip.getD (.box origin)
  let placed : List (List Char) :=
    if position == corner && size == .default then []
    else
      [position.text ++ if size == .default then [] else " / ".toList ++ size.text]
  let boxes : List (List Char) :=
    if origin = .border && clip = .box .border then []
    else if clip = .box origin then [origin.text] else [origin.text, clip.text]
  let word (given : Option String) (default : String) : List (List Char) :=
    let w := given.getD default
    if w = default then [] else [w.toList]
  Text.join [' ']
    ([(l.picture.getD (.picture .nothing)).text] ++ placed ++
      (if repetition = .default then [] else [repetition.text]) ++ boxes ++
      word l.composite "add" ++ word l.mode "match-source")

end MaskLayer

def maskText? (cs : List Component) : Option (List Char) :=
  (MaskLayer.read?.list? cs).map fun ls => Text.join [',', ' '] (ls.map MaskLayer.text)

end SvgPage.Css

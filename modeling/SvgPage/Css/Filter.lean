import SvgPage.Css.ColorFunction

/-!
# Filter functions

A filter is a list of references and functions. A function is written without an argument that
changes nothing.
-/

namespace SvgPage.Css

inductive Filter where
  | url (u : String)
  | blur (radius : Expression)
  /-- A function whose argument is a number or percentage, such as `sepia`. -/
  | tone (name : String) (amount : Proportion)
  | hueRotate (angle : Quantity)
  | dropShadow (x y radius : Expression) (color : Color)

namespace Filter

def toneNames : List String :=
  ["brightness", "contrast", "grayscale", "invert", "opacity", "saturate", "sepia"]

def tone? : Reader Filter :=
  Reader.first (toneNames.map fun name =>
    Reader.inFunction name fun cs =>
      let (p, rest) := proportion?.orElse (.number 1) cs
      some (.tone name p, rest))

def offsets? : Reader (Expression × Expression × Expression) := fun cs => do
  let (x, rest) ← length? cs
  let (y, rest) ← length? rest
  let (r, rest) := length?.orElse .zero rest
  some ((x, y, r), rest)

def shadow? : Reader Filter := fun cs =>
  match offsets? cs with
  | some ((x, y, r), rest) =>
    let (c, rest) := color?.orElse .current rest
    some (.dropShadow x y r c, rest)
  | none => do
    let (c, rest) ← color? cs
    let ((x, y, r), rest) ← offsets? rest
    some (.dropShadow x y r c, rest)

def read? : Reader Filter :=
  Reader.first
    [reference?.map .url,
      Reader.inFunction "blur" fun cs => some (length?.map .blur |>.orElse (.blur .zero) cs),
      tone?,
      Reader.inFunction "hue-rotate" fun cs =>
        some ((angle? true).map .hueRotate |>.orElse (.hueRotate (.dimension 0 "deg")) cs),
      Reader.inFunction "drop-shadow" shadow?]

def call (name : String) (argument : List Char) : List Char :=
  name.toList ++ '(' :: argument ++ [')']

def text : Filter → List Char
  | .url u => urlText u
  | .blur r => call "blur" (if r == .zero then [] else r.text)
  | .tone name p => call name (if p.value == 1 then [] else p.text)
  | .hueRotate q => call "hue-rotate" (if q.isZero then [] else q.fullText)
  | .dropShadow x y r c =>
    call "drop-shadow" (Text.join [' '] ([x.text, y.text] ++
      (if r == .zero then [] else [r.text]) ++ (if c == .current then [] else [c.text])))

end Filter

def filterText? (cs : List Component) : Option (List Char) :=
  match (keyword? ["none"]).whole? cs with
  | some _ => some "none".toList
  | none =>
    let (fs, rest) := Filter.read?.many cs
    if isDone rest then some (Text.join [' '] (fs.map Filter.text)) else none

end SvgPage.Css

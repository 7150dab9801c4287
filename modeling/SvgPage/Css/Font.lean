import SvgPage.Css.Amount

/-!
# Font values

Families, weights, sizes and styles.
-/

namespace SvgPage.Css

def familyKeywords : List String :=
  ["serif", "sans-serif", "cursive", "fantasy", "monospace", "system-ui", "emoji", "math",
    "fangsong", "ui-serif", "ui-sans-serif", "ui-monospace", "ui-rounded", "initial", "inherit",
    "unset", "default", "revert", "revert-layer"]

/-- A family name goes without quotes where that is shorter and is not mistaken for a keyword. -/
def familyNameText (name : String) : List Char :=
  let bare := Text.join [' ']
    ((Text.pieces (· == ' ') name.toList).map fun part => identText (String.ofList part))
  if name.isEmpty || familyKeywords.contains (String.ofList (Text.lower name.toList)) ||
      (String.ofList bare).utf8ByteSize ≥ name.utf8ByteSize + 2 then stringText name
  else bare

def familyText? (cs : List Component) : Option (List Char) :=
  match Component.solid cs with
  | [.token (.string s)] => some (familyNameText s)
  | parts =>
    match (keyword? familyKeywords).whole? parts with
    | some t => some t.toList
    | none =>
      let words : Option (List String) := parts.mapM fun c =>
        match c with
        | .token (.ident n) => some n
        | _ => none
      match words with
      | some (w :: ws) =>
        if !ws.isEmpty && familyKeywords.contains (String.ofList (Text.lower w.toList)) then none
        else some (familyNameText (" ".intercalate (w :: ws)))
      | _ => none

def familiesText? (cs : List Component) : Option (List Char) :=
  ((splitCommas cs).mapM familyText?).map (Text.join [',', ' '])

def weight? : Reader (List Char) :=
  Reader.first
    [number?.map numberText,
      (keyword? ["normal", "bold", "bolder", "lighter"]).map String.toList]

def size? : Reader (List Char) :=
  Reader.first
    [lengthPercentage?.map Expression.text,
      (keyword? ["xx-small", "x-small", "small", "medium", "large", "x-large", "xx-large",
        "xxx-large", "larger", "smaller"]).map String.toList]

/-- The slant of an oblique style that goes without saying, in degrees. -/
def usualSlant : Float32 := 14

def isUsualSlant (q : Quantity) : Bool := q.degrees? == some usualSlant

def style? : Reader (List Char) :=
  Reader.first
    [(keyword? ["normal", "italic"]).map String.toList,
      fun cs => (keyword? ["oblique"] cs).map fun (w, rest) =>
        match angle? false rest with
        | some (q, rest) =>
          (w.toList ++ if isUsualSlant q then [] else ' ' :: q.fullText, rest)
        | none => (w.toList, rest)]

def faceStyle? : Reader (List Char) :=
  Reader.first
    [(keyword? ["normal", "italic"]).map String.toList,
      fun cs => (keyword? ["oblique"] cs).map fun (w, rest) =>
        match angle? false rest with
        | some (low, rest) =>
          let (high, rest) := (angle? false).orElse low rest
          (w.toList ++
            (if isUsualSlant low && isUsualSlant high then []
            else
              ' ' :: low.fullText ++
                if low.degrees? == high.degrees? then [] else ' ' :: high.fullText), rest)
        | none => (w.toList, rest)]

def faceWeight? : Reader (List Char) := fun cs =>
  (weight? cs).map fun (low, rest) =>
    let (high, rest) := weight?.orElse low rest
    (if low = high then low else low ++ ' ' :: high, rest)

end SvgPage.Css

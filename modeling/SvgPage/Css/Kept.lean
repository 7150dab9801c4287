import SvgPage.Css.ColorFunction

/-!
# Values that keep their tokens

A value that is not valid for its property, or whose property has no grammar here, is written as it
came, with its white space and comments. Only single tokens get their usual spelling: colours in
digits or functions, addresses, strings, numbers, and units. References to variables are checked,
and one that is not well formed spoils the value.
-/

namespace SvgPage.Css

def tokenText : Token → List Char
  | .ident n => identText n
  | .function n => identText n ++ ['(']
  | .atKeyword n => '@' :: identText n
  | .hash n =>
    match Color.ofHex? n.toList with
    | some c => c.text
    | none => '#' :: nameTail n.toList
  | .string s => stringText s
  | .badString => []
  | .url u => urlText u
  | .badUrl => []
  | .number n => numberText n.single
  | .percentage n => percentToken n
  | .dimension n unit =>
    match Quantity.ofDimension? n.single unit with
    | some q => q.fullText
    | none => dimensionText n.single unit
  | .delim c => [c]
  | .matching c => [c, '=']
  | .comma => [',']
  | .colon => [':']
  | .semicolon => [';']
  | .opening .round => ['(']
  | .opening .square => ['[']
  | .opening .curly => ['\x7b']
  | .closing .round => [')']
  | .closing .square => [']']
  | .closing .curly => ['\x7d']
  | .commentOpen => "<!--".toList
  | .commentClose => "-->".toList
  | .blank s => s.toList
  | .comment s => '/' :: '*' :: s.toList ++ ['*', '/']

namespace Kept

/-- The text of one component, and whether it is white space. -/
structure Part where
  blank : Bool
  text : List Char

def isBlank : Component → Bool
  | .token (.blank _) => true
  | _ => false

/-- Without white space at either end, unless it is all there is. -/
def strip (ps : List Part) : List Part :=
  if ps.length < 2 then ps
  else
    let ps := if (ps.head?.map Part.blank).getD false then ps.drop 1 else ps
    if (ps.getLast?.map Part.blank).getD false then ps.dropLast else ps

def joined (ps : List Part) : List Char := ps.flatMap Part.text

/-- The text of a list by itself. -/
def stripped (ps : List Part) : List Char := joined (strip ps)

/-- How many components come before the first comma or, if there is none, in all. -/
def beforeComma (cs : List Component) : Nat := (cs.takeWhile (!isComma ·)).length

def fallbackText (inside : List Component) (parts : List Part) : List Char :=
  let n := beforeComma inside
  if n < inside.length then ',' :: ' ' :: stripped (parts.drop (n + 1)) else []

def variableText? (inside : List Component) (parts : List Part) : Option (List Char) :=
  match Component.solid (inside.take (beforeComma inside)) with
  | [.token (.ident n)] =>
    (Text.after? ['-', '-'] n.toList).map fun _ =>
      "var(".toList ++ identText n ++ fallbackText inside parts ++ [')']
  | _ => none

def reserved : List String := ["initial", "inherit", "unset", "default", "revert", "revert-layer"]

def surroundings : List String :=
  ["safe-area-inset-top", "safe-area-inset-right", "safe-area-inset-bottom",
    "safe-area-inset-left", "viewport-segment-width", "viewport-segment-height",
    "viewport-segment-top", "viewport-segment-left", "viewport-segment-bottom",
    "viewport-segment-right"]

def environmentText? (inside : List Component) (parts : List Part) : Option (List Char) :=
  match Component.solid (inside.take (beforeComma inside)) with
  | .token (.ident n) :: indices =>
    let lower := String.ofList (Text.lower n.toList)
    let name := if surroundings.contains lower then lower else n
    let numbers : Option (List (List Char)) := indices.mapM fun c =>
      match c with
      | .token (.number n) =>
        if n.whole then some (' ' :: (toString n.value.toFloat.toInt32.toInt).toList) else none
      | _ => none
    if reserved.contains lower then none
    else numbers.map fun ns =>
      "env(".toList ++ identText name ++ ns.flatten ++ fallbackText inside parts ++ [')']
  | _ => none

def channelText (c : Color.Coordinate) : List Char :=
  (toString (Octets.nearest (Color.channel c / 255)).toNat).toList

/-- Red, green and blue before an opacity that is not known yet. -/
def openRgb? (args : List Component) (origin : Option Origin) : Option (List Char) := do
  let (r, rest) ← Color.coordinate? origin args
  let (g, rest) ← Color.coordinate? origin rest
  let (b, rest) ← Color.coordinate? origin rest
  if rest.isEmpty then
    some ("rgb(".toList ++ Text.join [' '] [channelText r, channelText g, channelText b])
  else none

def openHsl? (args : List Component) (origin : Option Origin) : Option (List Char) := do
  let (h, rest) ← Color.hue? origin args
  let (s, rest) ← Color.coordinate? origin rest
  let (l, rest) ← Color.coordinate? origin rest
  if rest.isEmpty then
    some ("hsl(".toList ++ Text.join [' '] [numberText h,
      percentText (Color.hundredths s / 100), percentText (Color.hundredths l / 100)])
  else none

/-- A colour whose opacity is not known yet: its other arguments, and the rest after a slash. -/
def openColorText? (name : String) (inside : List Component) (parts : List Part) :
    Option (List Char) := do
  let isSlash : Component → Bool
    | .token (.delim '/') => true
    | _ => false
  let n := (inside.takeWhile (!isSlash ·)).length
  let args := Component.solid (inside.take n)
  if n = inside.length || args.any (·.isWord "none") then none
  else
    let alpha := ' ' :: '/' :: ' ' :: stripped (parts.drop (n + 1)) ++ [')']
    let either (light dark : List Char) : List Char :=
      "light-dark(".toList ++ light ++ ',' :: ' ' :: dark ++ [')']
    match String.ofList (Text.lower name.toList) with
    | "rgb" => do
      let (base, args) ← Color.base? .rgb args
      base.build? either fun o => (openRgb? args o).map (· ++ alpha)
    | "hsl" => do
      let (base, args) ← Color.base? .hsl args
      base.build? either fun o => (openHsl? args o).map (· ++ alpha)
    | _ => none

def openChoiceText? (name : String) (inside : List Component) (parts : List Part) :
    Option (List Char) :=
  let n := beforeComma inside
  if Text.lower name.toList = "light-dark".toList && n < inside.length then
    some ("light-dark(".toList ++ stripped (parts.take n) ++ ',' :: ' ' ::
      stripped (parts.drop (n + 1)) ++ [')'])
  else none

def functionText? (name : String) (inside : List Component) (parts : List Part) :
    Option (List Char) :=
  match Color.ofFunction? name inside with
  | some c => some c.text
  | none =>
    match (openColorText? name inside parts).or (openChoiceText? name inside parts) with
    | some t => some t
    | none =>
      match name with
      | "url" => (Reader.whole? reference? [.function name inside]).map urlText
      | "var" => variableText? inside parts
      | "env" => environmentText? inside parts
      | _ => some (identText name ++ '(' :: stripped parts ++ [')'])

mutual

def text? : Component → Option (List Char)
  | .token t => some (tokenText t)
  | .function name inside => (parts? inside).bind (functionText? name inside)
  | .block b inside =>
    (parts? inside).map fun ps => tokenText (.opening b) ++ joined ps ++ tokenText (.closing b)

def parts? : List Component → Option (List Part)
  | [] => some []
  | c :: cs =>
    match text? c, parts? cs with
    | some t, some ps => some (⟨isBlank c, t⟩ :: ps)
    | _, _ => none

end

end Kept

/-- A value that keeps its tokens. -/
def keptText? (value : List Component) : Option (List Char) :=
  (Kept.parts? value).map Kept.stripped

end SvgPage.Css

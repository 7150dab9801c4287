import SvgPage.Css.Kept

/-!
# Selectors

A selector is a row of simple selectors and combinators. Its text is canonical: one way of spacing,
quoted attribute values, counts of siblings in lowest terms, no asterisk that says nothing, and no
`:is` around a lone selector that needs none. What stands before a place in a selector, or around
it, rules out some of what could come next.
-/

namespace SvgPage.Css

inductive Combinator where
  | descendant
  | child
  | nextSibling
  | laterSibling
  deriving DecidableEq, Repr

namespace Combinator

def ofChar? : Char → Option Combinator
  | '>' => some child
  | '+' => some nextSibling
  | '~' => some laterSibling
  | _ => none

def text : Combinator → List Char
  | descendant => [' ']
  | child => " > ".toList
  | nextSibling => " + ".toList
  | laterSibling => " ~ ".toList

/-- At the head of a selector, which then starts from an element outside of it. -/
def leadingText (c : Combinator) : List Char := (c.text.drop 1)

end Combinator

/-- Every so many siblings from an offset on. -/
structure Nth where
  step : Int
  offset : Int
  deriving DecidableEq, Repr

namespace Nth

def integer? (n : Numeral) : Option Int :=
  if n.whole then some n.value.toFloat.toInt32.toInt else none

def offsetInWord? : List Char → Option Int
  | 'n' :: '-' :: ds =>
    if !ds.isEmpty && ds.all Decimal.isDigit then
      some (-(min (Decimal.wholeOfDigits ds) 2147483648 : Nat))
    else none
  | _ => none

/-- A number without a sign after a sign that stands by itself. -/
def unsigned? (sign : Int) : Reader Int := fun cs =>
  match next? cs with
  | some (.token (.number n), rest) =>
    if n.signed then none else (integer? n).map (sign * ·, rest)
  | _ => none

def offset? : Reader Int := fun cs =>
  match next? cs with
  | some (.token (.delim '+'), rest) => unsigned? 1 rest
  | some (.token (.delim '-'), rest) => unsigned? (-1) rest
  | some (.token (.number n), rest) =>
    match n.signed, integer? n with
    | true, some b => some (b, rest)
    | _, _ => some (0, cs)
  | _ => some (0, cs)

/-- What follows a step, from the word that begins with `n`. -/
def afterStep? (step : Int) (word : List Char) : Reader Nth := fun cs =>
  let offset : Option (Int × List Component) :=
    match word with
    | ['n'] => offset? cs
    | ['n', '-'] => unsigned? (-1) cs
    | _ => (offsetInWord? word).map (·, cs)
  offset.map fun (b, rest) => (⟨step, b⟩, rest)

def read? : Reader Nth := fun cs =>
  match next? cs with
  | some (.token (.number n), rest) => (integer? n).map (⟨0, ·⟩, rest)
  | some (.token (.dimension n unit), rest) =>
    (integer? n).bind fun a => afterStep? a (Text.lower unit.toList) rest
  | some (.token (.ident word), rest) =>
    match String.ofList (Text.lower word.toList) with
    | "even" => some (⟨2, 0⟩, rest)
    | "odd" => some (⟨2, 1⟩, rest)
    | word =>
      match word.toList with
      | '-' :: cs => afterStep? (-1) cs rest
      | cs => afterStep? 1 cs rest
  | some (.token (.delim '+'), .token (.ident word) :: rest) =>
    afterStep? 1 (Text.lower word.toList) rest
  | _ => none

def text (n : Nth) : List Char :=
  let step : String :=
    match n.step with
    | 0 => ""
    | 1 => "n"
    | -1 => "-n"
    | a => toString a ++ "n"
  if n = ⟨2, 1⟩ then "odd".toList
  else if n.offset = 0 then (if n.step = 0 then ['0'] else step.toList)
  else
    step.toList ++ (if n.step ≠ 0 ∧ 0 < n.offset then ['+'] else []) ++ (toString n.offset).toList

end Nth

inductive Namespace where
  | empty
  | any
  | named (short : String)
  deriving DecidableEq, Repr

def Namespace.text : Namespace → List Char
  | empty => ['|']
  | any => ['*', '|']
  | named short => identText short ++ ['|']

/-- How an attribute is compared: the sign before `=`, the value, and a flag for letter case. -/
structure AttributeTest where
  sign : Option Char
  value : String
  flag : Option Char
  deriving DecidableEq, Repr

def AttributeTest.text (t : AttributeTest) : List Char :=
  t.sign.toList ++ '=' :: stringText t.value ++
    match t.flag with
    | some f => [' ', f]
    | none => []

inductive Part where
  | universal (space : Option Namespace)
  | element (space : Option Namespace) (name : String)
  | id (name : String)
  | className (name : String)
  | attribute (space : Option Namespace) (name : String) (test : Option AttributeTest)
  | pseudoClass (name : String)
  | pseudoElement (name : String)
  /-- The element of the rule around. -/
  | parent
  | combinator (c : Combinator)
  | leading (c : Combinator)
  /-- A pseudo-class or pseudo-element, its colons included, whose arguments are selectors. -/
  | among (head : String) (selectors : List (List Part))
  /-- A pseudo-class that counts siblings, of all kinds or of those that match. -/
  | nth (name : String) (count : Nth) (selectors : List (List Part))
  | call (isElement : Bool) (name : String) (arguments : List Component)

abbrev Selector := List Part

/-- Pseudo-elements that may be written with one colon. -/
def oldElements : List String := ["before", "after", "first-line", "first-letter"]

namespace Part

def isCombinator : Part → Bool
  | combinator _ => true
  | leading _ => true
  | _ => false

def isType : Part → Bool
  | universal _ => true
  | element .. => true
  | _ => false

/-- Whether a part says nothing before what follows it in its compound. -/
def isIdle (next : List Part) : Part → Bool
  | universal none =>
    match next with
    | p :: _ => !p.isCombinator
    | [] => false
  | _ => false

end Part

def spaceText (space : Option Namespace) : List Char := (space.map Namespace.text).getD []

namespace Selector

def standsAlone (selectors : List Selector) : Bool :=
  match selectors with
  | [s] => !s.any Part.isCombinator && !s.any Part.isType
  | _ => false

def pseudoElementText (name : String) : List Char :=
  let word := String.ofList (Text.lower name.toList)
  if oldElements.contains word then ':' :: word.toList else ':' :: ':' :: identText name

mutual

def partText : Part → List Char
  | .universal space => spaceText space ++ ['*']
  | .element space n => spaceText space ++ identText n
  | .id n => '#' :: identText n
  | .className n => '.' :: identText n
  | .attribute space n test =>
    '[' :: spaceText space ++ identText n ++ (test.map AttributeTest.text).getD [] ++ [']']
  | .pseudoClass n => ':' :: identText n
  | .pseudoElement n => pseudoElementText n
  | .parent => ['&']
  | .combinator c => c.text
  | .leading c => c.leadingText
  | .among head selectors =>
    if head == ":is" && standsAlone selectors then listText selectors
    else head.toList ++ '(' :: listText selectors ++ [')']
  | .nth name count selectors =>
    ':' :: name.toList ++ '(' :: count.text ++
      (if selectors.isEmpty then [] else " of ".toList ++ listText selectors) ++ [')']
  | .call isElement name arguments =>
    (if isElement then [':', ':'] else [':']) ++ identText name ++
      '(' :: (keptText? arguments).getD [] ++ [')']

def text : List Part → List Char
  | [] => []
  | p :: ps => (if p.isIdle ps then [] else partText p) ++ text ps

def listText : List (List Part) → List Char
  | [] => []
  | [s] => text s
  | s :: rest => text s ++ ',' :: ' ' :: listText rest

end

/-- A kind of pseudo-element after which a selector stops. -/
inductive Stop where
  | slotted
  | shadowPart
  | scrollbar
  | transition
  | other
  deriving DecidableEq

/-- What comes before a place in its compound, and what is allowed there at all. -/
structure Place where
  stops : List Stop := []
  elements : Bool := true
  combinators : Bool := true

namespace Place

def isStopped (p : Place) : Bool := !p.stops.isEmpty

def stopBy (p : Place) (s : Option Stop) : Place := { p with stops := p.stops ++ s.toList }

/-- Slotted elements and parts may have pseudo-elements; others may not. -/
def allowsElement (p : Place) : Bool :=
  p.elements && p.stops.all fun s => s == .slotted || s == .shadowPart

/-- Inside of arguments that match the element itself. -/
def inside (p : Place) : Place := { p with elements := false }

/-- Inside of arguments that are one compound. -/
def insideCompound (p : Place) : Place := { p with elements := false, combinators := false }

end Place

def scrollbarElements : List String :=
  ["-webkit-scrollbar", "-webkit-scrollbar-button", "-webkit-scrollbar-track",
    "-webkit-scrollbar-track-piece", "-webkit-scrollbar-thumb", "-webkit-scrollbar-corner",
    "-webkit-resizer"]

def scrollbarStates : List String :=
  ["horizontal", "vertical", "decrement", "increment", "start", "end", "double-button",
    "single-button", "no-button", "corner-present", "window-inactive"]

def userActions : List String := ["hover", "active", "focus", "focus-visible", "focus-within"]

def slottableElements : List String :=
  ["before", "after", "marker", "placeholder", "-webkit-input-placeholder", "-moz-placeholder",
    "-ms-input-placeholder", "file-selector-button", "-webkit-file-upload-button", "-ms-browse",
    "details-content"]

def knownElements : List String :=
  slottableElements ++
    ["first-line", "first-letter", "target-text", "search-text", "cue", "cue-region", "selection",
      "-moz-selection", "backdrop", "-webkit-backdrop", "grammar-error", "spelling-error",
      "view-transition", "picker-icon", "checkmark"]

def transitionElements : List String :=
  ["view-transition-group", "view-transition-image-pair", "view-transition-old",
    "view-transition-new"]

/-- How a pseudo-element without arguments ends its selector; an unknown one does not. -/
def stopOf? (word : String) : Option Stop :=
  if scrollbarElements.contains word then some .scrollbar
  else if knownElements.contains word then some .other
  else none

def pseudoClass? (place : Place) (name : String) : Option Part :=
  let word := String.ofList (Text.lower name.toList)
  let fits :=
    if place.stops.contains .slotted then false
    else if place.stops.contains .scrollbar then
      scrollbarStates.contains word || ["enabled", "disabled", "hover", "active"].contains word
    else if place.stops.contains .transition then
      word == "only-child" || userActions.contains word
    else if place.stops.contains .other then userActions.contains word
    else !scrollbarStates.contains word
  if fits then some (.pseudoClass name) else none

def pseudoElement? (place : Place) (name : String) : Option (Part × Place) :=
  let word := String.ofList (Text.lower name.toList)
  if place.allowsElement &&
      (!place.stops.contains .slotted || slottableElements.contains word) then
    some (.pseudoElement name, place.stopBy (stopOf? word))
  else none

def attributeFlag? : List Component → Option (Option Char)
  | [] => some none
  | [.token (.ident f)] =>
    match Text.lower f.toList with
    | ['i'] => some (some 'i')
    | ['s'] => some (some 's')
    | _ => none
  | _ => none

def attributeValue? (sign : Option Char) : List Component → Option AttributeTest
  | .token (.ident v) :: rest => (attributeFlag? rest).map (⟨sign, v, ·⟩)
  | .token (.string v) :: rest => (attributeFlag? rest).map (⟨sign, v, ·⟩)
  | _ => none

def attributeTest? : List Component → Option (Option AttributeTest)
  | [] => some none
  | .token (.delim '=') :: rest => (attributeValue? none rest).map some
  | .token (.matching sign) :: rest => (attributeValue? (some sign) rest).map some
  | _ => none

/-- A name after the bar of its namespace; an asterisk stands for all names. -/
def localName? : List Component → Option (Option String × List Component)
  | .token (.ident n) :: rest => some (some n, rest)
  | .token (.delim '*') :: rest => some (none, rest)
  | _ => none

def qualifiedName? :
    List Component → Option (Option Namespace × Option String × List Component)
  | .token (.ident short) :: .token (.delim '|') :: rest =>
    (localName? rest).map (some (.named short), ·)
  | .token (.delim '*') :: .token (.delim '|') :: rest => (localName? rest).map (some .any, ·)
  | .token (.delim '|') :: rest => (localName? rest).map (some .empty, ·)
  | cs => (localName? cs).map (none, ·)

/-- An attribute is in no namespace unless it names one. -/
def attribute? (inside : List Component) : Option Part :=
  match qualifiedName? (inside.dropWhile Component.isBlank) with
  | some (space, some n, rest) =>
    let space := if space = some .empty then none else space
    (attributeTest? (Component.solid rest)).map (.attribute space n)
  | _ => none

/-- The name of an element at the head of a compound, if it has one. -/
def type? (place : Place) (cs : List Component) : Option (List Part × List Component) :=
  let named : Bool :=
    match cs with
    | .token (.ident _) :: _ => true
    | .token (.delim c) :: _ => c == '*' || c == '|'
    | _ => false
  if named then
    match place.isStopped, qualifiedName? cs with
    | false, some (space, some n, rest) => some ([.element space n], rest)
    | false, some (space, none, rest) => some ([.universal space], rest)
    | _, _ => none
  else some ([], cs)

def endsCompound : List Component → Bool
  | [] => true
  | .token (.blank _) :: _ => true
  | .token (.delim d) :: _ => (Combinator.ofChar? d).isSome
  | _ => false

def combinator? (cs : List Component) : Option (Combinator × List Component) :=
  match cs.dropWhile Component.isBlank with
  | [] => none
  | .token (.delim d) :: rest =>
    match Combinator.ofChar? d with
    | some c => some (c, rest)
    | none => some (.descendant, .token (.delim d) :: rest)
  | rest => some (.descendant, rest)

def isName : Component → Bool
  | .token (.ident _) => true
  | _ => false

def isTransitionPart : List Component → Bool
  | [] => true
  | .token (.delim '.') :: .token (.ident _) :: rest => isTransitionPart rest
  | _ => false

/-- The arguments of a pseudo-element that are no selectors; an unknown one takes all. -/
def elementArguments? (word : String) (inside : List Component) : Option (List Component) :=
  let names := Component.solid inside
  let fits : Bool :=
    if word == "part" then !names.isEmpty && names.all isName
    else if word == "picker" then names.length == 1 && names.all isName
    else if transitionElements.contains word then
      match names with
      | .token (.ident _) :: rest => isTransitionPart rest
      | .token (.delim '*') :: rest => isTransitionPart rest
      | _ => !names.isEmpty && isTransitionPart names
    else !Component.anyBroken inside
  if fits then some inside else none

/-- The arguments of a pseudo-class that are no selectors; an unknown one takes all. Languages are
written as names. -/
def classArguments? (word : String) (inside : List Component) : Option (List Component) :=
  match word with
  | "lang" =>
    let language? : Reader Component := fun cs =>
      match next? cs with
      | some (.token (.ident n), rest) => some (.token (.ident n), rest)
      | some (.token (.string s), rest) => some (.token (.ident s), rest)
      | _ => none
    (language?.list? inside).map fun names =>
      (names.map ([·])).intersperse [.token .comma, .token (.blank " ")] |>.flatten
  | "dir" => (Reader.whole? (keyword? ["ltr", "rtl"]) inside).map fun _ => inside
  | "active-view-transition-type" => (word?.list? inside).map fun _ => inside
  | _ => if Component.anyBroken inside then none else some inside

/-- Pseudo-classes that leave out what they cannot read of their arguments. -/
def forgiving : List String := ["is", "where", "-webkit-any", "-moz-any"]

/-- Pseudo-classes that count siblings; the first two may say which ones. -/
def counts : List String :=
  ["nth-child", "nth-last-child", "nth-of-type", "nth-last-of-type", "nth-col", "nth-last-col"]

mutual

def classCall? : Nat → Place → String → List Component → Option Part
  | 0, _, _, _ => none
  | fuel + 1, place, name, inside =>
    let word := String.ofList (Text.lower name.toList)
    if forgiving.contains word then
      some (.among (":" ++ word) (readable fuel false place.inside (splitCommas inside)))
    else if word == "has" then
      some (.among ":has" (readable fuel true place (splitCommas inside)))
    else if word == "not" then
      (readAll? fuel false place.inside (splitCommas inside)).map (.among ":not")
    else if place.isStopped then none
    else if word == "host" then
      (selector? fuel false place.insideCompound inside).map fun s => .among ":host" [s]
    else if counts.contains word then
      (Nth.read? inside).bind fun (count, rest) =>
        match next? rest with
        | none => some (.nth word count [])
        | some (c, rest) =>
          if c.isWord "of" && (counts.take 2).contains word then
            (readAll? fuel false place.inside (splitCommas rest)).map (.nth word count)
          else none
    else (classArguments? word inside).map (.call false name)

def elementCall? : Nat → Place → String → List Component → Option (Part × Place)
  | 0, _, _, _ => none
  | fuel + 1, place, name, inside =>
    let word := String.ofList (Text.lower name.toList)
    if !place.allowsElement then none
    else if word == "slotted" then
      if place.isStopped then none
      else (selector? fuel false place.insideCompound inside).map fun s =>
        (.among "::slotted" [s], place.stopBy (some .slotted))
    else if word == "part" then
      if place.isStopped then none
      else (elementArguments? word inside).map fun arguments =>
        (.call true name arguments, place.stopBy (some .shadowPart))
    else if place.stops.contains .slotted then none
    else if word == "cue" || word == "cue-region" then
      (selector? fuel false ⟨[], true, true⟩ inside).map fun s =>
        (.among ("::" ++ word) [s], place.stopBy (some .other))
    else
      let stop : Option Stop :=
        if transitionElements.contains word then some .transition
        else if word == "picker" then some .other
        else none
      (elementArguments? word inside).map fun arguments =>
        (.call true name arguments, place.stopBy stop)

def simple? : Nat → Place → List Component → Option (Part × Place × List Component)
  | 0, _, _ => none
  | fuel + 1, place, cs =>
    let plain (p : Option Part) (rest : List Component) : Option (Part × Place × List Component) :=
      if place.isStopped then none else p.map (·, place, rest)
    match cs with
    | .token (.hash n) :: rest =>
      plain (if Token.startsName n.toList then some (.id n) else none) rest
    | .token (.delim '.') :: .token (.ident n) :: rest => plain (some (.className n)) rest
    | .block .square inside :: rest => plain (attribute? inside) rest
    | .token (.delim '&') :: rest => some (.parent, place, rest)
    | .token .colon :: .token .colon :: .token (.ident n) :: rest =>
      (pseudoElement? place n).map fun (p, place) => (p, place, rest)
    | .token .colon :: .token .colon :: .function n inside :: rest =>
      (elementCall? fuel place n inside).map fun (p, place) => (p, place, rest)
    | .token .colon :: .token (.ident n) :: rest =>
      if oldElements.contains (String.ofList (Text.lower n.toList)) then
        (pseudoElement? place n).map fun (p, place) => (p, place, rest)
      else (pseudoClass? place n).map (·, place, rest)
    | .token .colon :: .function n inside :: rest =>
      if oldElements.contains (String.ofList (Text.lower n.toList)) then
        (elementCall? fuel place n inside).map fun (p, place) => (p, place, rest)
      else (classCall? fuel place n inside).map (·, place, rest)
    | _ => none

def simples? : Nat → Place → List Component → Option (List Part × Place × List Component)
  | 0, _, _ => none
  | fuel + 1, place, cs =>
    if endsCompound cs then some ([], place, cs)
    else do
      let (p, place, rest) ← simple? fuel place cs
      let (ps, place, rest) ← simples? fuel place rest
      some (p :: ps, place, rest)

/-- The compounds of a selector from one of them on. None follows one that is stopped. -/
def compounds? : Nat → Place → List Component → Option (List Part)
  | 0, _, _ => none
  | fuel + 1, place, cs => do
    let cs := cs.dropWhile Component.isBlank
    let (nested, cs) : List Part × List Component :=
      match cs with
      | .token (.delim '&') :: rest => ([.parent], rest)
      | _ => ([], cs)
    let (named, cs) ← type? place cs
    let (simples, after, rest) ← simples? fuel place cs
    let parts := nested ++ named ++ simples
    if parts.isEmpty then none
    else
      match combinator? rest with
      | none => some parts
      | some (c, rest) =>
        if after.isStopped || !place.combinators then none
        else (compounds? fuel after rest).map fun more => parts ++ .combinator c :: more

/-- Every selector of a list; one that cannot be read spoils it. -/
def readAll? : Nat → Bool → Place → List (List Component) → Option (List Selector)
  | 0, _, _, _ => none
  | _ + 1, _, _, [] => some []
  | fuel + 1, relative, place, cs :: rest => do
    let s ← selector? fuel relative place cs
    let more ← readAll? fuel relative place rest
    some (s :: more)

def readable : Nat → Bool → Place → List (List Component) → List Selector
  | 0, _, _, _ => []
  | _ + 1, _, _, [] => []
  | fuel + 1, relative, place, cs :: rest =>
    (selector? fuel relative place cs).toList ++ readable fuel relative place rest

/-- A selector; a `relative` one may begin with a combinator. -/
def selector? : Nat → Bool → Place → List Component → Option Selector
  | 0, _, _, _ => none
  | fuel + 1, relative, place, cs =>
    match relative, cs.dropWhile Component.isBlank with
    | true, .token (.delim d) :: rest =>
      match Combinator.ofChar? d with
      | some c => (compounds? fuel place rest).map (.leading c :: ·)
      | none => compounds? fuel place (.token (.delim d) :: rest)
    | _, cs => compounds? fuel place cs

end

def isComment : Component → Bool
  | .token (.comment _) => true
  | _ => false

mutual

/-- Without comments, which do not part words here. -/
def withoutComments : Component → Component
  | .token t => .token t
  | .function n inside => .function n (dropComments inside)
  | .block b inside => .block b (dropComments inside)

def dropComments : List Component → List Component
  | [] => []
  | c :: cs => if isComment c then dropComments cs else withoutComments c :: dropComments cs

end

/-- The selectors of a rule; `nested` ones may begin with a combinator. -/
def list? (nested : Bool) (prelude : List Component) : Option (List Selector) :=
  let cs := dropComments prelude
  readAll? (8 * Component.count cs + 8) nested ⟨[], true, true⟩ (splitCommas cs)

end Selector

end SvgPage.Css

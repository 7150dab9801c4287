import SvgPage.Css.Value

/-!
# Declarations

A declaration is a name, a colon and a value, which may end in `!important`. A list of declarations
is written with the important ones last, so that a reader who lets later ones win obeys them.
-/

namespace SvgPage.Css

structure Declaration where
  name : String
  value : List Char
  important : Bool
  deriving DecidableEq, Repr

def splitAt? (p : Component → Bool) : List Component → Option (List Component × List Component)
  | [] => none
  | c :: cs =>
    if p c then some ([], cs)
    else (splitAt? p cs).map fun (before, rest) => (c :: before, rest)

def isSemicolon : Component → Bool
  | .token .semicolon => true
  | _ => false

def isBang : Component → Bool
  | .token (.delim '!') => true
  | _ => false

def isCurly : Component → Bool
  | .block .curly _ => true
  | _ => false

def untilSemicolon (cs : List Component) : List Component × List Component :=
  (splitAt? isSemicolon cs).getD (cs, [])

namespace Declaration

/-- Names that belong to the author may hold anything, also nothing. -/
def isCustom (name : String) : Bool := (Text.after? ['-', '-'] name.toList).isSome

/-- Names are known without regard to case, except an author's own. -/
def canonicalName (name : String) : String :=
  if isCustom name then name else String.ofList (Text.lower name.toList)

/-- The value before an exclamation mark; only the word `important` may follow it. -/
def splitImportant? (cs : List Component) : Option (List Component × Bool) :=
  match splitAt? isBang cs with
  | none => some (cs, false)
  | some (value, rest) =>
    match Component.solid rest with
    | [c] => if c.isWord "important" then some (value, true) else none
    | _ => none

/-- Properties whose value may be an empty list. -/
def isList (name : String) : Bool := ["mask", "filter"].contains name

def isSound (name : String) (value : List Component) : Bool :=
  !Component.anyBroken value &&
    (isCustom name || (isList name || !isDone value) && !value.any isCurly)

def read? (name : String) (cs : List Component) : Option Declaration :=
  match cs.dropWhile Component.isBlank with
  | .token .colon :: body => do
    let (value, important) ← splitImportant? body
    let name := canonicalName name
    if isSound name value then
      (valueText? name value).map fun text => ⟨name, text, important⟩
    else none
  | _ => none

def text (d : Declaration) : List Char :=
  identText d.name ++ ':' :: ' ' :: d.value ++ (if d.important then " !important".toList else [])

def listText (ds : List Declaration) : List Char :=
  let (last, first) := ds.partition (·.important)
  Text.join [';', ' '] ((first ++ last).map text)

/-- Declarations in the order given, one on a line. -/
def blockText (ds : List Declaration) : List Char :=
  ds.flatMap (fun d => "\n  ".toList ++ d.text ++ [';']) ++ ['\n']

def isFiller : Component → Bool
  | .token .semicolon => true
  | .token (.closing .curly) => true
  | c => c.isBlank

def listWithin? : Nat → List Component → Option (List Declaration)
  | 0, _ => none
  | fuel + 1, cs =>
    match cs.dropWhile isFiller with
    | [] => some []
    | .token (.ident name) :: rest => do
      let (chunk, rest) := untilSemicolon rest
      let d ← read? name chunk
      let more ← listWithin? fuel rest
      some (d :: more)
    | _ => none

def list? (cs : List Char) : Option (List Declaration) :=
  let components := Component.ofText cs
  listWithin? (components.length + 1) components

end Declaration

end SvgPage.Css

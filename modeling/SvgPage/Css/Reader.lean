import SvgPage.Css.Component

/-!
# Reading component values

A reader takes something from the front of a list of components and returns what is left. White
space and comments before a component are passed over.
-/

namespace SvgPage.Css

abbrev Reader (α : Type) := List Component → Option (α × List Component)

/-- The first component that is not white space or a comment. -/
def next? (cs : List Component) : Option (Component × List Component) :=
  match cs.dropWhile Component.isBlank with
  | [] => none
  | c :: rest => some (c, rest)

def isDone (cs : List Component) : Bool := cs.all Component.isBlank

def word? : Reader String := fun cs =>
  match next? cs with
  | some (.token (.ident n), rest) => some (String.ofList (Text.lower n.toList), rest)
  | _ => none

def keyword? (words : List String) : Reader String := fun cs =>
  (word? cs).bind fun (w, rest) => if words.contains w then some (w, rest) else none

def token? (t : Token) : Reader Unit := fun cs =>
  match next? cs with
  | some (.token u, rest) => if u = t then some ((), rest) else none
  | _ => none

def comma? : Reader Unit := token? .comma

def slash? : Reader Unit := token? (.delim '/')

namespace Reader

def whole? (r : Reader α) (cs : List Component) : Option α :=
  (r cs).bind fun (a, rest) => if isDone rest then some a else none

def orElse (r : Reader α) (other : α) (cs : List Component) : α × List Component :=
  (r cs).getD (other, cs)

def map (f : α → β) (r : Reader α) : Reader β := fun cs =>
  (r cs).map fun (a, rest) => (f a, rest)

def first (rs : List (Reader α)) : Reader α := fun cs => rs.findSome? fun r => r cs

/-- As many as there are, each of which takes something away. -/
def manyWithin (r : Reader α) : Nat → List Component → List α × List Component
  | 0, cs => ([], cs)
  | fuel + 1, cs =>
    match r cs with
    | none => ([], cs)
    | some (a, rest) =>
      let (more, rest) := manyWithin r fuel rest
      (a :: more, rest)

def many (r : Reader α) (cs : List Component) : List α × List Component :=
  manyWithin r cs.length cs

/-- A function of a given name with contents that are read in full. -/
def inFunction (name : String) (r : Reader α) : Reader α := fun cs =>
  match next? cs with
  | some (.function n inside, rest) =>
    if Text.lower n.toList = name.toList then (whole? r inside).map (·, rest) else none
  | _ => none

end Reader

def isComma : Component → Bool
  | .token .comma => true
  | _ => false

def splitCommas : List Component → List (List Component)
  | [] => [[]]
  | c :: cs =>
    if isComma c then [] :: splitCommas cs
    else
      match splitCommas cs with
      | [] => [[c]]
      | part :: rest => (c :: part) :: rest

def Reader.list? (r : Reader α) (cs : List Component) : Option (List α) :=
  (splitCommas cs).mapM (Reader.whole? r)

def reference? : Reader String := fun cs =>
  match next? cs with
  | some (.token (.url u), rest) => some (u, rest)
  | some (.function name inside, rest) =>
    match Text.lower name.toList == "url".toList, Component.solid inside with
    | true, [.token (.string u)] => some (u, rest)
    | _, _ => none
  | _ => none

end SvgPage.Css

import SvgPage.Paint.Definitions

/-!
# Fill and stroke

A paint is a colour or a gradient; no paint at all is the absence of one. A paint value is `none`,
a reference to a gradient, a colour, or a word that passes on what is inherited.
-/

namespace SvgPage

inductive Paint (α : Type) where
  | solid (c : Color α)
  | gradient (g : Gradient α)
  deriving DecidableEq, Repr

namespace Reference

def isReference (cs : List Char) : Bool := (Text.after? "url(".toList (Text.lower cs)).isSome

def id? (cs : List Char) : Option String :=
  let cs := Text.trim cs
  if isReference cs then
    match Text.splitFirst? (· == ')') (cs.drop 4) with
    | none => none
    | some (inside, _) =>
      match Text.unquote (Text.trim inside) with
      | '#' :: c :: rest => some (String.ofList (c :: rest))
      | _ => none
  else none

end Reference

namespace Paint

def resolve (defs : Definitions Float) (tag property : String) (raw : Option String)
    (inherited : Option (Paint Float)) (current : Color Float) :
    Except Problem (Option (Paint Float)) :=
  match raw.map fun s => Text.trim s.toList with
  | none => .ok inherited
  | some value =>
    let invalid : Problem := .unsupportedAttribute tag property (String.ofList value)
    if value = "none".toList then .ok none
    else if value.isEmpty || value == "inherit".toList then .ok inherited
    else if Reference.isReference value then
      match Reference.id? value with
      | none => .error invalid
      | some id => (defs.gradient tag id).map fun g => some (.gradient g)
    else if Text.sameIgnoringCase value "currentcolor".toList then .ok (some (.solid current))
    else
      match Color.read? value with
      | some c => .ok (some (.solid c))
      | none => .error invalid

end Paint

end SvgPage

import SvgPage.Shelf
import SvgPage.Text.Chars

/-!
# Declarations as pairs of text

A tolerant reading of `name: value; name: value`: a semicolon inside quotes or round brackets does
not part declarations, and a part without a name or a value is skipped.
-/

namespace SvgPage

/-- Property values by name. -/
abbrev Properties := Shelf String

namespace Properties

/-- Whether a semicolon parts declarations at some place: the open quote and the open brackets. -/
structure Nesting where
  quote : Option Char
  depth : Nat
  deriving DecidableEq, Repr

def Nesting.outside : Nesting := ⟨none, 0⟩

def Nesting.after (n : Nesting) (c : Char) : Nesting :=
  match n.quote with
  | some q => if c = q then { n with quote := none } else n
  | none =>
    if c = '"' ∨ c = '\'' then { n with quote := some c }
    else if c = '(' then { n with depth := n.depth + 1 }
    else if c = ')' then { n with depth := n.depth - 1 }
    else n

def chunks (n : Nesting) : List Char → List (List Char)
  | [] => [[]]
  | c :: cs =>
    if c = ';' ∧ n = .outside then [] :: chunks n cs
    else
      match chunks (n.after c) cs with
      | [] => [[c]]
      | chunk :: rest => (c :: chunk) :: rest

/-- A value without its mark of importance. -/
def dropImportant (value : List Char) : List Char :=
  match Text.beforeLast? "!important".toList (Text.lower value) with
  | some before => Text.dropTail Text.isBlank (value.take before.length)
  | none => value

def declaration? (chunk : List Char) : Option (String × String) :=
  (Text.splitFirst? (· == ':') chunk).bind fun (name, value) =>
    let name := Text.lower (Text.trim name)
    let value := dropImportant (Text.trim value)
    if name.isEmpty || value.isEmpty then none else some (String.ofList name, String.ofList value)

def split (cs : List Char) : List (String × String) := (chunks .outside cs).filterMap declaration?

end Properties

end SvgPage

import SvgPage.Css.Declaration
import SvgPage.Style.Declarations

/-!
# The cascade

The properties of an element come from its presentation attributes, then from its classes in the
order in which it lists them, then from its own style. Later sources win.
-/

namespace SvgPage

def presentationNames : List String :=
  ["clip-path", "clip-rule", "color", "fill", "fill-opacity", "fill-rule", "filter", "font-family",
    "font-size", "font-style", "font-weight", "mask", "mix-blend-mode", "opacity", "stop-color",
    "stop-opacity", "stroke", "stroke-dasharray", "stroke-dashoffset", "stroke-linecap",
    "stroke-linejoin", "stroke-miterlimit", "stroke-opacity", "stroke-width"]

/-- Properties by class name. -/
structure ClassTable where
  classes : Shelf Properties := []
  deriving DecidableEq, Repr

namespace ClassTable

def empty : ClassTable := {}

def size (t : ClassTable) : Nat := t.classes.length

def get? (t : ClassTable) (name : String) : Option Properties := Shelf.get? t.classes name

/-- Adds properties to a class; of two values for a property the later one stays. -/
def merge (t : ClassTable) (name : String) (ps : Properties) : ClassTable :=
  ⟨Shelf.update name [] (Shelf.insertAll · ps) t.classes⟩

end ClassTable

namespace Properties

/-- The declarations of a style attribute, in their canonical text where all of them can be read. -/
def ofStyle (cs : List Char) : List (String × String) :=
  match Css.Declaration.list? cs with
  | some ds => split (Css.Declaration.listText ds)
  | none => split cs

def ofPresentation (attributes : List (String × String)) : List (String × String) :=
  (attributes.filter fun a => presentationNames.contains a.1).map fun a =>
    (a.1, String.ofList (Text.trim a.2.toList))

def ofClasses (t : ClassTable) (names : String) : List (String × String) :=
  (Text.fields Text.isBlank names.toList).flatMap fun name =>
    (t.get? (String.ofList name)).getD []

def resolve (presentation : List (String × String)) (classNames : Option String) (t : ClassTable)
    (style : Option String) : Properties :=
  Shelf.ofList
    (ofPresentation presentation ++ ofClasses t (classNames.getD "") ++
      ((style.map fun s => ofStyle s.toList).getD []))

end Properties

end SvgPage

import SvgPage.Problem
import SvgPage.Shelf
import SvgPage.Type.Font

/-!
# The fonts of a document

Fonts are kept by family, weight and style, each in the order of registration, so that the first
one registered is well defined. A request names a list of families; a weight or style that it does
not name is that of the first registered face.
-/

namespace SvgPage

def genericFamilies : List String :=
  ["serif", "sans-serif", "monospace", "cursive", "fantasy", "system-ui"]

/-- What is asked of type, inherited one axis at a time. -/
structure TextAttributes where
  family : Option String
  weight : Option String
  style : Option String
  size : Float

namespace TextAttributes

def initial (size : Float) : TextAttributes := ⟨none, none, none, size⟩

/-- The attributes of an inner element: what it sets, else what it inherits. -/
def descend (outer : TextAttributes) (family weight style : Option String) (size : Option Float) :
    TextAttributes :=
  { family := family.or outer.family
    weight := weight.or outer.weight
    style := style.or outer.style
    size := size.getD outer.size }

end TextAttributes

inductive Miss where
  | family
  | weight
  | style
  deriving DecidableEq, Repr

structure FontTable where
  families : Shelf (Shelf (Shelf Font)) := []

namespace FontTable

def empty : FontTable := {}

def isEmpty (t : FontTable) : Bool := t.families.isEmpty

def normalFamily (s : String) : String :=
  String.ofList (Text.lower (Text.trim (Text.unquote (Text.trim s.toList))))

/-- The two weights with names have numbers too. -/
def normalWeight (s : String) : String :=
  match String.ofList (Text.lower (Text.trim s.toList)) with
  | "normal" => "400"
  | "bold" => "700"
  | other => other

def normalStyle (s : String) : String := String.ofList (Text.lower (Text.trim s.toList))

/-- Registers a face; the same triple again replaces its font. -/
def insert (t : FontTable) (family weight style : String) (font : Font) : FontTable :=
  ⟨Shelf.update (normalFamily family) []
    (Shelf.update (normalWeight weight) []
      (Shelf.update (normalStyle style) font (fun _ => font))) t.families⟩

/-- The value at a requested key, or the first one where none is requested. -/
def choose {β : Type} (shelf : Shelf β) : Option String → Option β
  | some key => Shelf.get? shelf key
  | none => shelf.head?.map (·.2)

def lookup (t : FontTable) (family : String) (weight style : Option String) :
    Except Miss Font := do
  let weights ← (Shelf.get? t.families (normalFamily family)).elim (.error .family) .ok
  let styles ← (choose weights (weight.map normalWeight)).elim (.error .weight) .ok
  (choose styles (style.map normalStyle)).elim (.error .style) .ok

def familyList (s : String) : List String :=
  ((Text.pieces (· == ',') s.toList).map fun name =>
    String.ofList (Text.trim (Text.unquote (Text.trim name)))).filter (· != "")

def isGeneric (family : String) : Bool :=
  genericFamilies.contains (String.ofList (Text.lower family.toList))

/-- Tries families from left to right, and keeps the first miss. -/
def search (t : FontTable) (weight style : Option String) :
    List String → Option (String × Miss) → Except (Option (String × Miss)) Font
  | [], miss => .error miss
  | family :: rest, miss =>
    if isGeneric family then .ok Font.helvetica
    else
      match t.lookup family weight style with
      | .ok font => .ok font
      | .error axis => t.search weight style rest (miss.or (some (family, axis)))

/-- The problem of a family that is not there, naming the axes up to the one that failed. -/
def missing (tag : String) (wanted : TextAttributes) (family : String) (axis : Miss) : Problem :=
  .unresolvedFont tag family
    (match axis with
      | .family => none
      | _ => wanted.weight)
    (match axis with
      | .style => wanted.style
      | _ => none)

/-- The font that some attributes ask for. Without a family it is the built-in one; a family that
is not there is a problem under the strict policy, else the built-in font takes its place. -/
def resolve (t : FontTable) (tag : String) (wanted : TextAttributes) (strict : Bool) :
    Except Problem Font :=
  match wanted.family with
  | none => .ok Font.helvetica
  | some list =>
    match t.search wanted.weight wanted.style (familyList list) none with
    | .ok font => .ok font
    | .error miss =>
      if strict then
        let (family, axis) := miss.getD (list, .family)
        .error (missing tag wanted family axis)
      else .ok Font.helvetica

end FontTable

end SvgPage

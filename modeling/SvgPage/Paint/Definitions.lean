import SvgPage.Paint.Gradient
import SvgPage.Problem

/-!
# Definitions

Gradients, clip paths, masks and filters are looked up by id. Ids are unique, and a look-up of an
id that is unknown or names another kind of thing is a problem, never a silent miss.
-/

namespace SvgPage

structure ClipPath (α : Type) where
  ops : List (PathOp α)
  units : Units
  rule : Option FillRule
  deriving DecidableEq, Repr

/-- The place and size of a mask or filter, as far as they are given. -/
structure Region (α : Type) where
  x : Option (Coord α)
  y : Option (Coord α)
  width : Option (Coord α)
  height : Option (Coord α)
  deriving DecidableEq, Repr

structure Mask (α : Type) where
  region : Region α
  units : Units
  contentUnits : Units
  ops : List (PathOp α)
  deriving DecidableEq, Repr

/-- A filter without effects, the only kind that is accepted. -/
structure Filter (α : Type) where
  region : Region α
  units : Units
  primitiveUnits : Units
  deriving DecidableEq, Repr

inductive Definition (α : Type) where
  | gradient (g : Gradient α)
  | clipPath (c : ClipPath α)
  | mask (m : Mask α)
  | filter (f : Filter α)
  deriving DecidableEq, Repr

def Definition.kind {α : Type} : Definition α → DefinitionKind
  | gradient _ => .gradient
  | clipPath _ => .clipPath
  | mask _ => .mask
  | filter _ => .filter

/-- The clip in the user space of the node that refers to it. -/
def ClipPath.opsFor {α : Type} [Scalar α] (c : ClipPath α) (box : Option (Rect α)) :
    List (PathOp α) :=
  match c.units, box with
  | .boundingBox, some b => Path.transform b.ofUnitSquare c.ops
  | _, _ => c.ops

structure Definitions (α : Type) where
  entries : List (String × Definition α) := []
  deriving DecidableEq, Repr

namespace Definitions

variable {α : Type}

def empty : Definitions α := {}

def size (ds : Definitions α) : Nat := ds.entries.length

def get? (ds : Definitions α) (id : String) : Option (Definition α) :=
  (ds.entries.find? fun entry => entry.1 == id).map (·.2)

def contains (ds : Definitions α) (id : String) : Bool := (ds.get? id).isSome

def insert (ds : Definitions α) (tag id : String) (d : Definition α) :
    Except Problem (Definitions α) :=
  if ds.contains id then .error (.duplicateDefinition tag id) else .ok ⟨ds.entries ++ [(id, d)]⟩

def gradient (ds : Definitions α) (tag id : String) : Except Problem (Gradient α) :=
  match ds.get? id with
  | some (.gradient g) => .ok g
  | _ => .error (.unresolvedReference tag id .gradient)

def clipPath (ds : Definitions α) (tag id : String) : Except Problem (ClipPath α) :=
  match ds.get? id with
  | some (.clipPath c) => .ok c
  | _ => .error (.unresolvedReference tag id .clipPath)

def mask (ds : Definitions α) (tag id : String) : Except Problem (Mask α) :=
  match ds.get? id with
  | some (.mask m) => .ok m
  | _ => .error (.unresolvedReference tag id .mask)

def filter (ds : Definitions α) (tag id : String) : Except Problem (Filter α) :=
  match ds.get? id with
  | some (.filter f) => .ok f
  | _ => .error (.unresolvedReference tag id .filter)

end Definitions

end SvgPage

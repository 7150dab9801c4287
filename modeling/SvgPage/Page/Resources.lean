import SvgPage.Page.Operator

/-!
# Page resources

Graphics states, images, fonts and shadings are allocated on first use. A table knows an entry by a
key: a request with the key of an entry gives the name of that entry, so equal requests share a
name. Numbers count as equal when they agree in thousandths.
-/

namespace SvgPage

/-- A number in thousandths, as a key. Numbers that are not finite all count as zero. -/
def milli (x : Float) : Int64 := if x.isFinite then (x * 1000).round.toInt64 else 0

/-- Opacities and blend mode; what is absent stays as it is. -/
structure GraphicsState where
  fillOpacity : Option Float
  strokeOpacity : Option Float
  blendMode : Option BlendMode
  deriving DecidableEq, Repr

namespace GraphicsState

def isEmpty (s : GraphicsState) : Bool :=
  s.fillOpacity.isNone && s.strokeOpacity.isNone && s.blendMode.isNone

abbrev Key := Option Int64 × Option Int64 × Option BlendMode

def key (s : GraphicsState) : Key :=
  (s.fillOpacity.map milli, s.strokeOpacity.map milli, s.blendMode)

end GraphicsState

structure ShadingStop (α : Type) where
  offset : α
  color : Color α
  deriving DecidableEq, Repr

/-- Colours along a ramp, continued beyond both ends. -/
structure Shading where
  ramp : Ramp Float
  stops : List (ShadingStop Float)
  deriving DecidableEq, Repr

namespace Shading

/-- The shading of a placed gradient. The opacity of stops is not part of it. -/
def ofGradient (ramp : Ramp Float) (stops : List (Stop Float)) : Shading :=
  ⟨ramp, stops.map fun s => ⟨s.offset, s.color⟩⟩

abbrev Key := List Int64

/-- A mark for the kind of ramp, its coordinates, then offset and colour of each stop in one row. -/
def key (s : Shading) : Key :=
  (if s.ramp.isRadial then 2 else 1) ::
    (s.ramp.coords ++ s.stops.flatMap fun t => [t.offset, t.color.r, t.color.g, t.color.b]).map
      milli

end Shading

/-- How the entries of a table are named and told apart. -/
structure Naming (κ β : Type) where
  label : String
  key : β → κ

namespace Naming

def states : Naming GraphicsState.Key GraphicsState := ⟨"GS", GraphicsState.key⟩
def images : Naming ResourceKey ImageHandle := ⟨"Im", ImageHandle.identity⟩
def fonts : Naming ResourceKey Font := ⟨"F", Font.identity⟩
def shadings : Naming Shading.Key Shading := ⟨"Sh", Shading.key⟩

end Naming

/-- Named entries in the order of allocation, and the names by key. -/
structure Table (κ β : Type) where
  entries : List (String × β)
  names : List (κ × String)

namespace Table

variable {κ β : Type} [DecidableEq κ]

def empty : Table κ β := ⟨[], []⟩

/-- The name of the entry with the key of the given one, which is appended under the next number if
there is none. -/
def allocate (n : Naming κ β) (b : β) (t : Table κ β) : String × Table κ β :=
  match t.names.lookup (n.key b) with
  | some name => (name, t)
  | none =>
    let name := n.label ++ toString t.entries.length
    (name, ⟨t.entries ++ [(name, b)], (n.key b, name) :: t.names⟩)

end Table

/-- What gives names to the resources that a page needs. -/
class Registry (ρ : Type) where
  allocateState : GraphicsState → StateM ρ String
  allocateImage : ImageHandle → StateM ρ String
  allocateFont : Font → StateM ρ String
  allocateShading : Shading → StateM ρ String

structure Resources where
  states : Table GraphicsState.Key GraphicsState
  images : Table ResourceKey ImageHandle
  fonts : Table ResourceKey Font
  shadings : Table Shading.Key Shading

namespace Resources

def empty : Resources := ⟨.empty, .empty, .empty, .empty⟩

instance : Registry Resources where
  allocateState s r :=
    let (name, t) := r.states.allocate .states s
    (name, { r with states := t })
  allocateImage i r :=
    let (name, t) := r.images.allocate .images i
    (name, { r with images := t })
  allocateFont f r :=
    let (name, t) := r.fonts.allocate .fonts f
    (name, { r with fonts := t })
  allocateShading s r :=
    let (name, t) := r.shadings.allocate .shadings s
    (name, { r with shadings := t })

end Resources

end SvgPage

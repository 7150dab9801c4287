/-!
# Values by key

A shelf keeps its keys in the order in which they were first used; the value of a key is the last
one put there.
-/

namespace SvgPage

abbrev Shelf (β : Type) := List (String × β)

namespace Shelf

variable {β : Type}

def get? (shelf : Shelf β) (key : String) : Option β :=
  (shelf.find? fun entry => entry.1 == key).map (·.2)

def keys (shelf : Shelf β) : List String := shelf.map (·.1)

/-- Changes the value of a key, which is appended with a start value if it is new. -/
def update (key : String) (start : β) (f : β → β) : Shelf β → Shelf β
  | [] => [(key, f start)]
  | (k, v) :: rest => if k == key then (k, f v) :: rest else (k, v) :: update key start f rest

def insert (key : String) (value : β) (shelf : Shelf β) : Shelf β :=
  shelf.update key value fun _ => value

def insertAll (shelf : Shelf β) (entries : List (String × β)) : Shelf β :=
  entries.foldl (fun s entry => s.insert entry.1 entry.2) shelf

def ofList (entries : List (String × β)) : Shelf β := insertAll [] entries

end Shelf

end SvgPage

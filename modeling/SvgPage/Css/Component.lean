import SvgPage.Css.Token

/-!
# Component values

Brackets group tokens into trees. A bracket left open is closed by the end of the text; a closing
bracket that matches nothing stays as a token, which no grammar accepts.
-/

namespace SvgPage.Css

inductive Component where
  | token (t : Token)
  | function (name : String) (inside : List Component)
  | block (b : Bracket) (inside : List Component)
  deriving Repr

namespace Component

/-- A group still open: how it began, and its contents in reverse. -/
structure Frame where
  name : Option String
  bracket : Bracket
  inside : List Component

def Frame.close (f : Frame) : Component :=
  match f.name with
  | some n => .function n f.inside.reverse
  | none => .block f.bracket f.inside.reverse

def closeAll : List Component → List Frame → List Component
  | top, [] => top.reverse
  | top, f :: fs => closeAll (({ f with inside := top } : Frame).close :: f.inside) fs

/-- Reads tokens into the innermost group, whose contents come first, in reverse. The frame of an
open group holds the contents of the group around it. -/
def build : List Token → List Component → List Frame → List Component
  | [], top, frames => closeAll top frames
  | .function n :: ts, top, frames => build ts [] (⟨some n, .round, top⟩ :: frames)
  | .opening b :: ts, top, frames => build ts [] (⟨none, b, top⟩ :: frames)
  | .closing b :: ts, top, frames =>
    match frames with
    | f :: fs =>
      if f.bracket = b then build ts (({ f with inside := top } : Frame).close :: f.inside) fs
      else build ts (.token (.closing b) :: top) frames
    | [] => build ts (.token (.closing b) :: top) []
  | t :: ts, top, frames => build ts (.token t :: top) frames

def ofText (cs : List Char) : List Component := build (Token.list cs) [] []

def isBlank : Component → Bool
  | .token (.blank _) => true
  | .token (.comment _) => true
  | _ => false

def solid (cs : List Component) : List Component := cs.filter (!·.isBlank)

/-- Whether a token occurs that no grammar accepts. -/
def isBroken : Component → Bool
  | .token .badString => true
  | .token .badUrl => true
  | .token (.closing _) => true
  | _ => false

mutual

def holdsBroken : Component → Bool
  | .token t => (Component.token t).isBroken
  | .function _ inside => anyBroken inside
  | .block _ inside => anyBroken inside

def anyBroken : List Component → Bool
  | [] => false
  | c :: cs => holdsBroken c || anyBroken cs

end

mutual

/-- How many tokens and groups a component holds, itself included. -/
def weight : Component → Nat
  | .token _ => 1
  | .function _ inside => 1 + count inside
  | .block _ inside => 1 + count inside

def count : List Component → Nat
  | [] => 0
  | c :: cs => weight c + count cs

end

def isWord (word : String) : Component → Bool
  | .token (.ident n) => Text.lower n.toList == word.toList
  | _ => false

end Component

end SvgPage.Css

import SvgPage.Css.Declaration
import SvgPage.Css.Selector

/-!
# Style sheets

A style sheet is read with recovery: a rule or declaration that cannot be read is left out, and
reading goes on after it. Rules for a medium hold rules; of the other at-rules only font faces are
kept. A rule inside a style rule is left out together with the declarations after it.
-/

namespace SvgPage.Css

inductive Rule where
  | style (selectors : List Selector) (declarations : List Declaration)
  | media (rules : List Rule)
  | fontFace (declarations : List Declaration)

namespace Rule

inductive Ending where
  | block (inside : List Component)
  | semicolon
  | text

structure Cut where
  head : List Component
  ending : Ending
  rest : List Component

/-- Cuts at the first block; where asked, a semicolon comes before it. -/
def cut (semicolons : Bool) : List Component → Cut
  | [] => ⟨[], .text, []⟩
  | c :: cs =>
    match c with
    | .block .curly inside => ⟨[], .block inside, cs⟩
    | _ =>
      if semicolons && isSemicolon c then ⟨[], .semicolon, cs⟩
      else
        let more := cut semicolons cs
        { more with head := c :: more.head }

def isWord (word : String) (name : String) : Bool := Text.lower name.toList == word.toList

def isFeature : Component → Bool
  | .block .round inside => !(Component.solid inside).isEmpty && !Component.anyBroken inside
  | _ => false

/-- Conditions joined by one and the same word. -/
def isChain (word : String) : List Component → Bool
  | [c] => isFeature c
  | c :: w :: rest => isFeature c && w.isWord word && isChain word rest
  | [] => false

def isCondition (either : Bool) : List Component → Bool
  | c :: rest =>
    if c.isWord "not" then rest.length == 1 && rest.all isFeature
    else isChain "and" (c :: rest) || (either && isChain "or" (c :: rest))
  | [] => false

def isMediaType : Component → Bool
  | .token (.ident n) => (["not", "only", "and", "or", "layer"].all fun word => !isWord word n)
  | _ => false

/-- A kind of medium with conditions on it. -/
def isTyped : List Component → Bool
  | c :: rest =>
    isMediaType c &&
      match rest with
      | [] => true
      | w :: conditions => w.isWord "and" && isCondition false conditions
  | [] => false

def isQuery (cs : List Component) : Bool :=
  match cs with
  | c :: rest =>
    isCondition true cs || isTyped (if c.isWord "not" || c.isWord "only" then rest else cs)
  | [] => true

def isMediaList (head : List Component) : Bool :=
  (splitCommas (Component.solid head)).all isQuery

/-- The declarations of a style rule. A faulty item takes the declarations before it along; after
an inner rule, declarations no longer belong to the outer one. -/
def bodyWithin : Nat → List Declaration → Bool → List Component → List Declaration
  | 0, ds, _, _ => ds
  | fuel + 1, ds, nested, cs =>
    match cs.dropWhile Declaration.isFiller with
    | [] => ds
    | .token (.atKeyword name) :: rest =>
      let c := cut true rest
      let sound := !isWord "media" name || isMediaList c.head
      bodyWithin fuel (if sound then ds else []) (nested || sound) c.rest
    | first :: rest =>
      let declared : Option (Declaration × List Component) :=
        match first with
        | .token (.ident name) =>
          let (chunk, rest) := untilSemicolon rest
          (Declaration.read? name chunk).map (·, rest)
        | _ => none
      match declared with
      | some (d, rest) => bodyWithin fuel (if nested then ds else ds ++ [d]) nested rest
      | none =>
        let c := cut true (first :: rest)
        match c.ending, Selector.list? true c.head with
        | .block _, some _ => bodyWithin fuel ds true c.rest
        | _, _ => bodyWithin fuel [] nested c.rest

def body (cs : List Component) : List Declaration := bodyWithin (cs.length + 1) [] false cs

/-- A value that is read in full. If it is not read at all it keeps its tokens; if something
follows it there is none. -/
def fullOrKept? (r : Reader (List Char)) (value : List Component) : Option (List Char) :=
  match r value with
  | some (text, rest) => if isDone rest then some text else none
  | none => keptText? value

/-- The family, weight or style of a font face; none when something follows it. -/
def fontFaceValue? (name : String) (value : List Component) : Option (List Char) :=
  match name with
  | "font-family" =>
    match Component.solid value with
    | .token (.ident _) :: _ => familyText? value
    | .token (.string _) :: _ => familyText? value
    | _ => keptText? value
  | "font-weight" => fullOrKept? faceWeight? value
  | "font-style" => fullOrKept? faceStyle? value
  | _ => keptText? value

def fontFaceWithin : Nat → List Component → List Declaration
  | 0, _ => []
  | fuel + 1, cs =>
    match cs.dropWhile Declaration.isFiller with
    | [] => []
    | .token (.atKeyword _) :: rest => fontFaceWithin fuel (cut true rest).rest
    | first :: rest =>
      let (chunk, after) := untilSemicolon rest
      let found : Option Declaration :=
        match first, chunk.dropWhile Component.isBlank with
        | .token (.ident name), .token .colon :: value =>
          if Component.anyBroken value || value.any isBang then none
          else
            let name := Declaration.canonicalName name
            (fontFaceValue? name value).map (⟨name, ·, false⟩)
        | _, _ => none
      found.toList ++ fontFaceWithin fuel after

def fontFaceBody (cs : List Component) : List Declaration := fontFaceWithin (cs.length + 1) cs

def isTopFiller : Component → Bool
  | .token .commentOpen => true
  | .token .commentClose => true
  | c => c.isBlank

/-- The rules of a sheet or, where `inner`, of a rule for a medium. -/
def listWithin : Nat → Bool → List Component → List Rule
  | 0, _, _ => []
  | fuel + 1, inner, cs =>
    match cs.dropWhile (if inner then Declaration.isFiller else isTopFiller) with
    | [] => []
    | .token (.atKeyword name) :: rest =>
      let c := cut true rest
      let found : List Rule :=
        match c.ending with
        | .block inside =>
          if isWord "media" name then
            if isMediaList c.head then [.media (listWithin fuel true inside)] else []
          else if isWord "font-face" name then
            if (Component.solid c.head).isEmpty then [.fontFace (fontFaceBody inside)] else []
          else []
        | _ => []
      found ++ listWithin fuel inner c.rest
    | cs =>
      let c := cut inner cs
      let found : List Rule :=
        match c.ending, Selector.list? false c.head with
        | .block inside, some selectors => [.style selectors (body inside)]
        | _, _ => []
      found ++ listWithin fuel inner c.rest

/-- What follows a statement of the encoding at the head of a sheet. -/
def afterCharset (cs : List Component) : List Component :=
  match cs.dropWhile isTopFiller with
  | .token (.atKeyword name) :: rest =>
    if isWord "charset" name then (untilSemicolon rest).2 else cs
  | _ => cs

def list (cs : List Char) : List Rule :=
  let components := Component.ofText cs
  listWithin (Component.count components + 1) false (afterCharset components)

end Rule

end SvgPage.Css

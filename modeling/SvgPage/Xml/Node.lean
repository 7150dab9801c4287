import SvgPage.Xml.Token

/-!
# Document trees

Tokens are grouped into a tree: tags match, names are resolved to namespaces, references to
characters. Adjacent runs of text are one node; comments and instructions part them.
-/

namespace SvgPage.Xml

/-- A name with the address of its namespace, if it is in one. -/
structure Name where
  space : Option String
  name : String
  deriving DecidableEq, Repr

structure Attribute where
  name : Name
  value : String
  deriving DecidableEq, Repr

structure Head where
  name : Name
  attributes : List Attribute
  deriving DecidableEq, Repr

inductive Node where
  | element (head : Head) (children : List Node)
  | text (content : List Char)
  | comment (content : List Char)
  | instruction

def xmlSpace : String := "http://www.w3.org/XML/1998/namespace"

def xmlnsSpace : String := "http://www.w3.org/2000/xmlns/"

/-- The number in digits of a base, below the end of the character codes' type. -/
def code? (base : Nat) (isDigit : Char → Bool) (cs : List Char) : Option (Nat × List Char) :=
  let value (d : Char) : Nat :=
    if d.isDigit then d.toNat - '0'.toNat
    else if 'a' ≤ d then d.toNat - 'a'.toNat + 10 else d.toNat - 'A'.toNat + 10
  match cs.span isDigit with
  | ([], _) => none
  | (ds, rest) =>
    let n := ds.foldl (fun n d => base * n + value d) 0
    if n < 4294967296 then some (n, rest) else none

def isHexDigit (c : Char) : Bool :=
  c.isDigit || ('a' ≤ c && c ≤ 'f') || ('A' ≤ c && c ≤ 'F')

/-- The character of a code, if a document may hold it. Codes of no character are replaced. -/
def charOfCode? (n : Nat) : Option Char :=
  let c := if n.isValidChar then Char.ofNat n else '\uFFFD'
  if isChar c then some c else none

def reference? (cs : List Char) : Option (Char × List Char) :=
  match cs with
  | '#' :: 'x' :: rest => do
    let (n, rest) ← code? 16 isHexDigit rest
    let c ← charOfCode? n
    (Text.after? [';'] rest).map (c, ·)
  | '#' :: rest => do
    let (n, rest) ← code? 10 Char.isDigit rest
    let c ← charOfCode? n
    (Text.after? [';'] rest).map (c, ·)
  | _ =>
    [("quot;", '"'), ("amp;", '&'), ("apos;", '\''), ("lt;", '<'), ("gt;", '>')].findSome?
      fun (word, c) => (Text.after? word.toList cs).map (c, ·)

/-- Text with its references resolved; what is not a reference goes through a function of the
character and those after it. -/
def resolveWithin? (plain : Char → List Char → List Char) : Nat → List Char → Option (List Char)
  | 0, _ => none
  | _ + 1, [] => some []
  | fuel + 1, c :: cs =>
    if c = '&' then
      (reference? cs).bind fun (r, rest) => (resolveWithin? plain fuel rest).map (r :: ·)
    else (resolveWithin? plain fuel cs).map (plain c cs ++ ·)

/-- A line end is one line feed. -/
def plainText (c : Char) (next : List Char) : List Char :=
  if c = '\r' then if next.head? = some '\n' then [] else ['\n'] else [c]

/-- In an attribute, a line end or tab is a space. -/
def plainValue (c : Char) (next : List Char) : List Char :=
  if c = '\r' ∧ next.head? = some '\n' then []
  else if c = '\r' ∨ c = '\n' ∨ c = '\t' then [' '] else [c]

def resolveText? (cs : List Char) : Option (List Char) :=
  resolveWithin? plainText (cs.length + 1) cs

def resolveValue? (cs : List Char) : Option (List Char) :=
  resolveWithin? plainValue (cs.length + 1) cs

/-- Text without references. -/
def literalText : List Char → List Char
  | [] => []
  | c :: cs => plainText c cs ++ literalText cs

/-- Addresses by short word; the empty word is the default. -/
abbrev Scope := List (String × String)

def Scope.get? (scope : Scope) (word : String) : Option String :=
  (scope.find? fun entry => entry.1 == word).map (·.2)

structure Valued where
  name : QName
  value : String

def valued? (a : RawAttribute) : Option Valued :=
  (resolveValue? a.value).map fun v => ⟨a.name, String.ofList v⟩

/-- Whether a namespace declaration is lawful next to those before it. -/
def mayDeclare (own : Scope) (word address : String) : Bool :=
  if word = "" then address != xmlSpace && address != xmlnsSpace
  else
    address != xmlnsSpace && (word == "xml") == (address == xmlSpace) &&
      (own.get? word).isNone

/-- The declarations among some attributes, in order, and the other attributes. -/
def declarations? : Scope → List Valued → Option (Scope × List Valued)
  | own, [] => some (own, [])
  | own, a :: rest =>
    if a.name.space = "xmlns" ∨ a.name.name = "xmlns" then
      let word := if a.name.space = "xmlns" then a.name.name else ""
      if mayDeclare own word a.value then
        declarations? (if word = "xml" then own else own ++ [(word, a.value)]) rest
      else none
    else (declarations? own rest).map fun (own, others) => (own, a :: others)

/-- The expanded name of an attribute; without a short word it is in no namespace. -/
def attributeName? (scope : Scope) (q : QName) : Option Name :=
  if q.space = "" then some ⟨none, q.name⟩
  else if q.space = "xml" then some ⟨some xmlSpace, q.name⟩
  else (scope.get? q.space).map fun address => ⟨some address, q.name⟩

/-- The expanded name of an element; without a short word it is in the default namespace. The two
words that belong to markup itself are for attributes only. -/
def elementName? (scope : Scope) (q : QName) : Option Name :=
  if q.space = "" then some ⟨scope.get? "", q.name⟩
  else if q.space = "xml" ∨ q.space = "xmlns" then none
  else (scope.get? q.space).map fun address => ⟨some address, q.name⟩

def distinct? : List Attribute → Option (List Attribute)
  | [] => some []
  | a :: rest => if rest.any (·.name == a.name) then none else (distinct? rest).map (a :: ·)

def head? (outer : Scope) (q : QName) (raw : List RawAttribute) : Option (Head × Scope) := do
  let values ← raw.mapM valued?
  let (own, others) ← declarations? [] values
  let scope := own ++ outer
  let name ← elementName? scope q
  let attributes ← others.mapM fun a => (attributeName? scope a.name).map (⟨·, a.value⟩)
  let attributes ← distinct? attributes
  some (⟨name, attributes⟩, scope)

/-- An open element: its name as written, its head, the scope inside, and its contents so far in
reverse. -/
structure Frame where
  written : QName
  head : Head
  scope : Scope
  contents : List Node

def Frame.close (f : Frame) : Node := .element f.head f.contents.reverse

/-- Adds text to the contents, joining it with text right before it. -/
def addText (cs : List Char) : List Node → List Node
  | .text before :: rest => .text (before ++ cs) :: rest
  | contents => .text cs :: contents

def Frame.add (n : Node) (f : Frame) : Frame := { f with contents := n :: f.contents }

/-- The one element at the top, read with a stack of open elements. -/
def build? : List Token → List Frame → Option Node → Option Node
  | [], frames, root => if frames.isEmpty then root else none
  | .opening q raw isEmpty :: ts, frames, root =>
    if frames.isEmpty && root.isSome then none
    else
      let outer := (frames.head?.map Frame.scope).getD []
      match head? outer q raw with
      | none => none
      | some (head, scope) =>
        if isEmpty then
          match frames with
          | f :: fs => build? ts (f.add (.element head []) :: fs) root
          | [] => build? ts [] (some (.element head []))
        else build? ts (⟨q, head, scope, []⟩ :: frames) root
  | .closing q :: ts, f :: fs, root =>
    if q = f.written then
      match fs with
      | outer :: rest => build? ts (outer.add f.close :: rest) root
      | [] => build? ts [] (some f.close)
    else none
  | .closing _ :: _, [], _ => none
  | .text raw :: ts, f :: fs, root =>
    match resolveText? raw with
    | some cs => build? ts ({ f with contents := addText cs f.contents } :: fs) root
    | none => none
  | .text raw :: ts, [], root => if raw.all isSpace then build? ts [] root else none
  | .literal raw :: ts, f :: fs, root =>
    build? ts ({ f with contents := addText (literalText raw) f.contents } :: fs) root
  | .literal _ :: _, [], _ => none
  | .comment cs :: ts, f :: fs, root => build? ts (f.add (.comment cs) :: fs) root
  | .comment _ :: ts, [], root => build? ts [] root
  | .instruction :: ts, f :: fs, root => build? ts (f.add .instruction :: fs) root
  | .instruction :: ts, [], root => build? ts [] root

namespace Node

def read? (cs : List Char) : Option Node := (Token.list? cs).bind fun ts => build? ts [] none

end Node

end SvgPage.Xml

import SvgPage.Text.Chars

/-!
# Markup tokens

A document is a row of tags, runs of text, and notes. Tags carry their attributes as written; the
text of a run still holds its references.
-/

namespace SvgPage.Xml

/-- A name as written, its namespace named by a short word that may be empty. -/
structure QName where
  space : String
  name : String
  deriving DecidableEq, Repr

structure RawAttribute where
  name : QName
  value : List Char
  deriving DecidableEq, Repr

inductive Token where
  | opening (name : QName) (attributes : List RawAttribute) (isEmpty : Bool)
  | closing (name : QName)
  | text (raw : List Char)
  /-- Text without references. -/
  | literal (raw : List Char)
  | comment (content : List Char)
  | instruction
  deriving DecidableEq, Repr

def isSpace (c : Char) : Bool := c == ' ' || c == '\t' || c == '\n' || c == '\r'

def isChar (c : Char) : Bool :=
  if c.toNat < 0x20 then c == '\t' || c == '\n' || c == '\r'
  else c.toNat != 0xFFFE && c.toNat != 0xFFFF

def within (n : Nat) (ranges : List (Nat × Nat)) : Bool := ranges.any fun r => r.1 ≤ n && n ≤ r.2

def isNameStart (c : Char) : Bool :=
  c.isAlpha || c == '_' || c == ':' ||
    within c.toNat
      [(0xC0, 0xD6), (0xD8, 0xF6), (0xF8, 0x2FF), (0x370, 0x37D), (0x37F, 0x1FFF),
        (0x200C, 0x200D), (0x2070, 0x218F), (0x2C00, 0x2FEF), (0x3001, 0xD7FF), (0xF900, 0xFDCF),
        (0xFDF0, 0xFFFD), (0x10000, 0xEFFFF)]

def isNameChar (c : Char) : Bool :=
  isNameStart c || c.isDigit || c == '-' || c == '.' ||
    within c.toNat [(0xB7, 0xB7), (0x300, 0x36F), (0x203F, 0x2040)]

namespace Token

def skip (cs : List Char) : List Char := cs.dropWhile isSpace

/-- A nonempty run of name characters that begins as a name may. -/
def name? (cs : List Char) : Option (String × List Char) :=
  match cs.takeWhile isNameChar with
  | [] => none
  | c :: more =>
    if isNameStart c then some (String.ofList (c :: more), cs.dropWhile isNameChar) else none

def plainName (cs : List Char) : List Char × List Char :=
  cs.span fun c => isNameChar c && c != ':'

/-- A name of one or two parts; only the first may be empty, and then it does not count. -/
def qname? (cs : List Char) : Option (QName × List Char) :=
  let startsWell (part : List Char) : Bool := (part.head?.map isNameStart).getD false
  let (first, rest) := plainName cs
  match rest with
  | ':' :: afterColon =>
    let (second, rest) := plainName afterColon
    if (first.isEmpty || startsWell first) && startsWell second then
      some (⟨String.ofList first, String.ofList second⟩, rest)
    else none
  | _ => if startsWell first then some (⟨"", String.ofList first⟩, rest) else none

/-- The text before a closing mark, and what follows the mark. -/
def upTo? (mark : List Char) : List Char → Option (List Char × List Char)
  | [] => if mark.isEmpty then some ([], []) else none
  | c :: cs =>
    match Text.after? mark (c :: cs) with
    | some rest => some ([], rest)
    | none => (upTo? mark cs).map fun (before, rest) => (c :: before, rest)

/-- As much text as is there before a mark, all of it in allowed characters. -/
def contentUpTo? (mark : String) (cs : List Char) : Option (List Char × List Char) :=
  (upTo? mark.toList cs).bind fun found => if found.1.all isChar then some found else none

def quotedValue? : List Char → Option (List Char × List Char)
  | q :: cs =>
    if q = '"' ∨ q = '\'' then
      match cs.span (· != q) with
      | (value, _ :: rest) =>
        if value.all (fun c => isChar c && c != '<') then some (value, rest) else none
      | (_, []) => none
    else none
  | [] => none

def attribute? (cs : List Char) : Option (RawAttribute × List Char) := do
  let (name, rest) ← qname? cs
  let rest ← Text.after? ['='] (skip rest)
  let (value, rest) ← quotedValue? (skip rest)
  some (⟨name, value⟩, rest)

/-- Attributes up to the end of a tag. White space parts them. -/
def attributesWithin : Nat → List Char → Option ((List RawAttribute × Bool) × List Char)
  | 0, _ => none
  | fuel + 1, cs =>
    match skip cs with
    | '/' :: '>' :: rest => some (([], true), rest)
    | '>' :: rest => some (([], false), rest)
    | start =>
      if (cs.head?.map isSpace).getD false then do
        let (a, rest) ← attribute? start
        let ((more, isEmpty), rest) ← attributesWithin fuel rest
        some ((a :: more, isEmpty), rest)
      else none

def openingTag? (cs : List Char) : Option (Token × List Char) := do
  let (name, rest) ← qname? cs
  let ((attributes, isEmpty), rest) ← attributesWithin (rest.length + 1) rest
  some (.opening name attributes isEmpty, rest)

def closingTag? (cs : List Char) : Option (Token × List Char) := do
  let (name, rest) ← qname? cs
  let rest ← Text.after? ['>'] (skip rest)
  some (.closing name, rest)

/-- A comment holds no two hyphens in a row and does not end in one. -/
def comment? (cs : List Char) : Option (Token × List Char) := do
  let (content, rest) ← contentUpTo? "-->" cs
  if (Text.afterFirst? ['-', '-'] content).isSome || (Text.before? ['-'] content).isSome then none
  else some (.comment content, rest)

def instruction? (cs : List Char) : Option (Token × List Char) := do
  if (Text.after? "xml ".toList cs).isSome then none
  else
    let (_, rest) ← name? cs
    let (_, rest) ← contentUpTo? "?>" (skip rest)
    some (.instruction, rest)

def markup? (cs : List Char) : Option (Token × List Char) :=
  match cs with
  | '!' :: '-' :: '-' :: rest => comment? rest
  | '!' :: rest =>
    (Text.after? "[CDATA[".toList rest).bind fun inside =>
      (contentUpTo? "]]>" inside).map fun (raw, rest) => (.literal raw, rest)
  | '?' :: rest => instruction? rest
  | '/' :: rest => closingTag? rest
  | _ => openingTag? cs

def text? (cs : List Char) : Option (Token × List Char) :=
  let (raw, rest) := cs.span (· != '<')
  if raw.all isChar && (Text.afterFirst? "]]>".toList raw).isNone then some (.text raw, rest)
  else none

def first? : List Char → Option (Token × List Char)
  | '<' :: cs => markup? cs
  | cs => text? cs

def listWithin? : Nat → List Char → Option (List Token)
  | 0, _ => none
  | _ + 1, [] => some []
  | fuel + 1, cs@(_ :: _) => do
    let (t, rest) ← first? cs
    let more ← listWithin? fuel rest
    some (t :: more)

/-- White space, unless the declaration ends here. -/
def spaceOrEnd? (cs : List Char) : Option (List Char) :=
  match skip cs with
  | '?' :: '>' :: rest => some ('?' :: '>' :: rest)
  | [] => none
  | start => if (cs.head?.map isSpace).getD false then some start else none

def declarationItem? (word : String) (cs : List Char) : Option (List Char) :=
  if (Text.after? word.toList cs).isSome then
    (attribute? cs).bind fun (_, rest) => spaceOrEnd? rest
  else some cs

/-- What follows a declaration of version and encoding, read after its opening. -/
def afterDeclaration? (cs : List Char) : Option (List Char) := do
  let _ ← Text.after? "version".toList (skip cs)
  let rest ← declarationItem? "version" (skip cs)
  let rest ← declarationItem? "encoding" rest
  let rest ← declarationItem? "standalone" rest
  Text.after? ['?', '>'] (skip rest)

def body? (cs : List Char) : Option (List Char) :=
  let cs := (Text.after? ['\uFEFF'] cs).getD cs
  match Text.after? "<?xml ".toList cs with
  | some rest => afterDeclaration? rest
  | none => some cs

def list? (cs : List Char) : Option (List Token) :=
  (body? cs).bind fun body => listWithin? (body.length + 1) body

end Token

end SvgPage.Xml

/-!
# Characters and pieces of text

White space is the Unicode property. Letter case is changed for ASCII letters only, which is what
the attribute grammars ask for. A field is a maximal run between separators.
-/

namespace SvgPage.Text

/-- The Unicode property `White_Space`. -/
def isBlank (c : Char) : Bool :=
  let n := c.toNat
  (9 ≤ n && n ≤ 13) || n == 0x20 || n == 0x85 || n == 0xA0 || n == 0x1680 ||
    (0x2000 ≤ n && n ≤ 0x200A) || n == 0x2028 || n == 0x2029 || n == 0x202F || n == 0x205F ||
    n == 0x3000

def isSeparator (c : Char) : Bool := isBlank c || c == ','

def isAsciiAlphanumeric (c : Char) : Bool := c.isAlphanum

def lower (cs : List Char) : List Char := cs.map Char.toLower

/-- Without the longest tail of characters in a class. -/
def dropTail (p : Char → Bool) : List Char → List Char
  | [] => []
  | c :: cs =>
    match dropTail p cs with
    | [] => if p c then [] else [c]
    | ds => c :: ds

def trimBy (p : Char → Bool) (cs : List Char) : List Char := dropTail p (cs.dropWhile p)

def trim (cs : List Char) : List Char := trimBy isBlank cs

/-- The pieces between separators, empty ones included: one more than there are separators. -/
def pieces (p : Char → Bool) : List Char → List (List Char)
  | [] => [[]]
  | c :: cs =>
    if p c then [] :: pieces p cs
    else
      match pieces p cs with
      | [] => [[c]]
      | piece :: rest => (c :: piece) :: rest

/-- The nonempty pieces between separators. -/
def fields (p : Char → Bool) (cs : List Char) : List (List Char) :=
  (pieces p cs).filter (fun piece => !piece.isEmpty)

def after? : List Char → List Char → Option (List Char)
  | [], cs => some cs
  | _ :: _, [] => none
  | p :: ps, c :: cs => if p = c then after? ps cs else none

def before? (ending cs : List Char) : Option (List Char) :=
  (after? ending.reverse cs.reverse).map List.reverse

def splitFirst? (p : Char → Bool) : List Char → Option (List Char × List Char)
  | [] => none
  | c :: cs =>
    if p c then some ([], cs)
    else (splitFirst? p cs).map fun (before, rest) => (c :: before, rest)

def beforeLast? (word : List Char) : List Char → Option (List Char)
  | [] => if word.isEmpty then some [] else none
  | c :: cs =>
    match beforeLast? word cs with
    | some before => some (c :: before)
    | none => if (after? word (c :: cs)).isSome then some [] else none

def afterFirst? (word : List Char) : List Char → Option (List Char)
  | [] => after? word []
  | c :: cs =>
    match after? word (c :: cs) with
    | some rest => some rest
    | none => afterFirst? word cs

def sameIgnoringCase (a b : List Char) : Bool := lower a == lower b

/-- Without surrounding double quotes, then without surrounding single ones. -/
def unquote (cs : List Char) : List Char :=
  trimBy (· == '\'') (trimBy (· == '"') cs)

def join (word : List Char) : List (List Char) → List Char
  | [] => []
  | [cs] => cs
  | cs :: rest => cs ++ word ++ join word rest

end SvgPage.Text

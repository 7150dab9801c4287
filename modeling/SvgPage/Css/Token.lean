import SvgPage.Number.Decimal
import SvgPage.Text.Chars

/-!
# Style sheet tokens

The lexical grammar of style sheets. Every text has a token sequence: a string broken by a line end
and a malformed URL are tokens of their own, which no grammar accepts. White space and comments
part words and are kept with their text, since a value that no grammar fits is written as it came.
-/

namespace SvgPage.Css

/-- A number as written: with or without a sign, whole or with a fraction or exponent. -/
structure Numeral where
  value : Decimal
  signed : Bool
  whole : Bool
  deriving DecidableEq, Repr

inductive Bracket where
  | round
  | square
  | curly
  deriving DecidableEq, Repr

inductive Token where
  | ident (name : String)
  | atKeyword (name : String)
  | function (name : String)
  | hash (name : String)
  | string (value : String)
  | badString
  | url (value : String)
  | badUrl
  | number (n : Numeral)
  | percentage (n : Numeral)
  | dimension (n : Numeral) (unit : String)
  | delim (c : Char)
  /-- One of the characters before an equals sign in an attribute test. -/
  | matching (c : Char)
  | comma
  | colon
  | semicolon
  | opening (b : Bracket)
  | closing (b : Bracket)
  | commentOpen
  | commentClose
  | blank (text : String)
  | comment (text : String)
  deriving DecidableEq, Repr

namespace Token

def isNewline (c : Char) : Bool := c == '\n' || c == '\r' || c == '\x0c'

def isSpace (c : Char) : Bool := isNewline c || c == ' ' || c == '\t'

def isNameStart (c : Char) : Bool := c.isAlpha || c == '_' || c.toNat == 0 || 128 ≤ c.toNat

def isNameChar (c : Char) : Bool := isNameStart c || Decimal.isDigit c || c == '-'

def isHexDigit (c : Char) : Bool :=
  Decimal.isDigit c || ('a' ≤ c && c ≤ 'f') || ('A' ≤ c && c ≤ 'F')

def hexValue (c : Char) : Nat :=
  if Decimal.isDigit c then c.toNat - '0'.toNat
  else if 'a' ≤ c then c.toNat - 'a'.toNat + 10 else c.toNat - 'A'.toNat + 10

/-- Stands for characters that cannot be written. -/
def replacement : Char := '\uFFFD'

def charOfCode (n : Nat) : Char :=
  if n = 0 then replacement else if n.isValidChar then Char.ofNat n else replacement

def hexRun : Nat → List Char → List Char × List Char
  | 0, cs => ([], cs)
  | _ + 1, [] => ([], [])
  | n + 1, c :: cs =>
    if isHexDigit c then
      let (ds, rest) := hexRun n cs
      (c :: ds, rest)
    else ([], c :: cs)

/-- One white space character ends a numeric escape; a carriage return takes its line feed along. -/
def dropOneSpace : List Char → List Char
  | '\r' :: '\n' :: cs => cs
  | c :: cs => if isSpace c then cs else c :: cs
  | [] => []

/-- The character that an escape stands for, read after its backslash. -/
def escaped : List Char → Char × List Char
  | [] => (replacement, [])
  | c :: cs =>
    if isHexDigit c then
      let (ds, rest) := hexRun 6 (c :: cs)
      (charOfCode (ds.foldl (fun n d => 16 * n + hexValue d) 0), dropOneSpace rest)
    else if c.toNat = 0 then (replacement, cs)
    else (c, cs)

/-- A backslash begins an escape unless the line ends right after it. -/
def startsEscape : List Char → Bool
  | '\\' :: c :: _ => !isNewline c
  | ['\\'] => true
  | _ => false

def startsName : List Char → Bool
  | '-' :: c :: cs => isNameStart c || c == '-' || startsEscape (c :: cs)
  | c :: cs => isNameStart c || startsEscape (c :: cs)
  | [] => false

def name : Nat → List Char → List Char × List Char
  | 0, cs => ([], cs)
  | _ + 1, [] => ([], [])
  | fuel + 1, c :: cs =>
    if isNameChar c then
      let (more, rest) := name fuel cs
      ((if c.toNat = 0 then replacement else c) :: more, rest)
    else if startsEscape (c :: cs) then
      let (e, afterEscape) := escaped cs
      let (more, rest) := name fuel afterEscape
      (e :: more, rest)
    else ([], c :: cs)

/-- A name, its fuel taken from the text. -/
def takeName (cs : List Char) : String × List Char :=
  let (n, rest) := name cs.length cs
  (String.ofList n, rest)

/-- The rest of a quoted string; none when a line end breaks it. -/
def quotedString (quote : Char) : Nat → List Char → Option (List Char) × List Char
  | 0, cs => (some [], cs)
  | _ + 1, [] => (some [], [])
  | fuel + 1, c :: cs =>
    if c = quote then (some [], cs)
    else if isNewline c then (none, c :: cs)
    else if c = '\\' then
      match cs with
      | [] => (some [], [])
      | '\r' :: '\n' :: rest => quotedString quote fuel rest
      | d :: rest =>
        if isNewline d then quotedString quote fuel rest
        else
          let (e, afterEscape) := escaped (d :: rest)
          let (more, end_) := quotedString quote fuel afterEscape
          (more.map (e :: ·), end_)
    else
      let (more, end_) := quotedString quote fuel cs
      (more.map ((if c.toNat = 0 then replacement else c) :: ·), end_)

/-- What remains after a malformed URL, up to its closing bracket. -/
def afterBadUrl : Nat → List Char → List Char
  | 0, cs => cs
  | _ + 1, [] => []
  | fuel + 1, c :: cs =>
    if c = ')' then cs
    else if startsEscape (c :: cs) then afterBadUrl fuel (escaped cs).2
    else afterBadUrl fuel cs

def isUnprintable (c : Char) : Bool :=
  let n := c.toNat
  (1 ≤ n && n ≤ 8) || n == 0x0B || (0x0E ≤ n && n ≤ 0x1F) || n == 0x7F

def plainUrl : Nat → List Char → Option (List Char) × List Char
  | 0, cs => (some [], cs)
  | _ + 1, [] => (some [], [])
  | fuel + 1, c :: cs =>
    if c = ')' then (some [], cs)
    else if isSpace c then
      match cs.dropWhile isSpace with
      | [] => (some [], [])
      | ')' :: rest => (some [], rest)
      | rest => (none, afterBadUrl rest.length rest)
    else if c = '"' || c = '\'' || c = '(' || isUnprintable c then (none, afterBadUrl cs.length cs)
    else if c = '\\' then
      if startsEscape (c :: cs) then
        let (e, afterEscape) := escaped cs
        let (more, end_) := plainUrl fuel afterEscape
        (more.map (e :: ·), end_)
      else (none, afterBadUrl cs.length cs)
    else
      let (more, end_) := plainUrl fuel cs
      (more.map ((if c.toNat = 0 then replacement else c) :: ·), end_)

/-- A word, or a word with its opening bracket; an unquoted URL is one token. -/
def identLike (cs : List Char) : Token × List Char :=
  let (word, rest) := takeName cs
  match rest with
  | '(' :: inside =>
    if Text.lower word.toList = "url".toList then
      match inside.dropWhile isSpace with
      | '"' :: _ => (.function word, inside)
      | '\'' :: _ => (.function word, inside)
      | start =>
        match plainUrl start.length start with
        | (some u, end_) => (.url (String.ofList u), end_)
        | (none, end_) => (.badUrl, end_)
    else (.function word, inside)
  | _ => (.ident word, rest)

def startsNumber : List Char → Bool
  | '+' :: '.' :: d :: _ => Decimal.isDigit d
  | '-' :: '.' :: d :: _ => Decimal.isDigit d
  | '.' :: d :: _ => Decimal.isDigit d
  | '+' :: d :: _ => Decimal.isDigit d
  | '-' :: d :: _ => Decimal.isDigit d
  | d :: _ => Decimal.isDigit d
  | [] => false

/-- A fraction needs a digit after its point here. -/
def fraction : List Char → List Char × List Char
  | '.' :: d :: cs => if Decimal.isDigit d then Decimal.digitRun (d :: cs) else ([], '.' :: d :: cs)
  | cs => ([], cs)

/-- An exponent needs a digit here; otherwise the letter begins a unit. -/
def exponent? (cs : List Char) : Option (Int × List Char) :=
  match cs with
  | e :: _ =>
    if e = 'e' ∨ e = 'E' then
      match Decimal.scanExponent cs with
      | .ok found => some found
      | .error _ => none
    else none
  | [] => none

def numeric (cs : List Char) : Token × List Char :=
  let signed := cs.head? == some '+' || cs.head? == some '-'
  let (negative, unsigned) := Decimal.signOf cs
  let (ds, afterWhole) := Decimal.digitRun unsigned
  let (fs, afterFraction) := fraction afterWhole
  let mantissa := Decimal.wholeOfDigits (ds ++ fs)
  let (n, rest) : Numeral × List Char :=
    match exponent? afterFraction with
    | some (e, rest) => (⟨⟨negative, mantissa, e - fs.length⟩, signed, false⟩, rest)
    | none => (⟨⟨negative, mantissa, -fs.length⟩, signed, fs.isEmpty⟩, afterFraction)
  match rest with
  | '%' :: end_ => (.percentage n, end_)
  | _ =>
    if startsName rest then
      let (unit, end_) := takeName rest
      (.dimension n unit, end_)
    else (.number n, rest)

def commentBody : List Char → List Char × List Char
  | '*' :: '/' :: cs => ([], cs)
  | c :: cs =>
    let (body, rest) := commentBody cs
    (c :: body, rest)
  | [] => ([], [])

/-- The first token of a text that is not empty. -/
def first (c : Char) (cs : List Char) : Token × List Char :=
  if isSpace c then
    (.blank (String.ofList (c :: cs.takeWhile isSpace)), cs.dropWhile isSpace)
  else if startsNumber (c :: cs) then numeric (c :: cs)
  else
    match c, cs with
    | '/', '*' :: rest =>
      let (body, rest) := commentBody rest
      (.comment (String.ofList body), rest)
    | '"', _ =>
      match quotedString '"' cs.length cs with
      | (some s, rest) => (.string (String.ofList s), rest)
      | (none, rest) => (.badString, rest)
    | '\'', _ =>
      match quotedString '\'' cs.length cs with
      | (some s, rest) => (.string (String.ofList s), rest)
      | (none, rest) => (.badString, rest)
    | '#', d :: _ =>
      if startsName cs || isNameChar d then
        let (n, rest) := takeName cs
        (.hash n, rest)
      else (.delim '#', cs)
    | '@', _ =>
      if startsName cs then
        let (n, rest) := takeName cs
        (.atKeyword n, rest)
      else (.delim '@', cs)
    | '<', '!' :: '-' :: '-' :: rest => (.commentOpen, rest)
    | '-', '-' :: '>' :: rest => (.commentClose, rest)
    | '~', '=' :: rest => (.matching '~', rest)
    | '|', '=' :: rest => (.matching '|', rest)
    | '^', '=' :: rest => (.matching '^', rest)
    | '$', '=' :: rest => (.matching '$', rest)
    | '*', '=' :: rest => (.matching '*', rest)
    | ',', _ => (.comma, cs)
    | ':', _ => (.colon, cs)
    | ';', _ => (.semicolon, cs)
    | '(', _ => (.opening .round, cs)
    | '[', _ => (.opening .square, cs)
    | '\x7b', _ => (.opening .curly, cs)
    | ')', _ => (.closing .round, cs)
    | ']', _ => (.closing .square, cs)
    | '\x7d', _ => (.closing .curly, cs)
    | _, _ => if startsName (c :: cs) then identLike (c :: cs) else (.delim c, cs)

def listWithin : Nat → List Char → List Token
  | 0, _ => []
  | _ + 1, [] => []
  | fuel + 1, c :: cs =>
    let (t, rest) := first c cs
    t :: listWithin fuel rest

def list (cs : List Char) : List Token := listWithin cs.length cs

end Token

end SvgPage.Css

import SvgPage.Css.Component
import SvgPage.Number.Shortest

/-!
# How values are written

Numbers keep six significant digits and lose the zero before the point; before a unit a whole number
stands in full. Names and strings escape what would not be read back.
-/

namespace SvgPage.Css

def Numeral.single (n : Numeral) : Float32 := n.value.toFloat.toFloat32

def Numeral.fraction (n : Numeral) : Float32 := (n.value.toFloat / 100).toFloat32

/-- Six digits in ordinary notation, or with an exponent beyond twenty-one places before the point
or five zeros after it. The exponent is the one before rounding, so a mantissa may become ten. -/
def placeDigits (d : Digits) : List Char :=
  let top : Int := (Nat.toDigits 10 d.digits).length + d.exponent
  let rounded := d.limit 6
  if -6 < top ∧ top ≤ 21 then rounded.positional
  else
    let text := Nat.toDigits 10 rounded.digits
    let mantissa :=
      if top < text.length + rounded.exponent then "10".toList
      else text.take 1 ++ (if text.length = 1 then [] else '.' :: text.drop 1)
    mantissa ++ ('e' :: (toString (top - 1)).toList)

/-- Six significant digits. Zero has no sign. Data that is no finite number is written as its bits
would read with one more power of two. -/
def sixDigits (x : Float32) : List Char :=
  match Binary.ofSingle x with
  | .notANumber => placeDigits (Digits.ofSingle 12582912 105)
  | .infinite negative =>
    (if negative then ['-'] else []) ++ placeDigits (Digits.ofSingle 8388608 105)
  | .finite negative significand exponent =>
    if significand = 0 then ['0']
    else (if negative then ['-'] else []) ++ placeDigits (Digits.ofSingle significand exponent)

def dropLeadingZero : List Char → List Char
  | '-' :: '0' :: '.' :: cs => '-' :: '.' :: cs
  | '0' :: '.' :: cs => '.' :: cs
  | cs => cs

def numberText (x : Float32) : List Char := dropLeadingZero (sixDigits x)

/-- Whether the sign of a number is a minus, also that of zero. -/
def isNegative (x : Float32) : Bool :=
  match Binary.ofSingle x with
  | .notANumber => false
  | .infinite negative => negative
  | .finite negative _ _ => negative

def isWhole (x : Float32) : Bool := x.isFinite && x.floor == x

/-- The digits before a unit: a whole number stands in full as far as 32 bits reach, and zero keeps
its sign. -/
def unitDigits (x : Float32) : List Char :=
  if x == 0 && isNegative x then ['-', '0']
  else if isWhole x then (toString x.toInt32.toInt).toList
  else sixDigits x

/-- The digits of a small number without the zero before their point. A minus is written first and
taken off the digits together with that zero, so digits that begin otherwise keep their own. -/
def withoutZero (negative : Bool) (digits : List Char) : List Char :=
  if negative then '-' :: (Text.after? ['-', '0'] digits).getD digits
  else (Text.after? ['0'] digits).getD digits

def hexEscape (c : Char) : List Char := '\\' :: Nat.toDigits 16 c.toNat ++ [' ']

def nameTail (cs : List Char) : List Char :=
  cs.flatMap fun c =>
    if Token.isNameChar c && c.toNat != 0 then [c]
    else if c.toNat = 0 then [Token.replacement]
    else if c.toNat < 32 || c.toNat = 127 then hexEscape c
    else ['\\', c]

def identText (s : String) : List Char :=
  match s.toList with
  | [] => []
  | '-' :: '-' :: cs => '-' :: '-' :: nameTail cs
  | ['-'] => ['\\', '-']
  | '-' :: c :: cs =>
    if Decimal.isDigit c then '-' :: hexEscape c ++ nameTail cs else '-' :: nameTail (c :: cs)
  | c :: cs => if Decimal.isDigit c then hexEscape c ++ nameTail cs else nameTail (c :: cs)

def stringText (s : String) : List Char :=
  '"' :: s.toList.flatMap (fun c =>
    if c = '"' then ['\\', '"']
    else if c = '\\' then ['\\', '\\']
    else if c.toNat = 0 then [Token.replacement]
    else if c.toNat < 32 || c.toNat = 127 then hexEscape c
    else [c]) ++ ['"']

def urlText (u : String) : List Char := "url(".toList ++ stringText u ++ [')']

/-- A name after a number; one that would read as an exponent is escaped. -/
def unitText (unit : String) : List Char :=
  match unit.toList with
  | ['e'] => "\\65 ".toList
  | ['E'] => "\\45 ".toList
  | 'e' :: '-' :: cs => "\\65 ".toList ++ nameTail ('-' :: cs)
  | 'E' :: '-' :: cs => "\\45 ".toList ++ nameTail ('-' :: cs)
  | _ => identText unit

def dimensionText (x : Float32) (unit : String) : List Char :=
  (if x != 0 && x.abs < 1 then withoutZero (x < 0) (unitDigits x) else unitDigits x) ++
    unitText unit

def percentText (fraction : Float32) : List Char :=
  let digits := unitDigits (fraction * 100)
  (if fraction != 0 && fraction.abs < 0.01 then withoutZero (fraction < 0) digits else digits) ++
    ['%']

/-- A percentage as it stands in a value that is kept as written: a plus stays, and a number that
was not written as a whole one shows it. -/
def percentToken (n : Numeral) : List Char :=
  let x := n.fraction * 100
  let plus : List Char := if n.signed && !isNegative x then ['+'] else []
  let digits : List Char :=
    if x == 0 && isNegative x then ['-', '0']
    else if n.whole then (toString n.value.toFloat.toInt32.toInt).toList
    else
      let body := sixDigits x
      if isWhole x && !body.contains '.' && !body.contains 'e' then body ++ ['.', '0'] else body
  plus ++ digits ++ ['%']

end SvgPage.Css

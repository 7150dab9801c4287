/-!
# Decimal numerals

A numeral is an optional sign, digits with an optional point, and an optional exponent. Scanning
takes the longest numeral at the head of a text and says what is missing when there is none.
-/

namespace SvgPage

/-- The exact value of a written number: a whole mantissa times a power of ten. -/
structure Decimal where
  negative : Bool
  mantissa : Nat
  exponent : Int
  deriving DecidableEq, Repr

namespace Decimal

def isDigit (c : Char) : Bool := '0' ≤ c && c ≤ '9'

def digitRun (cs : List Char) : List Char × List Char :=
  (cs.takeWhile isDigit, cs.dropWhile isDigit)

def wholeOfDigits (ds : List Char) : Nat :=
  ds.foldl (fun n d => 10 * n + (d.toNat - '0'.toNat)) 0

def signOf : List Char → Bool × List Char
  | '-' :: cs => (true, cs)
  | '+' :: cs => (false, cs)
  | cs => (false, cs)

/-- Why no numeral starts here; the text left is the place to report. -/
inductive Missing where
  | digits
  | exponent (rest : List Char)
  deriving DecidableEq, Repr

def fractionRun : List Char → List Char × List Char
  | '.' :: cs => digitRun cs
  | cs => ([], cs)

/-- The exponent after a mantissa; an `e` without digits is an error, no letter at all is zero. -/
def scanExponent : List Char → Except Missing (Int × List Char)
  | [] => .ok (0, [])
  | e :: cs =>
    if e = 'e' ∨ e = 'E' then
      let (negative, afterSign) := signOf cs
      let (ds, rest) := digitRun afterSign
      if ds.isEmpty then .error (.exponent (e :: cs))
      else
        let n : Int := wholeOfDigits ds
        .ok (if negative then -n else n, rest)
    else .ok (0, e :: cs)

/-- The longest numeral at the head of a text. -/
def scan (cs : List Char) : Except Missing (Decimal × List Char) :=
  let (negative, unsigned) := signOf cs
  let (whole, afterWhole) := digitRun unsigned
  let (fraction, afterMantissa) := fractionRun afterWhole
  if whole.isEmpty && fraction.isEmpty then .error .digits
  else
    match scanExponent afterMantissa with
    | .error e => .error e
    | .ok (n, rest) =>
      .ok (⟨negative, wholeOfDigits (whole ++ fraction), n - fraction.length⟩, rest)

def read? (cs : List Char) : Option Decimal :=
  match scan cs with
  | .ok (d, []) => some d
  | _ => none

def digitCount (n : Nat) : Nat := (Nat.toDigits 10 n).length

/-- The nearest double. Magnitudes far outside the range are settled by their digit count alone,
so that an enormous written exponent costs nothing. -/
def toFloat (d : Decimal) : Float :=
  let magnitude :=
    if d.mantissa = 0 then 0.0
    else
      let size := digitCount d.mantissa + d.exponent
      if size > 400 then 1.0 / 0.0
      else if size < -400 then 0.0
      else if d.exponent < 0 then Float.ofScientific d.mantissa true d.exponent.natAbs
      else Float.ofScientific d.mantissa false d.exponent.toNat
  if d.negative then -magnitude else magnitude

end Decimal

/-- A double as text spells it: a numeral, or one of the words for infinity and for no number, in
any letter case. -/
def readFloat? (cs : List Char) : Option Float :=
  match Decimal.read? cs with
  | some d => some d.toFloat
  | none =>
    let (negative, word) := Decimal.signOf cs
    let word := word.map Char.toLower
    if word = "inf".toList ∨ word = "infinity".toList then
      some (if negative then -(1.0 / 0.0) else 1.0 / 0.0)
    else if word = "nan".toList then some (0.0 / 0.0)
    else none

end SvgPage

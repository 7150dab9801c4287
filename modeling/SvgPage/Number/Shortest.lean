import SvgPage.Number.Binary

/-!
# The fewest digits that read back

Of the decimals inside the rounding interval of a single-precision number, the printed one has the
fewest digits and, among those, lies nearest. Each candidate is one of the two neighbours of the
value on a decimal grid, and every comparison is between whole numbers.
-/

namespace SvgPage

/-- The decimal digits `digits * 10 ^ exponent` of a positive number. -/
structure Digits where
  digits : Nat
  exponent : Int
  deriving DecidableEq, Repr

namespace Digits

/-- Trailing zeros moved into the exponent. -/
def trim (d : Digits) : Digits :=
  go (Nat.toDigits 10 d.digits).length d
where
  go : Nat → Digits → Digits
    | 0, d => d
    | fuel + 1, d =>
      if d.digits ≠ 0 ∧ d.digits % 10 = 0 then go fuel ⟨d.digits / 10, d.exponent + 1⟩ else d

/-- The interval of values that round to a number, in quarters of its last place. -/
structure Interval where
  low : Nat
  value : Nat
  high : Nat
  quantum : Int
  closed : Bool

/-- Half a unit to each side; below a power of two the lower side is half as wide. -/
def Interval.of (significand : Nat) (exponent : Int) (powerOfTwo : Bool) : Interval :=
  { low := 4 * significand - (if powerOfTwo then 1 else 2)
    value := 4 * significand
    high := 4 * significand + 2
    quantum := exponent - 2
    closed := significand % 2 == 0 }

def Interval.contains (i : Interval) (d : Digits) : Bool :=
  let r := (Ratio.mk d.digits 1).scaleTen d.exponent
  let unit := Ratio.ofBinary 1 i.quantum
  -- compare r.num / r.den with n * unit.num / unit.den
  let scaled := r.num * unit.den
  let step := r.den * unit.num
  if i.closed then i.low * step ≤ scaled && scaled ≤ i.high * step
  else i.low * step < scaled && scaled < i.high * step

/-- The neighbour of the value on the grid of `count` digits that reads back and is nearer. -/
def Interval.hit? (i : Interval) (top : Int) (count : Nat) : Option Digits :=
  let exponent := top - count
  let exact := (Ratio.ofBinary i.value i.quantum).scaleTen (-exponent)
  let below := exact.floor
  let lower : Digits := ⟨below, exponent⟩
  let upper : Digits := ⟨below + 1, exponent⟩
  match i.contains lower, i.contains upper with
  | true, true =>
    some (if exact.num % exact.den * 2 < exact.den then lower
      else if exact.den < exact.num % exact.den * 2 then upper
      else if below % 2 = 0 then lower else upper)
  | true, false => some lower
  | false, true => some upper
  | false, false => none

def Interval.shortest (i : Interval) (limit : Nat) : Digits :=
  let top := (Ratio.ofBinary i.value i.quantum).decade
  match (List.range limit).findSome? (fun k => i.hit? top (k + 1)) with
  | some d => d.trim
  | none => ⟨0, 0⟩

def ofSingle (significand : Nat) (exponent : Int) : Digits :=
  (Interval.of significand exponent (significand == 8388608 && -149 < exponent)).shortest 9

/-- At most `count` digits, the last one rounded with halves away from zero. -/
def limit (count : Nat) (d : Digits) : Digits :=
  let size := (Nat.toDigits 10 d.digits).length
  if size ≤ count then d
  else
    let cut := Nat.pow 10 (size - count)
    trim ⟨(d.digits + cut / 2) / cut, d.exponent + (size - count : Nat)⟩

def positional (d : Digits) : List Char :=
  let text := Nat.toDigits 10 d.digits
  if 0 ≤ d.exponent then
    if d.digits = 0 then ['0'] else text ++ List.replicate d.exponent.toNat '0'
  else
    let places := d.exponent.natAbs
    if places < text.length then
      text.take (text.length - places) ++ '.' :: text.drop (text.length - places)
    else '0' :: '.' :: (List.replicate (places - text.length) '0' ++ text)

end Digits

/-- A single-precision number in the fewest digits that read back, never with an exponent; zero
keeps its sign. -/
def singleText (x : Float32) : List Char :=
  match Binary.ofSingle x with
  | .notANumber => ['N', 'a', 'N']
  | .infinite negative => (if negative then ['-'] else []) ++ ['i', 'n', 'f']
  | .finite negative significand exponent =>
    (if negative then ['-'] else []) ++
      if significand = 0 then ['0'] else (Digits.ofSingle significand exponent).positional

end SvgPage

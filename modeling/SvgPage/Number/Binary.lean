/-!
# Exact values of floating-point numbers

A finite number in single or double precision is a whole significand times a power of two.
-/

namespace SvgPage

/-- The classes of floating-point data; a finite one keeps its sign when it is zero. -/
inductive Binary where
  | notANumber
  | infinite (negative : Bool)
  | finite (negative : Bool) (significand : Nat) (exponent : Int)
  deriving DecidableEq, Repr

namespace Binary

/-- The value of a bit pattern with the given widths of exponent and fraction. -/
def ofPattern (exponentBits fractionBits bits : Nat) : Binary :=
  let fraction := bits % Nat.pow 2 fractionBits
  let field := bits / Nat.pow 2 fractionBits % Nat.pow 2 exponentBits
  let negative := bits / Nat.pow 2 (fractionBits + exponentBits) % 2 == 1
  let bias : Int := Nat.pow 2 (exponentBits - 1) - 1 + fractionBits
  if field = Nat.pow 2 exponentBits - 1 then
    if fraction = 0 then .infinite negative else .notANumber
  else if field = 0 then .finite negative fraction (1 - bias)
  else .finite negative (Nat.pow 2 fractionBits + fraction) (field - bias)

def ofDouble (x : Float) : Binary := ofPattern 11 52 x.toBits.toNat

def ofSingle (x : Float32) : Binary := ofPattern 8 23 x.toBits.toNat

end Binary

/-- A nonnegative fraction of whole numbers. -/
structure Ratio where
  num : Nat
  den : Nat
  deriving DecidableEq, Repr

namespace Ratio

/-- `n * 2 ^ e` -/
def ofBinary (n : Nat) (e : Int) : Ratio :=
  if e < 0 then ⟨n, Nat.pow 2 e.natAbs⟩ else ⟨n * Nat.pow 2 e.toNat, 1⟩

def scaleTen (r : Ratio) (e : Int) : Ratio :=
  if e < 0 then ⟨r.num, r.den * Nat.pow 10 e.natAbs⟩ else ⟨r.num * Nat.pow 10 e.toNat, r.den⟩

def floor (r : Ratio) : Nat := r.num / r.den

/-- The nearest whole number; a half goes to the even neighbour. -/
def round (r : Ratio) : Nat :=
  let twice := 2 * (r.num % r.den)
  let down := r.num / r.den
  if twice < r.den then down
  else if r.den < twice then down + 1
  else if down % 2 = 0 then down else down + 1

/-- The `e` with `10 ^ (e - 1) ≤ r < 10 ^ e`, for a positive value. -/
def decade (r : Ratio) : Int :=
  let shift := (Nat.toDigits 10 r.den).length
  ((Nat.toDigits 10 (r.num * Nat.pow 10 shift / r.den)).length : Int) - shift

end Ratio

end SvgPage

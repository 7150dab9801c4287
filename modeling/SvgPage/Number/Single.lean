import SvgPage.Number.Binary

/-!
# Doubles in single precision

The single nearest to a double; of two that are equally near, the one whose significand is even. The
significand is rounded in units of its last place, and a carry moves on into the exponent field.
-/

namespace SvgPage.Single

/-- The pattern of infinity. It follows that of the largest finite number. -/
def infinity : Nat := 255 * Nat.pow 2 23

/-- The exponent of the last place of a single that is near `n * 2 ^ e`. -/
def quantum (n : Nat) (e : Int) : Int := max (n.log2 + e - 23) (-149)

/-- The pattern of the single nearest to `n * 2 ^ e`. -/
def magnitude (n : Nat) (e : Int) : Nat :=
  if n = 0 then 0
  else
    let q := quantum n e
    min ((q + 149).toNat * Nat.pow 2 23 + (Ratio.ofBinary n (e - q)).round) infinity

def ofMagnitude (negative : Bool) (pattern : Nat) : Float32 :=
  Float32.ofBits (UInt32.ofNat (if negative then Nat.pow 2 31 + pattern else pattern))

def ofDouble (x : Float) : Float32 :=
  match Binary.ofDouble x with
  | .notANumber => 0.0 / 0.0
  | .infinite negative => ofMagnitude negative infinity
  | .finite negative n e => ofMagnitude negative (magnitude n e)

end SvgPage.Single

/-!
# Binary layouts

Big-endian numbers at given places of a byte array. A place outside the array has no number.
-/

namespace SvgPage.Bytes

def u8? (bs : Array UInt8) (i : Nat) : Option Nat := bs[i]?.map (·.toNat)

def u16? (bs : Array UInt8) (i : Nat) : Option Nat := do
  let a ← u8? bs i
  let b ← u8? bs (i + 1)
  some (a * 256 + b)

def u32? (bs : Array UInt8) (i : Nat) : Option Nat := do
  let a ← u16? bs i
  let b ← u16? bs (i + 2)
  some (a * 65536 + b)

def slice? (bs : Array UInt8) (start length : Nat) : Option (Array UInt8) :=
  if start + length ≤ bs.size then some (bs.extract start (start + length)) else none

/-- Big-endian sixteen-bit units; an odd last byte is dropped. -/
def units : List UInt8 → List Nat
  | a :: b :: rest => (a.toNat * 256 + b.toNat) :: units rest
  | _ => []

/-- Text of sixteen-bit units; a surrogate without its partner is not text. -/
def utf16? : List Nat → Option (List Char)
  | [] => some []
  | u :: rest =>
    if 0xD800 ≤ u ∧ u < 0xDC00 then
      match rest with
      | v :: rest =>
        if 0xDC00 ≤ v ∧ v < 0xE000 then
          (utf16? rest).map (Char.ofNat (0x10000 + (u - 0xD800) * 0x400 + (v - 0xDC00)) :: ·)
        else none
      | [] => none
    else if 0xDC00 ≤ u ∧ u < 0xE000 then none
    else (utf16? rest).map (Char.ofNat u :: ·)

end SvgPage.Bytes

import SvgPage.Image.Handle
import SvgPage.Payload.Bytes

/-!
# Headers of raster files

The size of a picture stands in its header. A PNG file is a sequence of chunks with check sums; a
JPEG file is a sequence of marker segments. Only these are read: whether the data of the picture can
be decoded is another question.
-/

namespace SvgPage.Raster

open Bytes

def crcStep (r : UInt32) : UInt32 :=
  if (r &&& 1) == 1 then (r >>> 1) ^^^ 0xEDB88320 else r >>> 1

def crcByte (r : UInt32) (b : UInt8) : UInt32 :=
  (List.range 8).foldl (fun r _ => crcStep r) (r ^^^ b.toUInt32)

def crc (bs : Array UInt8) : UInt32 := (bs.foldl crcByte 0xFFFFFFFF) ^^^ 0xFFFFFFFF

def pngSignature : List UInt8 := [0x89, 0x50, 0x4E, 0x47, 0x0D, 0x0A, 0x1A, 0x0A]

def chunk? (bs : Array UInt8) (place : Nat) : Option ((List UInt8 × Array UInt8) × Nat) := do
  let length ← u32? bs place
  let checked ← slice? bs (place + 4) (4 + length)
  let sum ← u32? bs (place + 8 + length)
  if (crc checked).toNat = sum then
    some (((checked.extract 0 4).toList, checked.extract 4 checked.size), place + 12 + length)
  else none

/-- The depths that a colour type allows. -/
def depths : Nat → List Nat
  | 0 => [1, 2, 4, 8, 16]
  | 2 => [8, 16]
  | 3 => [1, 2, 4, 8]
  | 4 => [8, 16]
  | 6 => [8, 16]
  | _ => []

def pngHeader? (header : Array UInt8) : Option (Nat × Nat) := do
  let width ← u32? header 0
  let height ← u32? header 4
  let depth ← u8? header 8
  let color ← u8? header 9
  let compression ← u8? header 10
  let filter ← u8? header 11
  let interlace ← u8? header 12
  if header.size = 13 ∧ width ≠ 0 ∧ height ≠ 0 ∧ (depths color).contains depth ∧ compression = 0 ∧
      filter = 0 ∧ interlace ≤ 1 then some (width, height)
  else none

/-- Whether picture data comes before the end, every chunk being sound. -/
def hasPicture (bs : Array UInt8) : Nat → Nat → Bool
  | 0, _ => false
  | fuel + 1, place =>
    match chunk? bs place with
    | some ((kind, _), next) => kind == [0x49, 0x44, 0x41, 0x54] || hasPicture bs fuel next
    | none => false

def pngSize? (bs : Array UInt8) : Option (Nat × Nat) := do
  if (bs.extract 0 8).toList == pngSignature then
    let ((kind, header), next) ← chunk? bs 8
    if kind == [0x49, 0x48, 0x44, 0x52] && hasPicture bs bs.size next then pngHeader? header
    else none
  else none

/-- Whether a marker begins a frame whose coding is supported. -/
def isFrame (marker : Nat) : Bool := marker == 0xC0 || marker == 0xC1 || marker == 0xC2

/-- Whether a marker stands alone, without a segment. -/
def standsAlone (marker : Nat) : Bool := (0xD0 ≤ marker && marker ≤ 0xD7) || marker == 0x01

def frameSize? (bs : Array UInt8) : Nat → Nat → Option (Nat × Nat) → Option (Nat × Nat)
  | 0, _, _ => none
  | fuel + 1, place, found => do
    let lead ← u8? bs place
    let marker ← u8? bs (place + 1)
    if lead ≠ 0xFF then none
    else if marker = 0xFF then frameSize? bs fuel (place + 1) found
    else if standsAlone marker then frameSize? bs fuel (place + 2) found
    else if marker = 0xD9 then none
    else
      let length ← u16? bs (place + 2)
      if length < 2 ∨ bs.size < place + 2 + length then none
      else if marker = 0xDA then found
      else if isFrame marker then
        let precision ← u8? bs (place + 4)
        let height ← u16? bs (place + 5)
        let width ← u16? bs (place + 7)
        if precision = 8 ∧ width ≠ 0 ∧ height ≠ 0 then
          frameSize? bs fuel (place + 2 + length) (some (width, height))
        else none
      else frameSize? bs fuel (place + 2 + length) found

def jpegSize? (bs : Array UInt8) : Option (Nat × Nat) :=
  if (bs.extract 0 2).toList == [0xFF, 0xD8] then frameSize? bs bs.size 2 none else none

/-- The size in pixels that the header of a file gives in a format. -/
def size? (format : ImageFormat) (bytes : List UInt8) : Option (Nat × Nat) :=
  match format with
  | .png => pngSize? bytes.toArray
  | .jpeg => jpegSize? bytes.toArray

end SvgPage.Raster

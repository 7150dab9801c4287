import SvgPage.Payload.Bytes

/-!
# Character maps of font files

A table of mappings from code points to glyph numbers, each in one of several formats. Segments and
groups are meant to be sorted and are found by halving, so in a table that is not sorted some of
them are out of reach. A mapping whose lists do not fit ends the table.
-/

namespace SvgPage.TrueType

open Bytes

/-- A place between two bounds that the comparison calls equal. One that is too small moves the
lower bound past it, one that is too great becomes the upper bound. -/
def bisect (compare : Nat → Option Ordering) (low high : Nat) : Option Nat :=
  if low < high then
    let i := (low + high) / 2
    match compare i with
    | some .eq => some i
    | some .lt => bisect compare (i + 1) high
    | some .gt => bisect compare low i
    | none => none
  else none
termination_by high - low

/-- The last of some places at which a condition does not hold, or the first place, if the condition
holds from one place on. -/
def narrow (above : Nat → Bool) (base size : Nat) : Nat :=
  if 1 < size then
    let middle := base + size / 2
    narrow above (if above middle then base else middle) (size - size / 2)
  else base
termination_by size

def glyphByByte (t : Array UInt8) (code : Nat) : Option Nat := do
  if code > 255 then none
  else
    let glyph ← u8? t (6 + code)
    if glyph = 0 then none else some glyph

def headerCount? (t : Array UInt8) : Option Nat :=
  ((List.range 256).mapM fun i => u16? t (6 + 2 * i)).map fun keys =>
    keys.foldl (fun most key => max most (key / 8)) 0 + 1

/-- Headers for first bytes, each with a run of second bytes in a glyph list. -/
def glyphByHeader (t : Array UInt8) (code : Nat) : Option Nat := do
  if code > 0xFFFF then none
  else
    let byte := code % 256
    let key ← if code < 0xFF then some 0 else u16? t (6 + 2 * (code / 256))
    let header := 518 + 8 * (key / 8)
    let first ← u16? t header
    let count ← u16? t (header + 2)
    let delta ← u16? t (header + 4)
    let offset ← u16? t (header + 6)
    if 0xFFFF < first + count ∨ byte < first ∨ first + count ≤ byte then none
    else
      let glyph ← u16? t (header + 6 + offset + 2 * (byte - first))
      if glyph = 0 then none
      else if delta < 0x8000 then some ((glyph + delta) % 65536)
      else if 65536 ≤ glyph + delta then some (glyph + delta - 65536)
      else none

/-- Segments of code points with a shift, or with an index into a glyph list. -/
def glyphBySegment (t : Array UInt8) (code : Nat) : Option Nat := do
  if code > 0xFFFF then none
  else
    let count := (← u16? t 6) / 2
    let ends := 14
    let starts := 16 + 2 * count
    let deltas := starts + 2 * count
    let offsets := deltas + 2 * count
    let compare (i : Nat) : Option Ordering := do
      if (← u16? t (ends + 2 * i)) < code then some .lt
      else if code < (← u16? t (starts + 2 * i)) then some .gt
      else some .eq
    let i ← bisect compare 0 count
    let first ← u16? t (starts + 2 * i)
    let delta ← u16? t (deltas + 2 * i)
    let offset ← u16? t (offsets + 2 * i)
    if offset = 0 then some ((code + delta) % 65536)
    else if offset = 0xFFFF then none
    else
      let place := (offsets + 2 * i + (code - first) * 2 + offset) % 65536
      let entry ← u16? t place
      let glyph := (entry + delta) % 65536
      if entry = 0 ∨ (code - first) * 2 > 0xFFFF ∨ 0x8000 ≤ glyph then none else some glyph

def glyphByRun (t : Array UInt8) (code : Nat) : Option Nat := do
  let first ← u16? t 6
  let count ← u16? t 8
  if code < first ∨ first + count ≤ code then none else u16? t (10 + 2 * (code - first))

/-- A run in which all numbers are of four bytes, but for the glyphs. -/
def glyphByWideRun (t : Array UInt8) (code : Nat) : Option Nat := do
  let first ← u32? t 12
  let count ← u32? t 16
  if code < first ∨ first + count ≤ code then none else u16? t (20 + 2 * (code - first))

def glyphByGroup (t : Array UInt8) (code : Nat) : Option Nat := do
  let count ← u32? t 12
  let above (i : Nat) : Bool := (u32? t (16 + 12 * i)).any (code < ·)
  let i := narrow above 0 count
  if count = 0 then none
  else
    let first ← u32? t (16 + 12 * i)
    let last ← u32? t (20 + 12 * i)
    let glyph ← u32? t (24 + 12 * i)
    if code < first ∨ last < code ∨ 0xFFFF < glyph + code - first then none
    else some (glyph + code - first)

/-- Groups of code points with one glyph each; the first one counts. -/
def glyphByClass (t : Array UInt8) (code : Nat) : Option Nat := do
  let count ← u32? t 12
  let i ← (List.range count).find? fun i =>
    match u32? t (16 + 12 * i), u32? t (20 + 12 * i) with
    | some first, some last => first ≤ code && code ≤ last
    | _, _ => false
  let glyph ← u32? t (24 + 12 * i)
  if glyph ≤ 0xFFFF then some glyph else none

structure Mapping where
  platform : Nat
  encoding : Nat
  format : Nat
  bytes : Array UInt8

namespace Mapping

def isUnicode (m : Mapping) : Bool :=
  m.platform == 0 ||
    (m.platform == 3 &&
      (m.encoding == 1 || (m.encoding == 10 && (m.format == 12 || m.format == 13))))

/-- How many bytes the lists of a mapping reach to; none for a format that is not known. -/
def extent? (m : Mapping) : Option Nat :=
  match m.format with
  | 0 => some 262
  | 2 => (headerCount? m.bytes).map fun count => 518 + 8 * count
  | 4 => (u16? m.bytes 6).bind fun n => if n < 2 then none else some (16 + 8 * (n / 2))
  | 6 => (u16? m.bytes 8).map fun count => 10 + 2 * count
  | 8 => some 0
  | 10 => (u32? m.bytes 16).map fun count => 20 + 2 * count
  | 12 => (u32? m.bytes 12).map fun count => 16 + 12 * count
  | 13 => (u32? m.bytes 12).map fun count => 16 + 12 * count
  | 14 => (u32? m.bytes 6).map fun count => 10 + 11 * count
  | _ => none

def isComplete (m : Mapping) : Bool := m.extent?.any (· ≤ m.bytes.size)

def glyph? (m : Mapping) (code : Nat) : Option Nat :=
  match m.format with
  | 0 => glyphByByte m.bytes code
  | 2 => glyphByHeader m.bytes code
  | 4 => glyphBySegment m.bytes code
  | 6 => glyphByRun m.bytes code
  | 10 => glyphByWideRun m.bytes code
  | 12 => glyphByGroup m.bytes code
  | 13 => glyphByClass m.bytes code
  | _ => none

end Mapping

def mapping? (cmap : Array UInt8) (i : Nat) : Option Mapping := do
  let platform ← u16? cmap (4 + 8 * i)
  let encoding ← u16? cmap (6 + 8 * i)
  let offset ← u32? cmap (8 + 8 * i)
  let format ← u16? cmap offset
  let m : Mapping := ⟨platform, encoding, format, cmap.extract offset cmap.size⟩
  if platform ≤ 4 ∧ m.isComplete then some m else none

/-- The values before the first missing one. -/
def leading : List (Option α) → List α
  | some a :: rest => a :: leading rest
  | _ => []

def mappings (cmap : Array UInt8) : List Mapping :=
  match u16? cmap 2 with
  | some count =>
    if cmap.size < 4 + 8 * count then [] else leading ((List.range count).map (mapping? cmap))
  | none => []

/-- The glyph of a code point in the first mapping that has one. -/
def glyph? (ms : List Mapping) (code : Nat) : Option Nat :=
  ms.findSome? fun m => if m.isUnicode then m.glyph? code else none

end SvgPage.TrueType

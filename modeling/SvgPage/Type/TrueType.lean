import SvgPage.Type.CharacterMap
import SvgPage.Type.Font

/-!
# TrueType and OpenType fonts

A font file is a directory of tables. Three of them must be readable for the font to be used; those
that give names, glyph numbers and widths may be missing. Glyphs are shown by two-byte number.
-/

namespace SvgPage.TrueType

open Bytes

structure Table where
  tag : Nat
  bytes : Array UInt8

def tag (s : String) : Nat := s.toList.foldl (fun n c => 256 * n + c.toNat) 0

def collectionTag : Nat := tag "ttcf"

def isFaceTag (n : Nat) : Bool := n == 0x00010000 || n == tag "true" || n == tag "OTTO"

/-- Where the directory of the first face begins, after its tag. -/
def directory? (bs : Array UInt8) : Option Nat := do
  let first ← u32? bs 0
  if isFaceTag first then some 4
  else if first = collectionTag then
    let count ← u32? bs 8
    if count = 0 ∨ bs.size < 12 + 4 * count then none
    else
      let start ← u32? bs 12
      if start < 12 + 4 * count then none
      else
        let inner ← u32? bs start
        if isFaceTag inner then some (start + 4) else none
  else none

/-- The tables that lie inside the file; one that does not is left empty. -/
def tables? (bs : Array UInt8) : Option (List Table) := do
  let start ← directory? bs
  let count ← u16? bs start
  let records := start + 8
  if bs.size < records + 16 * count then none
  else
    (List.range count).mapM fun i => do
      let at_ := records + 16 * i
      let name ← u32? bs at_
      let offset ← u32? bs (at_ + 8)
      let length ← u32? bs (at_ + 12)
      some ⟨name, (slice? bs offset length).getD #[]⟩

/-- The last table of a name. -/
def find? (ts : List Table) (name : String) : Option (Array UInt8) :=
  (ts.reverse.find? (·.tag == tag name)).map (·.bytes)

def unitsPerEm? (head : Array UInt8) : Option Nat := do
  if head.size < 54 then none
  else
    let units ← u16? head 18
    let locations ← u16? head 50
    if 16 ≤ units ∧ units ≤ 16384 ∧ locations ≤ 1 then some units else none

def metricCount? (hhea : Array UInt8) : Option Nat := u16? hhea 34

def glyphCount? (maxp : Array UInt8) : Option Nat := do
  let version ← u32? maxp 0
  let count ← u16? maxp 4
  if (version = 0x00005000 ∨ version = 0x00010000) ∧ count ≠ 0 then some count else none

/-- Widths by glyph number: the last one stands for the glyphs after it. -/
structure Widths where
  own : List Nat
  glyphs : Nat

def widths? (hmtx : Array UInt8) (metrics glyphs : Nat) : Option Widths :=
  if metrics = 0 ∨ hmtx.size < 4 * metrics then none
  else
    ((List.range metrics).mapM fun i => u16? hmtx (4 * i)).map fun own => ⟨own, max metrics glyphs⟩

def Widths.get (w : Widths) (glyph : Nat) : Nat :=
  if w.glyphs ≤ glyph then 0
  else
    match w.own[glyph]? with
    | some v => v
    | none => w.own.getLast?.getD 0

structure NameRecord where
  kind : Nat
  /-- The name, where its encoding is one that can be read. -/
  text : Option String

def nameRecord? (name : Array UInt8) (storage i : Nat) (records : Nat) : Option NameRecord := do
  let at_ := records + 12 * i
  let platform ← u16? name at_
  let encoding ← u16? name (at_ + 2)
  let kind ← u16? name (at_ + 6)
  let length ← u16? name (at_ + 8)
  let offset ← u16? name (at_ + 10)
  let bytes ← slice? name (storage + offset) length
  if platform ≤ 4 then
    let readable := platform = 0 ∨ (platform = 3 ∧ encoding ≤ 1)
    some ⟨kind, if readable then (utf16? (units bytes.toList)).map String.ofList else none⟩
  else none

def nameRecords (name : Array UInt8) : List NameRecord :=
  match u16? name 0, u16? name 2, u16? name 4 with
  | some version, some count, some storage =>
    let records : Option Nat :=
      if version = 0 then some 6
      else if version = 1 then (u16? name 6).map fun tags => 8 + 4 * tags
      else none
    match records with
    | some records =>
      let storage := max storage (records + 12 * count)
      if name.size < records + 12 * count ∨ name.size < storage then []
      else leading ((List.range count).map fun i => nameRecord? name storage i records)
    | none => []
  | _, _, _ => []

def firstName? (rs : List NameRecord) (kinds : List Nat) : Option String :=
  rs.findSome? fun r => if kinds.contains r.kind then r.text else none

structure Face where
  unitsPerEm : Nat
  widths : Option Widths
  mappings : List Mapping
  names : List NameRecord

def face? (bs : Array UInt8) : Option Face := do
  let ts ← tables? bs
  let units ← (find? ts "head").bind unitsPerEm?
  let metrics ← (find? ts "hhea").bind metricCount?
  let glyphs ← (find? ts "maxp").bind glyphCount?
  some
    { unitsPerEm := units
      widths := (find? ts "hmtx").bind fun t => widths? t metrics glyphs
      mappings := ((find? ts "cmap").map mappings).getD []
      names := ((find? ts "name").map nameRecords).getD [] }

/-- The glyph of a character; zero, the glyph for missing ones, where no mapping has it. -/
def Face.glyph (f : Face) (c : Char) : Nat := (glyph? f.mappings c.toNat).getD 0

def Face.width (f : Face) (glyph : Nat) : Nat := (f.widths.map (·.get glyph)).getD 0

def Face.encode (f : Face) (s : String) : List UInt8 :=
  s.toList.flatMap fun c =>
    let g := f.glyph c
    [(g / 256).toUInt8, (g % 256).toUInt8]

def Face.advance (f : Face) (s : String) : Float :=
  s.toList.foldl (fun sum c => sum + (f.width (f.glyph c)).toFloat / f.unitsPerEm.toFloat) 0

/-- The PostScript name, else a family name. -/
def Face.name? (f : Face) : Option String :=
  (firstName? f.names [6]).or (firstName? f.names [16, 1])

/-- The font of a file, if it can be used; the hint names a font that has no name of its own. -/
def font? (bytes : List UInt8) (hint : String) : Option Font :=
  (face? bytes.toArray).map fun f =>
    { name := f.name?.getD hint
      identity := .ofContent bytes
      encode := f.encode
      advance := f.advance }

end SvgPage.TrueType

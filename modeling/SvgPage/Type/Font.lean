import SvgPage.Payload.Digest
import SvgPage.Payload.DataUri

/-!
# Fonts

The page looks at a font only through its name, its identity, the bytes by which it shows a text,
and how far the text advances. Two fonts with equal identities are one resource.
-/

namespace SvgPage

inductive ResourceKey where
  /-- By content. -/
  | digest (bytes : List UInt8)
  | named (name : String)
  deriving DecidableEq, Repr

namespace ResourceKey

def ofContent (bytes : List UInt8) : ResourceKey := .digest (Digest.sha256 bytes)

def text : ResourceKey → String
  | digest bytes => Digest.hex bytes
  | named name => "name:" ++ name

end ResourceKey

structure Font where
  name : String
  identity : ResourceKey
  /-- The bytes of a text, as a text operator shows it. -/
  encode : String → List UInt8
  /-- How far a text moves the pen, in units of the font size. -/
  advance : String → Float

namespace Font

/-- Without metrics, every character is six tenths wide. -/
def plainAdvance (s : String) : Float := s.length.toFloat * 0.6

/-- A font known by its name alone, which shows text in its Unicode encoding. -/
def byName (name : String) : Font :=
  { name := name
    identity := .named name
    encode := fun s => DataUri.utf8 s.toList
    advance := plainAdvance }

/-- Single-byte encoding of western text; what it lacks becomes a question mark. -/
def westernByte (c : Char) : UInt8 :=
  let n := c.toNat
  if n ≤ 0x7F ∨ (0xA0 ≤ n ∧ n ≤ 0xFF) then n.toUInt8
  else
    match n with
    | 0x20AC => 0x80
    | 0x201A => 0x82
    | 0x0192 => 0x83
    | 0x201E => 0x84
    | 0x2026 => 0x85
    | 0x2020 => 0x86
    | 0x2021 => 0x87
    | 0x02C6 => 0x88
    | 0x2030 => 0x89
    | 0x0160 => 0x8A
    | 0x2039 => 0x8B
    | 0x0152 => 0x8C
    | 0x017D => 0x8E
    | 0x2018 => 0x91
    | 0x2019 => 0x92
    | 0x201C => 0x93
    | 0x201D => 0x94
    | 0x2022 => 0x95
    | 0x2013 => 0x96
    | 0x2014 => 0x97
    | 0x02DC => 0x98
    | 0x2122 => 0x99
    | 0x0161 => 0x9A
    | 0x203A => 0x9B
    | 0x0153 => 0x9C
    | 0x017E => 0x9E
    | 0x0178 => 0x9F
    | _ => 0x3F

/-- The font that every viewer has. -/
def helvetica : Font :=
  { name := "Helvetica"
    identity := .named "Helvetica"
    encode := fun s => s.toList.map westernByte
    advance := plainAdvance }

end Font

end SvgPage

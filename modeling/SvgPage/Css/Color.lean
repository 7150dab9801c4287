import SvgPage.Css.ColorName
import SvgPage.Css.Mixture

/-!
# Colours

A colour is four octets, a shade of some space, or one that is only known in its surroundings.
Shades of the standard space and of its hues are kept as octets, unless something in them is absent;
what is absent counts as zero where octets are written.
-/

namespace SvgPage.Css

structure Octets where
  red : UInt8
  green : UInt8
  blue : UInt8
  alpha : UInt8
  deriving DecidableEq, Repr

inductive Color where
  | octets (o : Octets)
  | spaced (space : Space) (shade : Shade)
  | current
  | system (name : String)
  /-- One colour on a light page and another on a dark one. -/
  | lightDark (light dark : Color)
  deriving BEq

namespace Octets

def nearest (x : Float32) : UInt8 := (clampTo 0 255 (x * 255).round).toUInt8

def ofStandard (v : Shade) : Octets :=
  let v := Space.srgb.fit v
  ⟨nearest v.c₁, nearest v.c₂, nearest v.c₃, nearest v.alpha⟩

def shade (o : Octets) : Shade :=
  let fraction (b : UInt8) : Float32 := Float32.ofNat b.toNat / 255
  ⟨fraction o.red, fraction o.green, fraction o.blue, fraction o.alpha⟩

end Octets

def Space.hasOctets (s : Space) : Bool := s = .rgb || s = .srgb || s = .hsl || s = .hwb

namespace Color

def ofNumber (rgb : Nat) : Color :=
  .octets ⟨(rgb / 65536).toUInt8, (rgb / 256 % 256).toUInt8, (rgb % 256).toUInt8, 255⟩

/-- Three, four, six or eight hexadecimal digits. -/
def ofHex? (cs : List Char) : Option Color :=
  if cs.all Token.isHexDigit then
    let v := cs.map Token.hexValue
    match v with
    | [r, g, b] => some (.octets ⟨(17 * r).toUInt8, (17 * g).toUInt8, (17 * b).toUInt8, 255⟩)
    | [r, g, b, a] =>
      some (.octets ⟨(17 * r).toUInt8, (17 * g).toUInt8, (17 * b).toUInt8, (17 * a).toUInt8⟩)
    | [r, r', g, g', b, b'] =>
      some (.octets ⟨(16 * r + r').toUInt8, (16 * g + g').toUInt8, (16 * b + b').toUInt8, 255⟩)
    | [r, r', g, g', b, b', a, a'] =>
      some (.octets ⟨(16 * r + r').toUInt8, (16 * g + g').toUInt8, (16 * b + b').toUInt8,
        (16 * a + a').toUInt8⟩)
    | _ => none
  else none

def ofWord? (word : String) : Option Color :=
  let word := String.ofList (Text.lower word.toList)
  if word = "currentcolor" then some .current
  else if word = "transparent" then some (.octets ⟨0, 0, 0, 0⟩)
  else
    match colorNamed? word with
    | some rgb => some (ofNumber rgb)
    | none => if systemColorNames.contains word then some (.system word) else none

/-- The octets of a shade of a space that is derived from the standard one. -/
def octetsOf (space : Space) (v : Shade) : Octets := Octets.ofStandard (space.convert .srgb v)

/-- A shade as a colour of its own, where nothing absent is to be kept. -/
def ofShade (space : Space) (v : Shade) : Color :=
  if space.hasOctets then .octets (octetsOf space v) else .spaced space v

/-- The shade with its space, unless it depends on the surroundings. -/
def shade? : Color → Option (Space × Shade)
  | .octets o => some (.srgb, o.shade)
  | .spaced space v => some (space, v)
  | _ => none

def inSpace? (c : Color) (space : Space) : Option Shade :=
  c.shade?.map fun (s, v) => s.convert space v

def onLight : Color → Color
  | .lightDark light _ => light
  | c => c

def onDark : Color → Color
  | .lightDark _ dark => dark
  | c => c

/-- One colour for light pages and one for dark pages, neither of which has a choice in it. -/
def choice (light dark : Color) : Color := .lightDark light.onLight dark.onDark

def isChoice : Color → Bool
  | .lightDark _ _ => true
  | _ => false

/-- A colour as it takes part in a mixture. One that comes from another space is brought into the
gamut and loses what cannot be seen. -/
def ingredient? (space : Space) (c : Color) : Option Shade :=
  c.shade?.map fun (s, v) =>
    let own := s = space || (s = .rgb && space = .srgb)
    let v := s.convert space v
    if own then v else space.seen (space.into v)

def mixPlain? (space : Space) (path : HuePath) (p : Float32) (c : Color) (q : Float32) (d : Color) :
    Option Color := do
  let v ← c.ingredient? space
  let w ← d.ingredient? space
  some (ofShade space (space.mix path p v q w))

def mix? (space : Space) (path : HuePath) (p : Float32) (c : Color) (q : Float32) (d : Color) :
    Option Color :=
  if c.isChoice || d.isChoice then do
    some (.lightDark (← mixPlain? space path p c.onLight q d.onLight)
      (← mixPlain? space path p c.onDark q d.onDark))
  else mixPlain? space path p c q d

def hexByte (b : UInt8) : List Char :=
  let ds := Nat.toDigits 16 b.toNat
  if ds.length < 2 then '0' :: ds else ds

/-- Digits, each pair shortened to one where every pair is a double. -/
def hexText (bytes : List UInt8) : List Char :=
  let pairs := bytes.map hexByte
  if pairs.all (fun p => p.head? == p.getLast?) then '#' :: pairs.flatMap (·.take 1)
  else '#' :: pairs.flatten

def octetsText (o : Octets) : List Char :=
  if o.alpha = 255 then
    match shortNameOf? (o.red.toNat * 65536 + o.green.toNat * 256 + o.blue.toNat) with
    | some n => n.toList
    | none => hexText [o.red, o.green, o.blue]
  else hexText [o.red, o.green, o.blue, o.alpha]

def coordinateText (x : Float32) : List Char := if x.isNaN then "none".toList else numberText x

def alphaText (alpha : Float32) : List Char :=
  if alpha == 1 then [] else " / ".toList ++ coordinateText alpha

def lightnessText (scale l : Float32) : List Char :=
  if l.isNaN then "none".toList else percentText (l / scale)

/-- Lightness as a share of its scale, and two plain numbers. -/
def lightText (name : String) (scale : Float32) (v : Shade) : List Char :=
  name.toList ++ '(' :: Text.join [' ']
    [lightnessText scale v.c₁, coordinateText v.c₂, coordinateText v.c₃] ++
    alphaText v.alpha ++ [')']

def namedText (name : String) (v : Shade) : List Char :=
  "color(".toList ++ Text.join [' ']
    [name.toList, coordinateText v.c₁, coordinateText v.c₂, coordinateText v.c₃] ++
    alphaText v.alpha ++ [')']

def shadeText (space : Space) (v : Shade) : List Char :=
  match space with
  | .rgb => octetsText (octetsOf .rgb v)
  | .hsl => octetsText (octetsOf .hsl v)
  | .hwb => octetsText (octetsOf .hwb v)
  | .srgb => namedText "srgb" v
  | .srgbLinear => namedText "srgb-linear" v
  | .displayP3 => namedText "display-p3" v
  | .a98 => namedText "a98-rgb" v
  | .prophoto => namedText "prophoto-rgb" v
  | .rec2020 => namedText "rec2020" v
  | .xyzD50 => namedText "xyz-d50" v
  | .xyzD65 => namedText "xyz" v
  | .lab => lightText "lab" 100 v
  | .lch => lightText "lch" 100 v
  | .oklab => lightText "oklab" 1 v
  | .oklch => lightText "oklch" 1 v

def text : Color → List Char
  | .octets o => octetsText o
  | .spaced space v => shadeText space v
  | .current => "currentColor".toList
  | .system name => name.toList
  | .lightDark light dark =>
    "light-dark(".toList ++ light.text ++ ',' :: ' ' :: dark.text ++ [')']

end Color

end SvgPage.Css

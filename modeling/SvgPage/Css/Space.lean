import SvgPage.Css.Expression

/-!
# Colour spaces

A shade is three coordinates in a space and an opacity. The spaces form a tree whose root is the
space of tristimulus values for daylight; a conversion climbs to the first space that both lines
share and comes down again. A coordinate that is not a number is absent, and counts as zero as soon
as it is converted. All arithmetic is in single precision.

A shade outside the gamut of its space is brought in by lowering its chroma until clipping it makes
no visible difference.
-/

namespace SvgPage.Css

inductive Space where
  /-- Red, green and blue up to 255. -/
  | rgb
  | hsl
  | hwb
  | srgb
  | srgbLinear
  | displayP3
  | a98
  | prophoto
  | rec2020
  | xyzD50
  | xyzD65
  | lab
  | lch
  | oklab
  | oklch
  deriving DecidableEq, Repr

structure Shade where
  c₁ : Float32
  c₂ : Float32
  c₃ : Float32
  alpha : Float32
  deriving BEq, Repr

def clampTo (low high x : Float32) : Float32 :=
  if x < low then low else if high < x then high else x

/-- Zero in the place of what is not a number. -/
def present (x : Float32) : Float32 := if x.isNaN then 0 else x

namespace Shade

def map (f : Float32 → Float32) (v : Shade) : Shade := ⟨f v.c₁, f v.c₂, f v.c₃, v.alpha⟩

def present (v : Shade) : Shade := { v.map Css.present with alpha := Css.present v.alpha }

def hasAbsent (v : Shade) : Bool :=
  v.c₁.isNaN || v.c₂.isNaN || v.c₃.isNaN || v.alpha.isNaN

def row (a b c : Float32) (v : Shade) : Float32 := a * v.c₁ + b * v.c₂ + c * v.c₃

/-- The product of a matrix, given by rows, with the coordinates. -/
def transform (m : (Float32 × Float32 × Float32) × (Float32 × Float32 × Float32) ×
    (Float32 × Float32 × Float32)) (v : Shade) : Shade :=
  ⟨v.row m.1.1 m.1.2.1 m.1.2.2, v.row m.2.1.1 m.2.1.2.1 m.2.1.2.2,
    v.row m.2.2.1 m.2.2.2.1 m.2.2.2.2, v.alpha⟩

end Shade

namespace Space

def signOf (x : Float32) : Float32 := if x < 0 then -1 else 1

/-- The curve of the standard space, from linear light. -/
def encodeSrgb (x : Float32) : Float32 :=
  let a := x.abs
  if 0.0031308 < a then signOf x * (1.055 * Float32.pow a (1 / 2.4) - 0.055) else 12.92 * x

def decodeSrgb (x : Float32) : Float32 :=
  let a := x.abs
  if a < 0.04045 then x / 12.92 else signOf x * Float32.pow ((a + 0.055) / 1.055) 2.4

def encodeA98 (x : Float32) : Float32 := signOf x * Float32.pow x.abs (256 / 563)

def decodeA98 (x : Float32) : Float32 := signOf x * Float32.pow x.abs (563 / 256)

def encodeProphoto (x : Float32) : Float32 :=
  if 1 / 512 ≤ x.abs then signOf x * Float32.pow x.abs (1 / 1.8) else 16 * x

def decodeProphoto (x : Float32) : Float32 :=
  if x.abs ≤ 16 / 512 then x / 16 else signOf x * Float32.pow x.abs 1.8

def encodeRec2020 (x : Float32) : Float32 :=
  if 0.018053968510807 < x.abs then
    signOf x * (1.09929682680944 * Float32.pow x.abs 0.45 - (1.09929682680944 - 1))
  else 4.5 * x

def decodeRec2020 (x : Float32) : Float32 :=
  if x.abs < 0.018053968510807 * 4.5 then x / 4.5
  else signOf x * Float32.pow ((x.abs + 1.09929682680944 - 1) / 1.09929682680944) (1 / 0.45)

def linearToXyz : Shade → Shade :=
  Shade.transform ((0.41239079926595934, 0.357584339383878, 0.1804807884018343),
    (0.21263900587151027, 0.715168678767756, 0.07219231536073371),
    (0.01933081871559182, 0.11919477979462598, 0.9505321522496607))

def xyzToLinear : Shade → Shade :=
  Shade.transform ((3.2409699419045226, -1.537383177570094, -0.4986107602930034),
    (-0.9692436362808796, 1.8759675015077202, 0.04155505740717559),
    (0.05563007969699366, -0.20397695888897652, 1.0569715142428786))

def p3ToXyz : Shade → Shade :=
  Shade.transform ((0.4865709486482162, 0.26566769316909306, 0.1982172852343625),
    (0.2289745640697488, 0.6917385218365064, 0.079286914093745),
    (0, 0.04511338185890264, 1.043944368900976))

def xyzToP3 : Shade → Shade :=
  Shade.transform ((2.493496911941425, -0.9313836179191239, -0.40271078445071684),
    (-0.8294889695615747, 1.7626640603183463, 0.023624685841943577),
    (0.03584583024378447, -0.07617238926804182, 0.9568845240076872))

def a98ToXyz : Shade → Shade :=
  Shade.transform ((0.5766690429101305, 0.1855582379065463, 0.1882286462349947),
    (0.29734497525053605, 0.6273635662554661, 0.07529145849399788),
    (0.02703136138641234, 0.07068885253582723, 0.9913375368376388))

def xyzToA98 : Shade → Shade :=
  Shade.transform ((2.0415879038107465, -0.5650069742788596, -0.34473135077832956),
    (-0.9692436362808795, 1.8759675015077202, 0.04155505740717557),
    (0.013444280632031142, -0.11836239223101838, 1.0151749943912054))

def prophotoToXyz : Shade → Shade :=
  Shade.transform ((0.7977604896723027, 0.13518583717574031, 0.0313493495815248),
    (0.2880711282292934, 0.7118432178101014, 0.00008565396060525902),
    (0, 0, 0.8251046025104601))

def xyzToProphoto : Shade → Shade :=
  Shade.transform ((1.3457989731028281, -0.25558010007997534, -0.05110628506753401),
    (-0.5446224939028347, 1.5082327413132781, 0.02053603239147973),
    (0, 0, 1.2119675456389454))

def rec2020ToXyz : Shade → Shade :=
  Shade.transform ((0.6369580483012914, 0.14461690358620832, 0.1688809751641721),
    (0.2627002120112671, 0.6779980715188708, 0.05930171646986196),
    (0, 0.028072693049087428, 1.060985057710791))

def xyzToRec2020 : Shade → Shade :=
  Shade.transform ((1.716651187971268, -0.355670783776392, -0.253366281373660),
    (-0.666684351832489, 1.616481236634939, 0.0157685458139111),
    (0.017639857445311, -0.042770613257809, 0.942103121235474))

/-- From the white of the printing industry to daylight. -/
def warmToDaylight : Shade → Shade :=
  Shade.transform ((0.9554734527042182, -0.023098536874261423, 0.0632593086610217),
    (-0.028369706963208136, 1.0099954580058226, 0.021041398966943008),
    (0.012314001688319899, -0.020507696433477912, 1.3303659366080753))

def daylightToWarm : Shade → Shade :=
  Shade.transform ((1.0479298208405488, 0.022946793341019088, -0.05019222954313557),
    (0.029627815688159344, 0.990434484573249, -0.01707382502938514),
    (-0.009243058152591178, 0.015055144896577895, 0.7518742899580008))

def oklabToCones : Shade → Shade :=
  Shade.transform ((0.99999999845051981432, 0.39633779217376785678, 0.21580375806075880339),
    (1.0000000088817607767, -0.1055613423236563494, -0.063854174771705903402),
    (1.0000000546724109177, -0.089484182094965759684, -1.2914855378640917399))

def conesToXyz : Shade → Shade :=
  Shade.transform ((1.2268798733741557, -0.5578149965554813, 0.28139105017721583),
    (-0.04057576262431372, 1.1122868293970594, -0.07171106666151701),
    (-0.07637294974672142, -0.4214933239627914, 1.5869240244272418))

def xyzToCones : Shade → Shade :=
  Shade.transform ((0.8190224432164319, 0.3619062562801221, -0.12887378261216414),
    (0.0329836671980271, 0.9292868468965546, 0.03614466816999844),
    (0.048177199566046255, 0.26423952494422764, 0.6335478258136937))

def conesToOklab : Shade → Shade :=
  Shade.transform ((0.2104542553, 0.7936177850, -0.0040720468),
    (1.9779984951, -2.4285922050, 0.4505937099),
    (0.0259040371, 0.7827717662, -0.8086757660))

def cube (x : Float32) : Float32 := x * x * x

/-- The end of the linear part of lightness. -/
def darkest : Float32 := 216 / 24389

def slope : Float32 := 24389 / 27

def labToXyz (v : Shade) : Shade :=
  let f₁ := (v.c₁ + 16) / 116
  let f₀ := v.c₂ / 500 + f₁
  let f₂ := f₁ - v.c₃ / 200
  let x := if darkest < cube f₀ then cube f₀ else (116 * f₀ - 16) / slope
  let y := if slope * darkest < v.c₁ then cube ((v.c₁ + 16) / 116) else v.c₁ / slope
  let z := if darkest < cube f₂ then cube f₂ else (116 * f₂ - 16) / slope
  ⟨x * 0.9642956764295677, y, z * 0.8251046025104602, v.alpha⟩

def xyzToLab (v : Shade) : Shade :=
  let root (x : Float32) : Float32 := if darkest < x then x.cbrt else (slope * x + 16) / 116
  let f₀ := root (v.c₁ / 0.9642956764295677)
  let f₁ := root v.c₂
  let f₂ := root (v.c₃ / 0.8251046025104602)
  ⟨116 * f₁ - 16, 500 * (f₀ - f₁), 200 * (f₁ - f₂), v.alpha⟩

def halfTurn : Float32 := 3.1415927

def fromPolar (v : Shade) : Shade :=
  ⟨v.c₁, v.c₂ * (v.c₃ * halfTurn / 180).cos, v.c₂ * (v.c₃ * halfTurn / 180).sin, v.alpha⟩

def toPolar (v : Shade) : Shade :=
  let h := Float32.atan2 v.c₃ v.c₂ * 180 / halfTurn
  let h := if h < 0 then h + 360 else h
  ⟨v.c₁, (v.c₂ * v.c₂ + v.c₃ * v.c₃).sqrt, Expression.remainder h 360, v.alpha⟩

def hueChannel (m₁ m₂ h : Float32) : Float32 :=
  let h := if h < 0 then h + 3 else h
  let h := if 3 < h then h - 3 else h
  if h * 2 < 1 then m₁ + (m₂ - m₁) * h * 2
  else if h * 2 < 3 then m₂
  else if h < 2 then m₁ + (m₂ - m₁) * (2 - h) * 2
  else m₁

/-- Hue in degrees with saturation and lightness in hundredths, as red, green and blue. -/
def fromHue (v : Shade) : Shade :=
  let hue := (v.c₁ - 360 * (v.c₁ / 360).floor) / 360
  let s := v.c₂ / 100
  let l := v.c₃ / 100
  let m₂ := if l ≤ 0.5 then l * (s + 1) else l + s - l * s
  let m₁ := l * 2 - m₂
  let h := hue * 3
  ⟨hueChannel m₁ m₂ (h + 1), hueChannel m₁ m₂ h, hueChannel m₁ m₂ (h - 1), v.alpha⟩

def greatest (v : Shade) : Float32 := max v.c₁ (max v.c₂ v.c₃)

def least (v : Shade) : Float32 := min v.c₁ (min v.c₂ v.c₃)

/-- Shades of gray have no hue. -/
def toHue (v : Shade) : Shade :=
  let high := greatest v
  let low := least v
  let l := (low + high) / 2
  let d := high - low
  if d == 0 then ⟨0 / 0, 0, l * 100, v.alpha⟩
  else
    let s := if l == 0 || l == 1 then 0 else (high - l) / min l (1 - l)
    let h :=
      if high == v.c₁ then (v.c₂ - v.c₃) / d + (if v.c₂ < v.c₃ then 6 else 0)
      else if high == v.c₂ then (v.c₃ - v.c₁) / d + 2
      else (v.c₁ - v.c₂) / d + 4
    ⟨h * 60, s * 100, l * 100, v.alpha⟩

/-- Hue with shares of white and black, in hundredths, as red, green and blue. -/
def fromWhiteness (v : Shade) : Shade :=
  let w := v.c₂ / 100
  let k := v.c₃ / 100
  if 1 ≤ w + k then
    let gray := w / (w + k)
    ⟨gray, gray, gray, v.alpha⟩
  else (fromHue ⟨v.c₁, 100, 50, v.alpha⟩).map fun x => x * (1 - w - k) + w

def toWhiteness (v : Shade) : Shade :=
  ⟨(toHue v).c₁, least v * 100, (1 - greatest v) * 100, v.alpha⟩

/-- A space, the one it is derived from, and so on to the root. -/
def lineage : Space → List Space
  | .rgb => [.rgb, .srgb, .srgbLinear, .xyzD65]
  | .hsl => [.hsl, .srgb, .srgbLinear, .xyzD65]
  | .hwb => [.hwb, .srgb, .srgbLinear, .xyzD65]
  | .srgb => [.srgb, .srgbLinear, .xyzD65]
  | .srgbLinear => [.srgbLinear, .xyzD65]
  | .displayP3 => [.displayP3, .xyzD65]
  | .a98 => [.a98, .xyzD65]
  | .prophoto => [.prophoto, .xyzD50, .xyzD65]
  | .rec2020 => [.rec2020, .xyzD65]
  | .xyzD50 => [.xyzD50, .xyzD65]
  | .xyzD65 => [.xyzD65]
  | .lab => [.lab, .xyzD50, .xyzD65]
  | .lch => [.lch, .lab, .xyzD50, .xyzD65]
  | .oklab => [.oklab, .xyzD65]
  | .oklch => [.oklch, .oklab, .xyzD65]

/-- One step towards the root. -/
def climb (s : Space) (v : Shade) : Shade :=
  match s with
  | .rgb => v.map (· / 255)
  | .hsl => fromHue v.present
  | .hwb => fromWhiteness v.present
  | .srgb => v.present.map decodeSrgb
  | .srgbLinear => linearToXyz v.present
  | .displayP3 => p3ToXyz (v.present.map decodeSrgb)
  | .a98 => a98ToXyz (v.present.map decodeA98)
  | .prophoto => prophotoToXyz (v.present.map decodeProphoto)
  | .rec2020 => rec2020ToXyz (v.present.map decodeRec2020)
  | .xyzD50 => warmToDaylight v.present
  | .xyzD65 => v
  | .lab => labToXyz v.present
  | .lch => fromPolar v.present
  | .oklab => conesToXyz ((oklabToCones v.present).map cube)
  | .oklch => fromPolar v.present

/-- One step away from the root. A hue is taken after the shade was made to fit. -/
def descend (fit : Shade → Shade) (s : Space) (v : Shade) : Shade :=
  match s with
  | .rgb => v.map (· * 255)
  | .hsl => toHue (fit v)
  | .hwb => toWhiteness (fit v)
  | .srgb => v.present.map encodeSrgb
  | .srgbLinear => xyzToLinear v.present
  | .displayP3 => (xyzToP3 v.present).map encodeSrgb
  | .a98 => (xyzToA98 v.present).map encodeA98
  | .prophoto => (xyzToProphoto v.present).map encodeProphoto
  | .rec2020 => (xyzToRec2020 v.present).map encodeRec2020
  | .xyzD50 => daylightToWarm v.present
  | .xyzD65 => v
  | .lab => xyzToLab v.present
  | .lch => toPolar v.present
  | .oklab => conesToOklab ((xyzToCones v.present).map Float32.cbrt)
  | .oklch => toPolar v.present

/-- Up to the first space of both lines and down again. -/
def route (fit : Shade → Shade) (s t : Space) (v : Shade) : Shade :=
  let up := s.lineage.takeWhile (!t.lineage.contains ·)
  let down := (t.lineage.takeWhile (!s.lineage.contains ·)).reverse
  down.foldl (fun v s => descend fit s v) (up.foldl (fun v s => climb s v) v)

/-- The greatest value of a light, where there is one. -/
def top? : Space → Option Float32
  | .rgb => some 255
  | .srgb => some 1
  | .srgbLinear => some 1
  | .displayP3 => some 1
  | .a98 => some 1
  | .prophoto => some 1
  | .rec2020 => some 1
  | _ => none

def hasShares (s : Space) : Bool := s = .hsl || s = .hwb

def holds (s : Space) (v : Shade) : Bool :=
  let within (top x : Float32) : Bool := 0 ≤ x && x ≤ top
  if s.hasShares then within 100 v.c₂ && within 100 v.c₃
  else
    match s.top? with
    | some top => within top v.c₁ && within top v.c₂ && within top v.c₃
    | none => true

/-- Each coordinate brought into its range. -/
def clip (s : Space) (v : Shade) : Shade :=
  let alpha := clampTo 0 1 v.alpha
  if s.hasShares then
    ⟨Expression.remainder v.c₁ 360, clampTo 0 100 v.c₂, clampTo 0 100 v.c₃, alpha⟩
  else
    match s.top? with
    | some top => { v.map (clampTo 0 top) with alpha := alpha }
    | none => v

def difference (v w : Shade) : Float32 :=
  let l := v.c₁ - w.c₁
  let a := v.c₂ - w.c₂
  let b := v.c₃ - w.c₃
  (l * l + a * a + b * b).sqrt

/-- Halves an interval of chroma until its ends meet, or until clipping is not seen. -/
def reduce (convert : Space → Space → Shade → Shade) (s : Space) :
    Nat → Float32 → Float32 → Shade → Shade
  | 0, _, _, v => convert .oklch s v
  | fuel + 1, low, high, v =>
    if 0.00001 < high - low then
      let middle := (low + high) / 2
      let v := { v with c₂ := middle }
      let w := convert .oklch s v
      if s.holds w then reduce convert s fuel middle high v
      else
        let clipped := s.clip w
        if difference (convert s .oklab clipped) (convert .oklch .oklab v) < 0.02 then clipped
        else reduce convert s fuel low middle v
    else convert .oklch s v

/-- A shade of the same lightness and hue in the gamut; white and black take all that is lighter
or darker. -/
def lower (convert : Space → Space → Shade → Shade) (s : Space) (v : Shade) : Shade :=
  let w := convert s .oklch v
  if (w.c₁ - 1).abs < 0.00001 || 1 < w.c₁ then convert .oklch s ⟨1, 0, 0, w.alpha⟩
  else if w.c₁ < 0.00001 then convert .oklch s ⟨0, 0, 0, w.alpha⟩
  else reduce convert s 128 0 w.c₂ w

def fitStandard (v : Shade) : Shade :=
  let v := v.present
  if holds .srgb v then v else lower (route id) .srgb v

def convert : Space → Space → Shade → Shade := route fitStandard

def into (s : Space) (v : Shade) : Shade := if s.holds v then v else lower convert s v

def fit (s : Space) (v : Shade) : Shade := s.into v.present

end Space

end SvgPage.Css

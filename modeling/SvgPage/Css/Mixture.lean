import SvgPage.Css.Space

/-!
# Mixing shades

Two shades of one space are mixed in given amounts. A coordinate that only one of them has counts
for both; so does a hue that cannot be seen in one of them. Lights and shares are weighted by
opacity, hues go round the circle on one of several paths. Amounts that add up to less than one
leave the mixture transparent.
-/

namespace SvgPage.Css

/-- Which way a hue goes round from one angle to another. -/
inductive HuePath where
  | shorter
  | longer
  | increasing
  | decreasing
  | specified
  deriving DecidableEq, Repr

namespace HuePath

def ofWord? : String → Option HuePath
  | "shorter" => some .shorter
  | "longer" => some .longer
  | "increasing" => some .increasing
  | "decreasing" => some .decreasing
  | "specified" => some .specified
  | _ => none

def wrap (h : Float32) : Float32 :=
  Expression.remainder (Expression.remainder h 360 + 360) 360

/-- Two angles such that the way from one to the other is a straight one. -/
def unroll (path : HuePath) (h k : Float32) : Float32 × Float32 :=
  if path = .specified then (h, k)
  else
    let h := wrap h
    let k := wrap k
    let d := k - h
    match path with
    | .shorter => if 180 < d then (h + 360, k) else if d < -180 then (h, k + 360) else (h, k)
    | .longer =>
      if 0 < d && d < 180 then (h + 360, k)
      else if -180 < d && d ≤ 0 then (h, k + 360)
      else (h, k)
    | .increasing => if k < h then (h, k + 360) else (h, k)
    | .decreasing => if h < k then (h + 360, k) else (h, k)
    | .specified => (h, k)

end HuePath

namespace Shade

/-- What is absent is taken from another shade. -/
def fill (v w : Shade) : Shade :=
  let take (x y : Float32) : Float32 := if x.isNaN then y else x
  ⟨take v.c₁ w.c₁, take v.c₂ w.c₂, take v.c₃ w.c₃, take v.alpha w.alpha⟩

def blend (p : Float32) (v : Shade) (q : Float32) (w : Shade) : Shade :=
  ⟨v.c₁ * p + w.c₁ * q, v.c₂ * p + w.c₂ * q, v.c₃ * p + w.c₃ * q, v.alpha * p + w.alpha * q⟩

end Shade

namespace Space

def ofMixtureWord? : String → Option Space
  | "srgb" => some .srgb
  | "srgb-linear" => some .srgbLinear
  | "lab" => some .lab
  | "oklab" => some .oklab
  | "xyz" => some .xyzD65
  | "xyz-d50" => some .xyzD50
  | "xyz-d65" => some .xyzD65
  | "hsl" => some .hsl
  | "hwb" => some .hwb
  | "lch" => some .lch
  | "oklch" => some .oklch
  | _ => none

/-- Where the hue is, if there is one. -/
inductive HuePlace where
  | none
  | first
  | third
  deriving DecidableEq, Repr

def huePlace (s : Space) : HuePlace :=
  match s with
  | .hsl => .first
  | .hwb => .first
  | .lch => .third
  | .oklch => .third
  | _ => .none

def tiny : Float32 := 1.1920929e-7

/-- Takes away what cannot be seen: the hue of a gray, and all but the lightness of black. -/
def seen (s : Space) (v : Shade) : Shade :=
  let absent : Float32 := 0 / 0
  let isZero (x : Float32) : Bool := x.abs < tiny
  match s with
  | .lab => if isZero v.c₁ then { v with c₂ := absent, c₃ := absent } else v
  | .oklab => if isZero v.c₁ then { v with c₂ := absent, c₃ := absent } else v
  | .lch => polar absent isZero
  | .oklch => polar absent isZero
  | .hsl =>
    if isZero v.c₃ || isZero (v.c₃ - 100) then { v with c₁ := absent, c₂ := absent }
    else if isZero v.c₂ then { v with c₁ := absent }
    else v
  | .hwb => if isZero (v.c₂ + v.c₃ - 100) then { v with c₁ := absent } else v
  | _ => v
where
  polar (absent : Float32) (isZero : Float32 → Bool) : Shade :=
    if isZero v.c₁ then { v with c₂ := absent, c₃ := absent }
    else if isZero v.c₂ then { v with c₃ := absent }
    else v

/-- A change to each coordinate other than a hue. -/
def mapLights (s : Space) (f : Float32 → Float32) (v : Shade) : Shade :=
  match s.huePlace with
  | .none => v.map f
  | .first => ⟨v.c₁, f v.c₂, f v.c₃, v.alpha⟩
  | .third => ⟨f v.c₁, f v.c₂, v.c₃, v.alpha⟩

def weigh (s : Space) (v : Shade) : Shade :=
  if v.alpha.isNaN then v else s.mapLights (· * v.alpha) v

/-- Takes the weight off a mixture, which then gets its share of opacity. -/
def unweigh (s : Space) (share : Float32) (v : Shade) : Shade :=
  let light (v : Shade) : Shade :=
    { s.mapLights (· / v.alpha) v with alpha := v.alpha * share }
  match s.huePlace with
  | .none => if v.alpha.isNaN || v.alpha == 0 then v else light v
  | .first =>
    let v := { v with c₁ := Expression.remainder v.c₁ 360 }
    if v.alpha.isNaN then v else light v
  | .third =>
    let v := { v with c₃ := Expression.remainder v.c₃ 360 }
    if v.alpha.isNaN then v else light v

def unroll (s : Space) (path : HuePath) (v w : Shade) : Shade × Shade :=
  match s.huePlace with
  | .none => (v, w)
  | .first =>
    let (h, k) := path.unroll v.c₁ w.c₁
    ({ v with c₁ := h }, { w with c₁ := k })
  | .third =>
    let (h, k) := path.unroll v.c₃ w.c₃
    ({ v with c₃ := h }, { w with c₃ := k })

def mix (s : Space) (path : HuePath) (p : Float32) (v : Shade) (q : Float32) (w : Shade) : Shade :=
  let v := v.fill w
  let w := w.fill v
  let (v, w) := s.unroll path v w
  let total := p + q
  let (p, q) := if total == 1 then (p, q) else (p / total, q / total)
  let share := if 1 < total then 1 else total
  s.unweigh share ((s.weigh v).blend p q (s.weigh w))

end Space

end SvgPage.Css

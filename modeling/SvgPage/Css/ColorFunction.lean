import SvgPage.Css.Amount
import SvgPage.Css.Color

/-!
# Colour functions

Functions of coordinates in a space, of two colours that are mixed, and of a colour for each kind of
page. A function of coordinates may start from another colour; then words stand for the coordinates
of that colour, and math functions may use them. A keyword `none` among the arguments is an absent
coordinate.
-/

namespace SvgPage.Css

namespace Space

def names : Space → String × String × String
  | .rgb => ("r", "g", "b")
  | .hsl => ("h", "s", "l")
  | .hwb => ("h", "w", "b")
  | .xyzD50 => ("x", "y", "z")
  | .xyzD65 => ("x", "y", "z")
  | .lab => ("l", "a", "b")
  | .lch => ("l", "c", "h")
  | .oklab => ("l", "a", "b")
  | .oklch => ("l", "c", "h")
  | _ => ("r", "g", "b")

def ofWord? : String → Option Space
  | "srgb" => some .srgb
  | "srgb-linear" => some .srgbLinear
  | "display-p3" => some .displayP3
  | "a98-rgb" => some .a98
  | "prophoto-rgb" => some .prophoto
  | "rec2020" => some .rec2020
  | "xyz-d50" => some .xyzD50
  | "xyz" => some .xyzD65
  | "xyz-d65" => some .xyzD65
  | _ => none

end Space

structure Origin where
  space : Space
  shade : Shade

namespace Origin

def of (space : Space) (v : Shade) : Origin :=
  let turned (h : Float32) : Float32 :=
    let h := Expression.remainder h 360
    if h < 0 then h + 360 else h
  match space.huePlace with
  | .none => ⟨space, v⟩
  | .first => ⟨space, { v with c₁ := turned v.c₁ }⟩
  | .third => ⟨space, { v with c₃ := turned v.c₃ }⟩

/-- What a word stands for where a hue is expected. -/
def hueNamed? (o : Origin) (word : String) : Option Float32 :=
  let (a, b, c) := o.space.names
  if word = a then some o.shade.c₁
  else if word = b then some o.shade.c₂
  else if word = c then some o.shade.c₃
  else none

def coordinateNamed? (o : Origin) (word : String) : Option Float32 :=
  if word = "alpha" then some o.shade.alpha
  else if word = "h" then none
  else o.hueNamed? word

def shareNamed? (o : Origin) (word : String) : Option Float32 :=
  if word = "alpha" then some o.shade.alpha else none

end Origin

namespace Color

/-- An argument of a colour function: a number, a percentage as a fraction, or `none`. -/
inductive Coordinate where
  | number (x : Float32)
  | fraction (x : Float32)
  | absent

def notANumber : Float32 := 0 / 0

def Coordinate.over (basis : Float32) : Coordinate → Float32
  | .number x => x
  | .fraction x => x * basis
  | .absent => notANumber

/-- A coordinate that uses the names of an origin. -/
def derived? (o : Origin) : Reader Coordinate := fun cs =>
  match next? cs with
  | some (.token (.ident w), rest) =>
    (o.coordinateNamed? (String.ofList (Text.lower w.toList))).map fun x => (.number x, rest)
  | some (.function name inside, rest) =>
    let numbers : Words := fun w => (o.coordinateNamed? w).map .number
    let shares : Words := fun w => (o.shareNamed? w).map fun x => .quantity (.percentage x)
    match Expression.ofFunctionWith? numbers .number name inside,
      Expression.ofFunctionWith? shares .percentage name inside with
    | some (.number x), _ => some (.number x, rest)
    | _, some (.quantity (.percentage x)) => some (.fraction x, rest)
    | _, _ => none
  | _ => none

def coordinate? (origin : Option Origin) : Reader Coordinate :=
  Reader.first ((origin.map derived?).toList ++
    [number?.map .number, percentage?.map .fraction, (keyword? ["none"]).map fun _ => .absent])

def derivedHue? (o : Origin) : Reader Float32 := fun cs =>
  match next? cs with
  | some (.token (.ident w), rest) =>
    (o.hueNamed? (String.ofList (Text.lower w.toList))).map (·, rest)
  | some (.function name inside, rest) =>
    let angles : Words := fun w => (o.hueNamed? w).map fun x => .quantity (.dimension x "deg")
    let numbers : Words := fun w => (o.hueNamed? w).map .number
    match Expression.ofFunctionWith? angles .angle name inside,
      Expression.ofFunctionWith? numbers .number name inside with
    | some (.quantity q), _ => q.degrees?.map (·, rest)
    | some (.number x), _ => some (x, rest)
    | _, some (.number x) => some (x, rest)
    | _, _ => none
  | _ => none

def hue? (origin : Option Origin) : Reader Float32 :=
  Reader.first ((origin.map derivedHue?).toList ++
    [(angle? false).map fun q => q.degrees?.getD 0, number?,
      (keyword? ["none"]).map fun _ => notANumber])

def oldAlpha? : List Component → Option Float32
  | [] => some 1
  | rest => do
    let (_, rest) ← comma? rest
    let (c, rest) ← coordinate? none rest
    if rest.isEmpty then some (clampTo 0 1 (c.over 1)) else none

def newAlpha? (origin : Option Origin) : List Component → Option Float32
  | [] => some 1
  | rest => do
    let (_, rest) ← slash? rest
    let (c, rest) ← coordinate? origin rest
    if rest.isEmpty then some (clampTo 0 1 (c.over 1)) else none

/-- A shade kept as octets, unless something in it is absent. -/
def settled (space : Space) (v : Shade) : Color :=
  if v.hasAbsent then .spaced space v else ofShade space v

def wholeOctet (x : Float32) : Float32 := clampTo 0 255 x.round

def channel : Coordinate → Float32
  | .number x => wholeOctet x
  | .fraction x => clampTo 0 1 x * 255
  | .absent => notANumber

def rgb? (origin : Option Origin) (args : List Component) : Option Color := do
  let (red, rest) ← coordinate? origin args
  match red, comma? rest with
  | .number r, some (_, rest) => do
    if origin.isSome then none
    let (g, rest) ← number? rest
    let (_, rest) ← comma? rest
    let (b, rest) ← number? rest
    let alpha ← oldAlpha? rest
    some (settled .rgb ⟨wholeOctet r, wholeOctet g, wholeOctet b, alpha⟩)
  | .fraction r, some (_, rest) => do
    if origin.isSome then none
    let (g, rest) ← percentage? rest
    let (_, rest) ← comma? rest
    let (b, rest) ← percentage? rest
    let alpha ← oldAlpha? rest
    some (settled .rgb ⟨wholeOctet (r * 255), wholeOctet (g * 255), wholeOctet (b * 255), alpha⟩)
  | red, _ => do
    let (green, rest) ← coordinate? origin rest
    let (blue, rest) ← coordinate? origin rest
    let alpha ← newAlpha? origin rest
    some (settled .rgb ⟨channel red, channel green, channel blue, alpha⟩)

def hundredths (c : Coordinate) : Float32 := clampTo 0 100 (c.over 100)

/-- Hue and two shares, in the older notation where it is allowed, or in the newer one. -/
def hueAndShares? (older : Bool) (origin : Option Origin) (args : List Component) :
    Option Shade := do
  let (h, rest) ← hue? origin args
  match older && origin.isNone && !h.isNaN, comma? rest with
  | true, some (_, rest) => do
    let (a, rest) ← coordinate? none rest
    let (_, rest) ← comma? rest
    let (b, rest) ← coordinate? none rest
    let alpha ← oldAlpha? rest
    if (a.over 100).isNaN || (b.over 100).isNaN then none
    else some ⟨h, hundredths a, hundredths b, alpha⟩
  | _, _ => do
    let (a, rest) ← coordinate? origin rest
    let (b, rest) ← coordinate? origin rest
    let alpha ← newAlpha? origin rest
    some ⟨h, hundredths a, hundredths b, alpha⟩

def nonnegative (x : Float32) : Float32 := if x < 0 then 0 else x

def opponent? (space : Space) (lightness chroma : Float32) (origin : Option Origin)
    (args : List Component) : Option Color := do
  let (l, rest) ← coordinate? origin args
  let (a, rest) ← coordinate? origin rest
  let (b, rest) ← coordinate? origin rest
  let alpha ← newAlpha? origin rest
  some (.spaced space ⟨nonnegative (l.over lightness), a.over chroma, b.over chroma, alpha⟩)

def polar? (space : Space) (lightness chroma : Float32) (origin : Option Origin)
    (args : List Component) : Option Color := do
  let (l, rest) ← coordinate? origin args
  let (c, rest) ← coordinate? origin rest
  let (h, rest) ← hue? origin rest
  let alpha ← newAlpha? origin rest
  some (.spaced space
    ⟨nonnegative (l.over lightness), nonnegative (c.over chroma), h, alpha⟩)

def named? (space : Space) (origin : Option Origin) (args : List Component) : Option Color := do
  let (a, rest) ← coordinate? origin args
  let (b, rest) ← coordinate? origin rest
  let (c, rest) ← coordinate? origin rest
  let alpha ← newAlpha? origin rest
  some (.spaced space ⟨a.over 1, b.over 1, c.over 1, alpha⟩)

/-- The function of a space, with the space in which an origin is measured. -/
def ofCoordinates? : String →
    Option (Space × (Option Origin → List Component → Option Color))
  | "rgb" => some (.rgb, rgb?)
  | "rgba" => some (.rgb, rgb?)
  | "hsl" => some (.hsl, fun o args => (hueAndShares? true o args).map (settled .hsl))
  | "hsla" => some (.hsl, fun o args => (hueAndShares? true o args).map (settled .hsl))
  | "hwb" => some (.hwb, fun o args => (hueAndShares? false o args).map (settled .hwb))
  | "lab" => some (.lab, opponent? .lab 100 125)
  | "oklab" => some (.oklab, opponent? .oklab 1 0.4)
  | "lch" => some (.lch, polar? .lch 100 150)
  | "oklch" => some (.oklch, polar? .oklch 1 0.4)
  | _ => none

/-- What a function of coordinates starts from. -/
inductive Base where
  | nothing
  | origin (o : Origin)
  /-- One origin on a light page and another on a dark one. -/
  | either (light dark : Origin)

namespace Base

/-- The base that a colour is; its shades are first made to fit. -/
def ofColor? (space : Space) (fit : Shade → Shade) (c : Color) : Option Base :=
  let origin? (c : Color) : Option Origin := (c.inSpace? space).map fun v => .of space (fit v)
  if c.isChoice then do some (.either (← origin? c.onLight) (← origin? c.onDark))
  else (origin? c).map .origin

def build? (join : α → α → α) (build : Option Origin → Option α) : Base → Option α
  | .nothing => build none
  | .origin o => build (some o)
  | .either light dark => do some (join (← build (some light)) (← build (some dark)))

end Base

def source? : List Component → Option (Component × List Component)
  | .token (.ident w) :: c :: rest =>
    if Text.lower w.toList == "from".toList then some (c, rest) else none
  | _ => none

def method? (args : List Component) : Option (Space × HuePath) := do
  let (_, rest) ← keyword? ["in"] args
  let (name, rest) ← word? rest
  let space ← Space.ofMixtureWord? name
  if rest.isEmpty then some (space, .shorter)
  else
    let (w, rest) ← word? rest
    let path ← HuePath.ofWord? w
    let (_, rest) ← keyword? ["hue"] rest
    if rest.isEmpty && space.huePlace ≠ .none then some (space, path) else none

def amount? : Component → Option Float32
  | .token (.percentage n) => some n.fraction
  | _ => none

/-- A colour with its amount, which may stand on either side. -/
def portion? : List Component → Option (Component × Option Float32)
  | [c] => some (c, none)
  | [a, b] =>
    match amount? a, amount? b with
    | some p, _ => some (b, some p)
    | none, some p => some (a, some p)
    | none, none => none
  | _ => none

/-- Two amounts, where a missing one is what the other one leaves of the whole. -/
def amounts? (p q : Option Float32) : Option (Float32 × Float32) :=
  let (p, q) :=
    match p, q with
    | none, none => (0.5, 0.5)
    | some p, none => (p, 1 - p)
    | none, some q => (1 - q, q)
    | some p, some q => (p, q)
  if p + q == 0 then none else some (p, q)

mutual

def ofFunctionWithin? : Nat → String → List Component → Option Color
  | 0, _, _ => none
  | fuel + 1, name, inside =>
    let args := Component.solid inside
    match String.ofList (Text.lower name.toList) with
    | "color" =>
      match source? args with
      | some (c, rest) => do
        let c ← ofComponentWithin? fuel c
        let (name, rest) ← word? rest
        let space ← Space.ofWord? name
        let base ← Base.ofColor? space Shade.present c
        base.build? choice (named? space · rest)
      | none => do
        let (name, rest) ← word? args
        let space ← Space.ofWord? name
        named? space none rest
    | "color-mix" =>
      match splitCommas args with
      | [method, first, second] => do
        let (space, path) ← method? method
        let (c, p) ← portion? first
        let (d, q) ← portion? second
        let (p, q) ← amounts? p q
        let c ← ofComponentWithin? fuel c
        let d ← ofComponentWithin? fuel d
        mix? space path p c q d
      | _ => none
    | "light-dark" =>
      match splitCommas args with
      | [[light], [dark]] => do
        some (choice (← ofComponentWithin? fuel light) (← ofComponentWithin? fuel dark))
      | _ => none
    | name => do
      let (space, read?) ← ofCoordinates? name
      match source? args with
      | some (c, rest) => do
        let c ← ofComponentWithin? fuel c
        let base ← Base.ofColor? space space.fit c
        base.build? choice (read? · rest)
      | none => read? none args

def ofComponentWithin? : Nat → Component → Option Color
  | 0, _ => none
  | fuel + 1, c =>
    match c with
    | .token (.hash h) => ofHex? h.toList
    | .token (.ident word) => ofWord? word
    | .function name inside => ofFunctionWithin? fuel name inside
    | _ => none

end

def ofComponent? (c : Component) : Option Color := ofComponentWithin? (2 * c.weight + 1) c

def ofFunction? (name : String) (inside : List Component) : Option Color :=
  ofComponent? (.function name inside)

def read? (cs : List Char) : Option Color :=
  match Component.solid (Component.ofText cs) with
  | [c] => ofComponent? c
  | _ => none

/-- The base of the arguments of a function, and the arguments after it. -/
def base? (space : Space) (args : List Component) : Option (Base × List Component) :=
  match source? args with
  | some (c, rest) => do
    let base ← Base.ofColor? space space.fit (← ofComponent? c)
    some (base, rest)
  | none => some (.nothing, args)

end Color

def color? : Reader Color := fun cs =>
  (next? cs).bind fun (c, rest) => (Color.ofComponent? c).map (·, rest)

end SvgPage.Css

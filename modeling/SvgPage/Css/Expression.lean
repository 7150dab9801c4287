import SvgPage.Css.Quantity

/-!
# Math expressions

Sums, multiples and math functions of quantities. An expression is reduced while it is built: terms
that share a unit are added up, and a function whose arguments can be compared is evaluated. What
is left prints as `calc(…)` or as the function.
-/

namespace SvgPage.Css

inductive Rounding where
  | nearest
  | up
  | down
  | towardZero
  deriving DecidableEq, Repr

inductive MathFunction where
  | calc
  | least
  | greatest
  | clamp
  | round (strategy : Rounding)
  | remainder
  | modulo
  | size
  | sign
  | hypotenuse
  deriving DecidableEq, Repr

inductive Expression where
  | quantity (q : Quantity)
  | number (x : Float32)
  | sum (a b : Expression)
  | multiple (x : Float32) (e : Expression)
  | apply (f : MathFunction) (arguments : List Expression)
  deriving BEq, Repr

namespace Expression

def zero : Expression := .quantity (.dimension 0 "px")

def isZero : Expression → Bool
  | .quantity q => q.isZero
  | _ => false

def isNegative : Expression → Bool
  | .quantity q => Css.isNegative q.amount
  | .number x => Css.isNegative x
  | _ => false

def isPositive : Expression → Bool
  | .quantity q => !Css.isNegative q.amount
  | .number x => !Css.isNegative x
  | _ => false

def isQuantity : Expression → Bool
  | .quantity _ => true
  | _ => false

def terms : Expression → Nat
  | .sum a b => terms a + terms b + 1
  | _ => 1

/-- A multiple, with the factor as far inside as it goes. -/
def scale (k : Float32) (e : Expression) : Expression := if k == 1 then e else go e
where
  go : Expression → Expression
    | .quantity q => .quantity (q.scale k)
    | .number x => .number (x * k)
    | .sum a b => .sum (go a) (go b)
    | .multiple x e => if x * k == 1 then e else .multiple (x * k) e
    | .apply .calc [e] => .apply .calc [go e]
    | e => .multiple k e

/-- Two terms side by side: nothing is written for zero, and the positive one comes first. -/
def beside (a b : Expression) : Expression :=
  if a.isZero then b
  else if b.isZero then a
  else if a.isNegative && b.isPositive then .sum b a
  else .sum a b

mutual

/-- A sum in which a term of one side is added to a term of the other; none if no two share a
unit. -/
def merge? : Nat → Expression → Expression → Option Expression
  | 0, _, _ => none
  | _ + 1, .quantity p, .quantity q => (p.combine? (· + ·) q).map .quantity
  | fuel + 1, .sum a₁ a₂, b =>
    match merge? fuel a₁ b with
    | some r => some (join fuel r a₂)
    | none => (merge? fuel a₂ b).map (join fuel a₁)
  | fuel + 1, .quantity p, .sum b₁ b₂ =>
    match merge? fuel (.quantity p) b₁ with
    | some r => some (join fuel r b₂)
    | none => (merge? fuel (.quantity p) b₂).map (join fuel b₁)
  | _ + 1, _, _ => none

def join : Nat → Expression → Expression → Expression
  | 0, a, b => .sum a b
  | fuel + 1, a, b => (merge? fuel a b).getD (beside a b)

end

/-- A plain number joins a plain number of a sum; other sums are of quantities. -/
def add (a b : Expression) : Expression :=
  match a, b with
  | .number x, .number y => .number (x + y)
  | .sum (.number x) a₂, .number y => .sum (.number (x + y)) a₂
  | .sum a₁ (.number x), .number y => .sum a₁ (.number (x + y))
  | .quantity _, .quantity _ => join (a.terms + b.terms + 2) a b
  | .quantity _, .sum _ _ => join (a.terms + b.terms + 2) a b
  | .sum _ _, .quantity _ => join (a.terms + b.terms + 2) a b
  | .sum _ _, .sum _ _ => join (a.terms + b.terms + 2) a b
  | _, _ => .sum a b

/-- How two numbers, or two quantities of one unit, stand to each other. -/
def compare? : Expression → Expression → Option Ordering
  | .number x, .number y => order? x y
  | .quantity p, .quantity q => (p.common? q).bind fun (x, y, _) => order? x y
  | _, _ => none
where
  order? (x y : Float32) : Option Ordering :=
    if x < y then some .lt else if y < x then some .gt else if x == y then some .eq else none

/-- Puts an argument of a minimum or maximum in the place of the first one that it can be compared
with, if it wins. -/
def place (wins : Ordering) (e : Expression) : List Expression → List Expression
  | [] => [e]
  | d :: ds =>
    match compare? e d with
    | some o => if o = wins then e :: ds else d :: ds
    | none => d :: place wins e ds

def extreme (f : MathFunction) (wins : Ordering) (es : List Expression) : Expression :=
  match es.foldl (fun kept e => place wins e kept) [] with
  | [e] => e
  | kept => .apply f kept

/-- Between two bounds, of which the lower one wins. A bound that is known not to matter is left
out. -/
def clamped (low center high : Expression) : Expression :=
  let (center, high?) : Expression × Option Expression :=
    match order? center high with
    | some .gt => (high, none)
    | some _ => (center, none)
    | none => (center, some high)
  let (center, low?) : Expression × Option Expression :=
    match order? center low with
    | some .lt => (low, none)
    | some _ => (center, none)
    | none => (center, some low)
  match low?, high? with
  | none, none => center
  | some low, none => .apply .greatest [low, center]
  | none, some high => .apply .least [center, high]
  | some low, some high => .apply .clamp [low, center, high]
where
  order? (a b : Expression) : Option Ordering :=
    if a.isQuantity && b.isQuantity then compare? a b else none

def operate (f : MathFunction) (op : Float32 → Float32 → Float32) (a b : Expression) :
    Expression :=
  match a, b with
  | .number x, .number y => .number (op x y)
  | .quantity p, .quantity q => ((p.combine? op q).map .quantity).getD (.apply f [a, b])
  | _, _ => .apply f [a, b]

/-- An operation on a number or on the number before a unit. What a percentage is a share of may
be negative, so it is left alone. -/
def transform? (op : Float32 → Float32) : Expression → Option Expression
  | .number x => some (.number (op x))
  | .quantity (.dimension x unit) => some (.quantity (.dimension (op x) unit))
  | _ => none

def truncate (x : Float32) : Float32 := if x < 0 then x.ceil else x.floor

def roundTo (strategy : Rounding) (x step : Float32) : Float32 :=
  let q := x / step
  let r :=
    match strategy with
    | .nearest => q.round
    | .up => q.ceil
    | .down => q.floor
    | .towardZero => truncate q
  r * step

/-- What division by whole steps leaves, with the sign of the first number; it is exact. -/
def remainder (x step : Float32) : Float32 :=
  match Binary.ofSingle x, Binary.ofSingle step with
  | .finite negative m e, .finite _ n k =>
    if n = 0 then 0 / 0
    else
      let low := min e k
      let r := m * Nat.pow 2 (e - low).toNat % (n * Nat.pow 2 (k - low).toNat)
      let size := (Float32.ofNat r).scaleB low
      if negative then -size else size
  | .finite _ _ _, .infinite _ => x
  | _, _ => 0 / 0

/-- What division by whole steps leaves, with the sign of the step. -/
def modulo (x step : Float32) : Float32 := remainder (remainder x step + step) step

def hypotenuse (x y : Float32) : Float32 :=
  (x.toFloat * x.toFloat + y.toFloat * y.toFloat).sqrt.toFloat32

/-- The length of a vector, or none if its components do not share a unit. -/
def norm? : List Expression → Option Expression
  | [] => none
  | [e] => some e
  | [a, b] =>
    match operate .hypotenuse hypotenuse a b with
    | .apply _ _ => none
    | e => some e
  | first :: rest =>
    (rest.foldl (fun total? e => total?.bind fun total => squared? total e)
      (transform? (fun x => x * x) first)).bind (transform? Float32.sqrt)
where
  squared? (total e : Expression) : Option Expression :=
    match operate .hypotenuse (fun x y => x + y * y) total e with
    | .apply _ _ => none
    | e => some e

def signOf (x : Float32) : Float32 := if x < 0 then -1 else if 0 < x then 1 else x

def signum (e : Expression) : Expression :=
  match e with
  | .number x => .number (signOf x)
  | .quantity (.dimension x _) => .number (signOf x)
  | _ => .apply .sign [e]

def name : MathFunction → String
  | .calc => "calc"
  | .least => "min"
  | .greatest => "max"
  | .clamp => "clamp"
  | .round _ => "round"
  | .remainder => "rem"
  | .modulo => "mod"
  | .size => "abs"
  | .sign => "sign"
  | .hypotenuse => "hypot"

/-- A way of rounding other than to the nearest is named first. -/
def strategyText : MathFunction → List (List Char)
  | .round .up => ["up".toList]
  | .round .down => ["down".toList]
  | .round .towardZero => ["to-zero".toList]
  | _ => []

mutual

/-- The text of a part of an expression, where a length of zero needs its unit. -/
def partText : Expression → List Char
  | .quantity q => q.fullText
  | .number x => numberText x
  | .sum a b =>
    let signed : List Char :=
      match b with
      | .quantity q =>
        if Css.isNegative q.amount then " - ".toList ++ (q.scale (-1)).fullText
        else " + ".toList ++ q.fullText
      | .number x =>
        if Css.isNegative x then " - ".toList ++ numberText (-x) else " + ".toList ++ numberText x
      | b => " + ".toList ++ partText b
    partText a ++ signed
  | .multiple x e =>
    if x.abs < 1 then partText e ++ " / ".toList ++ numberText (1 / x)
    else numberText x ++ " * ".toList ++ partText e
  | .apply f es =>
    (name f).toList ++ '(' :: Text.join [',', ' '] (strategyText f ++ partTexts es) ++ [')']

def partTexts : List Expression → List (List Char)
  | [] => []
  | e :: es => partText e :: partTexts es

end

def text : Expression → List Char
  | .quantity q => q.text
  | e => e.partText

/-- The text where pixels go without saying. -/
def bareText : Expression → List Char
  | .quantity (.dimension x "px") => numberText x
  | e => e.text

end Expression

end SvgPage.Css

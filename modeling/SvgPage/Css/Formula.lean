import SvgPage.Css.Expression
import SvgPage.Css.Reader

/-!
# Reading math expressions

A sum has white space on both sides of its signs; a product needs a number on one side, and division
a number other than zero on the right. Trigonometry, powers and logarithms are evaluated at once, so
their arguments must come down to numbers or angles. Words may stand for values; those that stand
for numbers keep their meaning in every argument.
-/

namespace SvgPage.Css

abbrev Words := String → Option Expression

/-- Words without those that a test refuses. -/
def Words.only (words : Words) (test : Expression → Bool) : Words := fun w =>
  (words w).bind fun e => if test e then some e else none

def Words.none : Words := fun _ => Option.none

/-- What an expression is to come to; plain numbers may occur as factors everywhere. -/
inductive Kind where
  | number
  | percentage
  | angle
  | length
  | lengthPercentage
  | anglePercentage
  deriving DecidableEq, Repr

def Kind.accepts (kind : Kind) (q : Quantity) : Bool :=
  match kind, q with
  | .percentage, .percentage _ => true
  | .lengthPercentage, .percentage _ => true
  | .anglePercentage, .percentage _ => true
  | .length, q => q.measure? = some .length
  | .lengthPercentage, q => q.measure? = some .length
  | .angle, q => q.measure? = some .angle
  | .anglePercentage, q => q.measure? = some .angle
  | _, _ => false

namespace Expression

def constant? : String → Option Float32
  | "e" => some 2.718281828459
  | "pi" => some 3.14159265358979
  | "infinity" => some (1 / 0)
  | "-infinity" => some (-1 / 0)
  | "nan" => some (0 / 0)
  | _ => none

def leaf? (kind : Kind) (t : Token) : Option Quantity :=
  let q? : Option Quantity :=
    match t with
    | .percentage n => some (.percentage n.fraction)
    | .dimension n unit => Quantity.ofDimension? n.single unit
    | _ => none
  q?.bind fun q => if kind.accepts q then some q else none

/-- The sign of the next term, where white space comes before it. -/
def sign? (cs : List Component) : Option (Bool × List Component) :=
  match cs.dropWhile isComment with
  | .token (.blank _) :: rest =>
    match next? rest with
    | some (.token (.delim '+'), rest) => some (false, rest)
    | some (.token (.delim '-'), rest) => some (true, rest)
    | _ => none
  | _ => none
where
  isComment : Component → Bool
    | .token (.comment _) => true
    | _ => false

def strategy? (cs : List Component) : Option Rounding :=
  (Reader.whole? word? cs).bind fun w =>
    match w with
    | "nearest" => some .nearest
    | "up" => some .up
    | "down" => some .down
    | "to-zero" => some .towardZero
    | _ => none

def isNumber : Expression → Bool
  | .number _ => true
  | _ => false

/-- A plain number or an angle. -/
def isTurn : Expression → Bool
  | .number _ => true
  | .quantity q => q.measure? = some .angle
  | _ => false

def ofRadians? (kind : Kind) (radians : Float32) : Option Expression :=
  if radians.isNaN then some (.number radians)
  else
    let q := Quantity.dimension radians "rad"
    if kind.accepts q then some (.quantity q) else none

def trigonometry? : String → Option (Float32 → Float32)
  | "sin" => some Float32.sin
  | "cos" => some Float32.cos
  | "tan" => some Float32.tan
  | _ => none

def inverse? : String → Option (Float32 → Float32)
  | "asin" => some Float32.asin
  | "acos" => some Float32.acos
  | "atan" => some Float32.atan
  | _ => none

mutual

def sum? : Nat → Words → Kind → Reader Expression
  | 0, _, _, _ => none
  | fuel + 1, words, kind, cs =>
    (product? fuel words kind cs).bind fun (e, rest) => terms? fuel words kind e rest

def terms? : Nat → Words → Kind → Expression → Reader Expression
  | 0, _, _, _, _ => none
  | fuel + 1, words, kind, total, cs =>
    match sign? cs with
    | some (negative, rest) =>
      (product? fuel words kind rest).bind fun (e, rest) =>
        terms? fuel words kind (total.add (if negative then e.scale (-1) else e)) rest
    | none => some (total, cs)

def product? : Nat → Words → Kind → Reader Expression
  | 0, _, _, _ => none
  | fuel + 1, words, kind, cs =>
    (factor? fuel words kind cs).bind fun (e, rest) => factors? fuel words kind e rest

def factors? : Nat → Words → Kind → Expression → Reader Expression
  | 0, _, _, _, _ => none
  | fuel + 1, words, kind, total, cs =>
    match next? cs with
    | some (.token (.delim '*'), rest) =>
      (factor? fuel words kind rest).bind fun (e, rest) =>
        match e, total with
        | .number x, total => factors? fuel words kind (total.scale x) rest
        | e, .number x => factors? fuel words kind (e.scale x) rest
        | _, _ => none
    | some (.token (.delim '/'), rest) =>
      (factor? fuel words kind rest).bind fun (e, rest) =>
        match e with
        | .number x => if x == 0 then none else factors? fuel words kind (total.scale (1 / x)) rest
        | _ => none
    | _ => some (total, cs)

def factor? : Nat → Words → Kind → Reader Expression
  | 0, _, _, _ => none
  | fuel + 1, words, kind, cs =>
    (next? cs).bind fun (c, rest) =>
      match c with
      | .function name inside =>
        (function? fuel words kind name inside).map fun e =>
          match e with
          | .apply .calc [e] => (e, rest)
          | e => (e, rest)
      | .block .round inside => (whole? fuel words kind inside).map (·, rest)
      | .token (.number n) => some (.number n.single, rest)
      | .token (.ident w) =>
        let w := String.ofList (Text.lower w.toList)
        (((constant? w).map .number).or (words w)).map (·, rest)
      | .token t => (leaf? kind t).map fun q => (.quantity q, rest)
      | _ => none

def whole? : Nat → Words → Kind → List Component → Option Expression
  | 0, _, _, _ => none
  | fuel + 1, words, kind, cs =>
    (sum? fuel words kind cs).bind fun (e, rest) => if isDone rest then some e else none

def all? : Nat → Words → Kind → List (List Component) → Option (List Expression)
  | 0, _, _, _ => none
  | _ + 1, _, _, [] => some []
  | fuel + 1, words, kind, part :: parts =>
    (whole? fuel words kind part).bind fun e => (all? fuel words kind parts).map (e :: ·)

def plain? : Nat → Words → List Component → Option Float32
  | 0, _, _ => none
  | fuel + 1, words, cs =>
    match whole? fuel (words.only isNumber) .number cs with
    | some (.number x) => some x
    | _ => none

/-- The angle of a point, whose two coordinates share a unit. -/
def atan2? : Nat → List Kind → List Component → List Component → Option Float32
  | 0, _, _, _ => none
  | _ + 1, [], _, _ => none
  | fuel + 1, kind :: kinds, y, x =>
    match whole? fuel .none kind y, whole? fuel .none kind x with
    | some (.number b), some (.number a) => some (Float32.atan2 b a)
    | some (.quantity q), some (.quantity p) =>
      match q.common? p with
      | some (b, a, _) => some (Float32.atan2 b a)
      | none => atan2? fuel kinds y x
    | _, _ => atan2? fuel kinds y x

def function? : Nat → Words → Kind → String → List Component → Option Expression
  | 0, _, _, _, _ => none
  | fuel + 1, words, kind, name, inside =>
    let name := String.ofList (Text.lower name.toList)
    let parts := splitCommas inside
    match name, parts with
    | "calc", _ =>
      (whole? fuel words kind inside).map fun e =>
        match e with
        | .quantity q => .quantity q
        | .number x => .number x
        | e => .apply .calc [e]
    | "min", _ => (all? fuel words kind parts).map (extreme .least .lt)
    | "max", _ => (all? fuel words kind parts).map (extreme .greatest .gt)
    | "clamp", [a, b, c] => do
      some (clamped (← whole? fuel words kind a) (← whole? fuel words kind b)
        (← whole? fuel words kind c))
    | "round", [a, b] => do
      some (operate (.round .nearest) (roundTo .nearest) (← whole? fuel words kind a)
        (← whole? fuel words kind b))
    | "round", [s, a, b] => do
      let strategy ← strategy? s
      some (operate (.round strategy) (roundTo strategy) (← whole? fuel words kind a)
        (← whole? fuel words kind b))
    | "rem", [a, b] => do
      some (operate .remainder remainder (← whole? fuel words kind a) (← whole? fuel words kind b))
    | "mod", [a, b] => do
      some (operate .modulo modulo (← whole? fuel words kind a) (← whole? fuel words kind b))
    | "abs", _ =>
      (whole? fuel words kind inside).map fun e =>
        (transform? Float32.abs e).getD (.apply .size [e])
    | "sign", _ => (whole? fuel words kind inside).map signum
    | "hypot", _ =>
      (all? fuel words kind parts).map fun es => (norm? es).getD (.apply .hypotenuse es)
    | "pow", [a, b] => do
      some (.number (Float32.pow (← plain? fuel words a) (← plain? fuel words b)))
    | "log", [a] => (plain? fuel words a).map fun x => .number x.log
    | "log", [a, b] => do some (.number ((← plain? fuel words a).log / (← plain? fuel words b).log))
    | "sqrt", _ => (plain? fuel words inside).map fun x => .number x.sqrt
    | "exp", _ => (plain? fuel words inside).map fun x => .number x.exp
    | "atan2", [y, x] =>
      match atan2? fuel [.length, .percentage, .angle] y x with
      | some r => ofRadians? kind r
      | none => do ofRadians? kind (Float32.atan2 (← plain? fuel words y) (← plain? fuel words x))
    | _, _ =>
      match trigonometry? name, inverse? name with
      | some f, _ =>
        match whole? fuel (words.only isTurn) .angle inside with
        | some (.number x) => some (.number (f x))
        | some (.quantity q) => q.radians?.map fun x => .number (f x)
        | _ => none
      | none, some f =>
        match whole? fuel (words.only isTurn) .angle inside with
        | some (.number x) => ofRadians? kind (f x)
        | _ => none
      | none, none => none

end

def ofFunctionWith? (words : Words) (kind : Kind) (name : String) (inside : List Component) :
    Option Expression :=
  function? (6 * Component.count inside + 12) words kind name inside

def ofFunction? : Kind → String → List Component → Option Expression := ofFunctionWith? .none

end Expression

end SvgPage.Css

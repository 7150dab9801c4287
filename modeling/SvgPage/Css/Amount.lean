import SvgPage.Css.Formula

/-!
# Amounts

Readers for the numeric types of properties. Each takes a plain token or a math function that comes
to the same kind of value. Lengths may stay expressions, since their units need a context; numbers,
percentages and angles may not.
-/

namespace SvgPage.Css

def number? : Reader Float32 := fun cs =>
  match next? cs with
  | some (.token (.number n), rest) => some (n.single, rest)
  | some (.function name inside, rest) =>
    match Expression.ofFunction? .number name inside with
    | some (.number x) => some (x, rest)
    | _ => none
  | _ => none

def percentage? : Reader Float32 := fun cs =>
  match next? cs with
  | some (.token (.percentage n), rest) => some (n.fraction, rest)
  | some (.function name inside, rest) =>
    match Expression.ofFunction? .percentage name inside with
    | some (.quantity (.percentage f)) => some (f, rest)
    | _ => none
  | _ => none

/-- An angle; where asked, zero needs no unit. -/
def angle? (bareZero : Bool) : Reader Quantity := fun cs =>
  match next? cs with
  | some (.token (.number n), rest) =>
    if bareZero && n.single == 0 then some (.dimension 0 "deg", rest) else none
  | some (.token t, rest) => (Expression.leaf? .angle t).map (·, rest)
  | some (.function name inside, rest) =>
    match Expression.ofFunction? .angle name inside with
    | some (.quantity q) => some (q, rest)
    | _ => none
  | _ => none

def expression? (kind : Kind) : Reader Expression := fun cs =>
  match next? cs with
  | some (.token t, rest) => (Expression.leaf? kind t).map fun q => (.quantity q, rest)
  | some (.function name inside, rest) =>
    (Expression.ofFunction? kind name inside).map (·, rest)
  | _ => none

/-- A length, where a bare number counts pixels. -/
def lengthOf? (kind : Kind) : Reader Expression := fun cs =>
  match next? cs with
  | some (.token (.number n), rest) => some (.quantity (.dimension n.single "px"), rest)
  | _ => expression? kind cs

def length? : Reader Expression := lengthOf? .length

def lengthPercentage? : Reader Expression := lengthOf? .lengthPercentage

def anglePercentage? : Reader Expression := expression? .anglePercentage

inductive Proportion where
  | number (x : Float32)
  | percentage (fraction : Float32)
  deriving BEq, Repr

def Proportion.value : Proportion → Float32
  | .number x => x
  | .percentage f => f

def Proportion.text : Proportion → List Char
  | .number x => numberText x
  | .percentage f => percentText f

def proportion? : Reader Proportion :=
  Reader.first [number?.map .number, percentage?.map .percentage]

end SvgPage.Css

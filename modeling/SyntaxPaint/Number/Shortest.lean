import SyntaxPaint.Number.Binary64

/-!
The shortest decimal for a floating-point number: the fewest digits that still round to it and,
among decimals with that many digits, the nearest one.
-/

namespace SyntaxPaint.Binary64

def leadingPower (num den : Nat) : Int :=
  if den ≤ num then (Nat.toDigits 10 (num / den)).length - 1
  else -(Nat.toDigits 10 ((den - 1) / num)).length

/-- A number and the ends of the interval that rounds to it, in quarters of its last place. -/
structure Neighbourhood where
  low : Nat
  centre : Nat
  high : Nat
  closed : Bool

def neighbourhood (x : Binary64) : Neighbourhood where
  low := 4 * x.mantissa - if x.mantissa = fullMantissa ∧ minExponent < x.exponent then 1 else 2
  centre := 4 * x.mantissa
  high := 4 * x.mantissa + 2
  closed := x.mantissa % 2 = 0

namespace Neighbourhood

/-- Whether the interval has `d` units, of which there are `num` to `den` quarters. -/
def has (n : Neighbourhood) (num den d : Nat) : Bool :=
  if n.closed then n.low * num ≤ d * den ∧ d * den ≤ n.high * num
  else n.low * num < d * den ∧ d * den < n.high * num

def nearest? (n : Neighbourhood) (num den : Nat) : Option Nat :=
  let below := n.centre * num / den
  let best := Binary64.nearest (n.centre * num) den
  [best, below, below + 1].find? (n.has num den)

end Neighbourhood

def enoughDigits : Nat :=
  17

/-- The nearest decimal with a last digit of the given power of ten, when it rounds to `x`. -/
def decimalAt? (x : Binary64) (power : Int) : Option Nat :=
  let quarter := x.exponent - 2
  x.neighbourhood.nearest? ((1 <<< quarter.toNat) * Nat.pow 10 (-power).toNat)
    ((1 <<< (-quarter).toNat) * Nat.pow 10 power.toNat)

def shortest (x : Binary64) : List Char × Int :=
  let lead := leadingPower (x.mantissa <<< x.exponent.toNat) (1 <<< (-x.exponent).toNat)
  let powers := (List.range enoughDigits).map fun (more : Nat) => lead - more
  match powers.findSome? fun power => (x.decimalAt? power).map (·, power) with
  | some (d, power) =>
    let digits := Nat.toDigits 10 d
    ((digits.reverse.dropWhile (· = '0')).reverse, power + digits.length - 1)
  | none => ([], lead)

def zeros (n : Nat) : List Char :=
  List.replicate n '0'

def positional (digits : List Char) (power : Int) : List Char :=
  if power < 0 then '0' :: '.' :: (zeros (-power - 1).toNat ++ digits)
  else
    let whole := power.toNat + 1
    if digits.length ≤ whole then digits ++ zeros (whole - digits.length) ++ ['.', '0']
    else digits.take whole ++ '.' :: digits.drop whole

def scientific (digits : List Char) (power : Int) : List Char :=
  let point := if digits.length = 1 then digits else digits.take 1 ++ '.' :: digits.drop 1
  point ++ 'e' :: (if power < 0 then '-' else '+') :: Nat.toDigits 10 power.natAbs

def text (negative : Bool) (x : Binary64) : String :=
  let shown :=
    if x.mantissa = 0 then ['0', '.', '0']
    else
      let (digits, power) := x.shortest
      if -5 ≤ power ∧ power < 16 then positional digits power else scientific digits power
  String.ofList (if negative then '-' :: shown else shown)

end SyntaxPaint.Binary64

import SyntaxPaint.Json.Reader

/-!
Numbers of JSON. A number without a point or an exponent is an integer while sixty-four bits hold
it, and every other number is a floating-point number.
-/

namespace SyntaxPaint.Json

open Text (Bytes)

def digit? (b : UInt8) : Option Nat :=
  if '0'.toUInt8 ≤ b ∧ b ≤ '9'.toUInt8 then some (b.toNat - 48) else none

def isDigit (b : UInt8) : Bool :=
  (digit? b).isSome

def maxNatural : Nat :=
  18446744073709551615

def maxNegated : Nat :=
  9223372036854775808

def maxExponent : Nat :=
  2147483647

/-- Puts the digits that come next behind `n`, as long as sixty-four bits hold it. The result has
the number, how many digits were read on top of `count`, and the other bytes. -/
def appendDigits (n count : Nat) : Bytes → (Nat × Nat) × Bytes
  | [] => ((n, count), [])
  | b :: rest =>
    match digit? b with
    | some d =>
      if n * 10 + d ≤ maxNatural then appendDigits (n * 10 + d) (count + 1) rest
      else ((n, count), b :: rest)
    | none => ((n, count), b :: rest)

def appendExponent (n : Nat) : Bytes → Option Nat × Bytes
  | [] => (some n, [])
  | b :: rest =>
    match digit? b with
    | some d => if n * 10 + d ≤ maxExponent then appendExponent (n * 10 + d) rest else (none, rest)
    | none => (some n, b :: rest)

namespace Reader

def digitNext : Reader Bool := fun rest =>
  .ok (rest.head?.any isDigit, rest)

def digit : Reader Nat := fun rest =>
  match rest with
  | [] => stop .endOfValue rest
  | b :: rest =>
    match digit? b with
    | some d => .ok (d, rest)
    | none => stop .badNumber rest

def skipDigits : Reader Nat := fun rest =>
  .ok ((rest.takeWhile isDigit).length, rest.dropWhile isDigit)

def float (negative : Bool) (n : Nat) (power : Int) : Reader Found :=
  match Binary64.ofDecimal? n power with
  | some x => return .float negative x
  | none => stop .bigNumber

def exponentSign : Reader Bool := do
  match ← peek with
  | some '+' =>
    skip
    return false
  | some '-' =>
    skip
    return true
  | _ => return false

def exponent (negative : Bool) (n : Nat) (power : Int) : Reader Found := do
  skip
  let down ← exponentSign
  let first ← digit
  match ← fun rest => .ok (appendExponent first rest) with
  | some e => float negative n (if down then power - e else power + e)
  | none =>
    if n ≠ 0 ∧ !down then stop .bigNumber
    else
      let _ ← skipDigits
      return .float negative .zero

def floatOrExponent (negative : Bool) (n : Nat) (power : Int) : Reader Found := do
  match ← peek with
  | some 'e' | some 'E' => exponent negative n power
  | _ => float negative n power

def fraction (negative : Bool) (n : Nat) (power : Int) : Reader Found := do
  skip
  let (n, count) ← fun rest => .ok (appendDigits n 0 rest)
  let more ← skipDigits
  if count + more = 0 then
    stopPast (if (← peek).isSome then .badNumber else .endOfValue)
  else floatOrExponent negative n (power - count)

/-- The number with these digits, `more` of which are not in `n`. -/
def whole (negative : Bool) (n more : Nat) : Reader Found :=
  if more ≠ 0 ∨ (negative ∧ (n = 0 ∨ maxNegated < n)) then float negative n more
  else return .integer (if negative then -n else n)

def number : Reader Found := do
  let negative := (← peek) = some '-'
  if negative then skip
  let first ← digit
  if first = 0 then
    if ← digitNext then stopPast .badNumber
  let (n, _) ← fun rest => .ok (appendDigits first 0 rest)
  let more ← skipDigits
  match ← peek with
  | some '.' => fraction negative n more
  | some 'e' | some 'E' => exponent negative n more
  | _ => whole negative n more

end Reader

end SyntaxPaint.Json

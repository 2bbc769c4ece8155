/-!
Floating-point numbers of sixty-four bits, without their sign. `Binary64.round?` takes a ratio to
the nearest of them, and each operation rounds its exact result once.
-/

namespace SyntaxPaint

/-- The number `mantissa * 2 ^ exponent`. -/
structure Binary64 where
  mantissa : Nat
  exponent : Int
deriving DecidableEq, Repr

namespace Binary64

def minExponent : Int :=
  -1074

def maxExponent : Int :=
  971

/-- The least mantissa of fifty-three bits; only numbers of the smallest exponent have a lesser
one. -/
def fullMantissa : Nat :=
  4503599627370496

def zero : Binary64 :=
  ⟨0, minExponent⟩

/-- The natural number nearest to a ratio; of two that are equally near, the even one. -/
def nearest (num den : Nat) : Nat :=
  let low := num / den
  let twice := 2 * (num % den)
  if den < twice ∨ (den = twice ∧ low % 2 = 1) then low + 1 else low

/-- The exponent at which a positive ratio has a full mantissa, or the smallest one. -/
def exponentFor (num den : Nat) : Int :=
  let e : Int := num.log2 - den.log2 - 52
  let full := (den <<< e.toNat) * fullMantissa ≤ num <<< (-e).toNat
  max minExponent (if full then e else e - 1)

def round? (num den : Nat) : Option Binary64 :=
  if num = 0 then some zero
  else
    let e := exponentFor num den
    let mantissa := nearest (num <<< (-e).toNat) (den <<< e.toNat)
    let x : Binary64 :=
      if mantissa = 2 * fullMantissa then ⟨fullMantissa, e + 1⟩ else ⟨mantissa, e⟩
    if x.exponent ≤ maxExponent then some x else none

def roundScaled? (num den : Nat) (e : Int) : Option Binary64 :=
  round? (num <<< e.toNat) (den <<< (-e).toNat)

def mul? (x y : Binary64) : Option Binary64 :=
  roundScaled? (x.mantissa * y.mantissa) 1 (x.exponent + y.exponent)

def div? (x y : Binary64) : Option Binary64 :=
  roundScaled? x.mantissa y.mantissa (x.exponent - y.exponent)

def powerOfTen? (k : Nat) : Option Binary64 :=
  round? (Nat.pow 10 k) 1

def maxPower : Nat :=
  308

/-- A number times a power of ten, by one operation for every `maxPower` of the power. -/
def shift? (x : Binary64) (power : Int) : Option Binary64 :=
  if power.natAbs ≤ maxPower then
    (powerOfTen? power.natAbs).bind fun p => if 0 ≤ power then x.mul? p else x.div? p
  else if x.mantissa = 0 then some x
  else if 0 ≤ power then none
  else ((powerOfTen? maxPower).bind x.div?).bind fun y => y.shift? (power + maxPower)
termination_by power.natAbs
decreasing_by
  simp only [maxPower] at *
  omega

def ofDecimal? (digits : Nat) (power : Int) : Option Binary64 :=
  (round? digits 1).bind fun x => x.shift? power

end Binary64

end SyntaxPaint

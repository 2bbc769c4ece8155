import SyntaxPaint.Random.Source

/-!
The SplitMix64 generator as a source of random choices. A number below a bound is the high half of a
32-bit draw times the bound; where the low half leaves it open whether a longer draw would carry
over, a second draw decides.
-/

namespace SyntaxPaint.Random

structure SplitMix where
  state : UInt64
deriving DecidableEq, Repr

namespace SplitMix

def next (g : SplitMix) : UInt64 × SplitMix :=
  let state := g.state + 0x9E3779B97F4A7C15
  let z := (state ^^^ (state >>> 30)) * 0xBF58476D1CE4E5B9
  let z := (z ^^^ (z >>> 27)) * 0x94D049BB133111EB
  (z ^^^ (z >>> 31), ⟨state⟩)

def halfRange : Nat := 4294967296

def nextHalf (g : SplitMix) : Nat × SplitMix :=
  let drawn := g.next
  (drawn.1.toNat / halfRange, drawn.2)

theorem nextHalf_lt (g : SplitMix) : g.nextHalf.1 < halfRange := by
  have word := g.next.1.toNat_lt
  simp only [nextHalf, halfRange]
  omega

def below (bound : Nat) (g : SplitMix) : Nat × SplitMix :=
  let first := g.nextHalf
  let product := first.1 * bound
  let high := product / halfRange
  let low := product % halfRange
  if halfRange - bound < low then
    let second := first.2.nextHalf
    let carried := low + second.1 * bound / halfRange
    (if halfRange ≤ carried then high + 1 else high, second.2)
  else (high, first.2)

/-- The number that a 64-bit draw has to stay below: the odds, rounded to 53 bits, of all 64-bit
numbers. -/
def threshold : Odds → Nat
  | .fifth => 3689348814741910528
  | .quarter => 4611686018427387904
  | .twoFifths => 7378697629483821056
  | .half => 9223372036854775808
  | .sevenTenths => 12912720851596685312
  | .fourFifths => 14757395258967642112
  | .nineTenths => 16602069666338596864

def chance (odds : Odds) (g : SplitMix) : Bool × SplitMix :=
  let drawn := g.next
  (drawn.1.toNat < threshold odds, drawn.2)

instance : Source SplitMix := ⟨below, chance⟩

/-- The longer draw stays below its bound, since a high half one below the bound leaves a low half
that can not carry over. -/
theorem below_lt (bound : Nat) (g : SplitMix) (positive : 0 < bound) :
    (g.below bound).1 < bound := by
  have half := g.nextHalf_lt
  have product : g.nextHalf.1 * bound + bound ≤ halfRange * bound := by
    rw [← Nat.succ_mul]
    exact Nat.mul_le_mul_right bound half
  simp only [below]
  unfold halfRange at *
  split
  · split
    · dsimp only
      omega
    · dsimp only
      omega
  · dsimp only
    omega

instance : LawfulSource SplitMix := ⟨fun bound g => g.below_lt bound⟩

end SplitMix

end SyntaxPaint.Random

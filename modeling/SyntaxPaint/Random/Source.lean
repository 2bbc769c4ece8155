/-!
Sources of random choices. A source draws a number below a bound, or decides by given odds. A
drawing is what such choices lead to, one after the other; it has no result where it looks up an
item that is not there.
-/

namespace SyntaxPaint.Random

inductive Odds
  | fifth
  | quarter
  | twoFifths
  | half
  | sevenTenths
  | fourFifths
  | nineTenths
deriving DecidableEq, Repr

class Source (σ : Type) where
  below : (bound : Nat) → σ → Nat × σ
  chance : Odds → σ → Bool × σ

/-- A source that stays below its bounds. -/
class LawfulSource (σ : Type) [Source σ] : Prop where
  below_lt (bound : Nat) (s : σ) : 0 < bound → (Source.below bound s).1 < bound

abbrev Drawing (σ α : Type) := StateT σ Option α

/-- Draws a text; a drawing without a result gives the empty text and leaves the source alone. -/
def Drawing.text {σ : Type} (d : Drawing σ String) : StateM σ String := fun s =>
  (d s).getD ("", s)

variable {σ α : Type} [Source σ]

def below (bound : Nat) : Drawing σ Nat := fun s =>
  some (Source.below bound s)

def chance (odds : Odds) : Drawing σ Bool := fun s =>
  some (Source.chance odds s)

def between (least most : Nat) : Drawing σ Nat := do
  return least + (← below (most - least + 1))

def pick (items : List α) : Drawing σ α := do
  let index ← below items.length
  fun s => items[index]?.map (·, s)

end SyntaxPaint.Random

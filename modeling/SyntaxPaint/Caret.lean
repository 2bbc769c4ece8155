import SyntaxPaint.Error
import SyntaxPaint.Bracket.Forward
import SyntaxPaint.Bracket.Backward

/-!
Moves of a caret, which is an offset into a text or the end of it. Counts are signed, and a negative
one moves to the left. A move over characters has no result if it asks its predicate about an offset
at which the text has no character.
-/

namespace SyntaxPaint.Caret

def place (length offset : Nat) : Except Error Nat :=
  if offset ≤ length then .ok offset else fail (.invalidOffset offset length)

def maxOffset : Nat :=
  18446744073709551615

def saturatingAdd (offset : Nat) (count : Int) : Nat :=
  min (offset + count).toNat maxOffset

def moveChars (length : Nat) (count : Int) (offset : Nat) : Nat :=
  min (saturatingAdd offset count) length

def answer? {length : Nat} (p : Fin length → Bool) (offset : Nat) : Option Bool :=
  if inside : offset < length then some (p ⟨offset, inside⟩) else none

def rightWhile (length : Nat) (answer? : Nat → Option Bool) : (count offset : Nat) → Option Nat
  | 0, offset => some offset
  | count + 1, offset =>
    if offset < length then do
      if ← answer? offset then rightWhile length answer? count (offset + 1) else some offset
    else some offset

def leftWhile (answer? : Nat → Option Bool) : (count offset : Nat) → Option Nat
  | 0, offset => some offset
  | _ + 1, 0 => some 0
  | count + 1, offset + 1 => do
    if ← answer? offset then leftWhile answer? count offset else some (offset + 1)

/-- Moves over characters that satisfy `p`, at most `count` of them. -/
def moveWhile? {length : Nat} (p : Fin length → Bool) (count : Int) (offset : Nat) : Option Nat :=
  if count < 0 then leftWhile (answer? p) count.natAbs offset
  else rightWhile length (answer? p) count.natAbs offset

def moveWhile {length : Nat} (p : Fin length → Bool) (count : Int) (offset : Nat) : Nat :=
  (moveWhile? p count offset).getD offset

/-- Jumps to the matching bracket, to the right or to the left by the sign of `count`. -/
def moveBracket (table : Bracket.Table) (p : Text.Passage) (count : Int) (offset : Nat) : Nat :=
  if 0 < count then Bracket.forward table p offset
  else if count < 0 then Bracket.backward table p offset
  else offset

inductive Move (p : Text.Passage)
  | chars (count : Int)
  | across (holds : Fin p.length → Bool) (count : Int)
  | bracket (table : Bracket.Table) (count : Int)

namespace Move

variable {p : Text.Passage}

def result? (offset : Nat) : Move p → Option Nat
  | chars count => some (moveChars p.length count offset)
  | across holds count => moveWhile? holds count offset
  | bracket table count => some (moveBracket table p count offset)

def run? (moves : List (Move p)) (offset : Nat) : Option Nat :=
  moves.foldlM result? offset

end Move

end SyntaxPaint.Caret

import SyntaxPaint.Bracket.Search

/-!
The search from a caret to the left, in which right delimiters open and left ones close. Escapes
stand before what they escape, so each delimiter looks at the run of escapes to its left.
-/

namespace SyntaxPaint.Bracket

open Text (Cell Passage comparable)

namespace Backward

structure State where
  context : Option String
  stack : Stack

def start : State :=
  ⟨none, []⟩

/-- Whether an odd number of escapes precedes; the nearest cell comes first. -/
def escaped (table : Table) (context : String) (before : Passage) : Bool :=
  (before.takeWhile (escapesIn table context)).length % 2 == 1

def step (table : Table) (caret offset : Nat) (s : State) (c : Cell) (before : Passage) :
    Except Outcome State :=
  match table.find? c.code with
  | none => .ok s
  | some d =>
    let context := s.context.getD c.tag
    match d with
    | .escape => .ok ⟨some context, s.stack⟩
    | .bracket side partner =>
      if comparable c.tag context && !escaped table context before then
        (s.stack.meet .backward (offset + 1 == caret) offset c.code side partner).map
          (⟨some context, ·⟩)
      else .ok ⟨some context, s.stack⟩

def search (table : Table) (caret : Nat) : State → Nat → Passage → Outcome
  | s, offset + 1, c :: before =>
    match step table caret offset s c before with
    | .ok s => search table caret s offset before
    | .error outcome => outcome
  | s, _, _ => .exhausted (s.stack.getLast?.map Opening.offset)

end Backward

def backwardOutcome (table : Table) (p : Passage) (caret : Nat) : Outcome :=
  Backward.search table caret Backward.start caret (p.take caret).reverse

/-- Where an outcome leaves a caret that moves to the left: before what closes, and past what opens;
a mismatch and the start of the text leave it where it was. -/
def Outcome.backwardCaret (caret : Nat) : Outcome → Nat
  | matched offset | unopened offset => offset
  | stray offset | tooDeep offset => offset + 1
  | mismatched _ _ | exhausted _ => caret

def backward (table : Table) (p : Passage) (caret : Nat) : Nat :=
  let caret := min caret p.length
  (backwardOutcome table p caret).backwardCaret caret

end SyntaxPaint.Bracket

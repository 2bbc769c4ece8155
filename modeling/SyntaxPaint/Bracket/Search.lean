import SyntaxPaint.Bracket.Table
import SyntaxPaint.Text.Cell

/-!
What the two directions of a bracket search have in common: the openings that still wait for their
partners, innermost first, and what one more delimiter does to them. Inside quotes only the closing
quote is a delimiter, so quotes do not nest.
-/

namespace SyntaxPaint.Bracket

structure Opening where
  offset : Nat
  partner : Nat
  symmetric : Bool
deriving DecidableEq, Repr

/-- More openings than this are not followed. -/
def maxNesting : Nat := 10

inductive Direction
  | forward
  | backward
deriving DecidableEq, Repr

def Direction.opener : Direction → Side
  | forward => .left
  | backward => .right

inductive Outcome
  /-- The delimiter at `offset` closes the only opening. -/
  | matched (offset : Nat)
  /-- A delimiter opens first, away from the caret. -/
  | stray (offset : Nat)
  | tooDeep (offset : Nat)
  | unopened (offset : Nat)
  /-- A delimiter closes, but not the innermost opening. -/
  | mismatched (offset opening : Nat)
  | exhausted (outermost : Option Nat)
deriving DecidableEq, Repr

/-- The openings of a search, innermost first. -/
abbrev Stack := List Opening

namespace Stack

/-- Whether the innermost opening is a quote that `code` does not close. -/
def quotesOut (stack : Stack) (code : Nat) : Bool :=
  match stack with
  | [] => false
  | top :: _ => top.symmetric && top.partner != code

/-- Whether a delimiter closes; a symmetric one does if the innermost opening waits for it. -/
def closes (stack : Stack) (direction : Direction) (code : Nat) (side : Side)
    (partner : Nat) : Bool :=
  if side = .left ∧ partner = code then
    match stack with
    | [] => false
    | top :: _ => top.partner == code
  else side != direction.opener

/-- Adds an opening, which has to be at the caret if it is the first. -/
def push (stack : Stack) (atCaret : Bool) (opening : Opening) : Except Outcome Stack :=
  if stack.isEmpty && !atCaret then .error (.stray opening.offset)
  else if stack.length = maxNesting then .error (.tooDeep opening.offset)
  else .ok (opening :: stack)

def pop (stack : Stack) (offset code : Nat) : Except Outcome Stack :=
  match stack with
  | [] => .error (.unopened offset)
  | top :: rest =>
    if top.partner ≠ code then .error (.mismatched offset top.offset)
    else if rest.isEmpty then .error (.matched offset)
    else .ok rest

def meet (stack : Stack) (direction : Direction) (atCaret : Bool) (offset code : Nat) (side : Side)
    (partner : Nat) : Except Outcome Stack :=
  if stack.quotesOut code then .ok stack
  else if stack.closes direction code side partner then stack.pop offset code
  else stack.push atCaret ⟨offset, partner, side = .left ∧ partner = code⟩

end Stack

/-- Whether a cell escapes the one after it, in a search among cells of this context. -/
def escapesIn (table : Table) (context : String) (c : Text.Cell) : Bool :=
  table.find? c.code == some .escape && Text.comparable c.tag context

end SyntaxPaint.Bracket

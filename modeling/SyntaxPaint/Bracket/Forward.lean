import SyntaxPaint.Bracket.Search

/-!
The search from a caret to the right. The first delimiter fixes the context, and cells whose tag is
not comparable to it are passed over. A character after an odd number of escapes is no delimiter; as
the search walks over the escapes itself, one bit keeps their number.
-/

namespace SyntaxPaint.Bracket

open Text (Cell Passage comparable)

namespace Forward

structure State where
  context : Option String
  /-- Whether an odd number of escapes has just been passed. -/
  escaped : Bool
  stack : Stack

def start : State :=
  ⟨none, false, []⟩

def step (table : Table) (caret offset : Nat) (s : State) (c : Cell) : Except Outcome State :=
  match table.find? c.code with
  | none => .ok { s with escaped := false }
  | some d =>
    let context := s.context.getD c.tag
    if comparable c.tag context then
      match d with
      | .escape => .ok ⟨some context, !s.escaped, s.stack⟩
      | .bracket side partner =>
        if s.escaped then .ok ⟨some context, false, s.stack⟩
        else
          (s.stack.meet .forward (offset == caret) offset c.code side partner).map
            (⟨some context, false, ·⟩)
    else .ok ⟨some context, false, s.stack⟩

def search (table : Table) (caret : Nat) : State → Nat → Passage → Outcome
  | s, _, [] => .exhausted (s.stack.getLast?.map Opening.offset)
  | s, offset, c :: rest =>
    match step table caret offset s c with
    | .ok s => search table caret s (offset + 1) rest
    | .error outcome => outcome

end Forward

def forwardOutcome (table : Table) (p : Passage) (caret : Nat) : Outcome :=
  Forward.search table caret Forward.start caret (p.drop caret)

/-- Where an outcome leaves a caret that moves right: past what closes, before what opens. -/
def Outcome.forwardCaret (caret : Nat) : Outcome → Nat
  | matched offset | unopened offset => offset + 1
  | stray offset | tooDeep offset => offset
  | mismatched _ opening => opening
  | exhausted outermost => outermost.getD caret

def forward (table : Table) (p : Passage) (caret : Nat) : Nat :=
  let caret := min caret p.length
  (forwardOutcome table p caret).forwardCaret caret

end SyntaxPaint.Bracket

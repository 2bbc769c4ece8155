import SyntaxPaint.Proofs.Facing

/-!
A text that is read from its end. Without escapes, the search to the left is the search to the right
in the reversed text, with left and right delimiters exchanged: the marks are the same ones seen
from the other end, and one mark after the other does the same to openings whose places are counted
from there.
-/

namespace SyntaxPaint.Bracket

open Text (Cell Passage comparable)

/-- The side of a delimiter for a reader from the end; a quote is one for both. -/
def Side.mirror (code partner : Nat) (side : Side) : Side :=
  if side = .left ∧ partner = code then side
  else match side with
    | .left => .right
    | .right => .left

def Delimiter.mirror (code : Nat) : Delimiter → Delimiter
  | .bracket side partner => .bracket (side.mirror code partner) partner
  | .escape => .escape

def Table.mirror (table : Table) : Table :=
  ⟨table.entries.map Delimiter.mirror⟩

@[simp] theorem Table.find?_mirror (table : Table) (code : Nat) :
    table.mirror.find? code = (table.find? code).map (Delimiter.mirror code) :=
  Std.TreeMap.getElem?_map

def fromEnd (size offset : Nat) : Nat :=
  size - 1 - offset

def Opening.mirror (size : Nat) (o : Opening) : Opening :=
  { o with offset := fromEnd size o.offset }

def Mark.mirror (size : Nat) (m : Mark) : Mark :=
  ⟨fromEnd size m.offset, m.code, m.side.mirror m.code m.partner, m.partner⟩

@[simp] theorem Mark.code_mirror (size : Nat) (m : Mark) : (m.mirror size).code = m.code := rfl

@[simp] theorem Mark.partner_mirror (size : Nat) (m : Mark) :
    (m.mirror size).partner = m.partner := rfl

@[simp] theorem Mark.offset_mirror (size : Nat) (m : Mark) :
    (m.mirror size).offset = fromEnd size m.offset := rfl

def Outcome.mirror (size : Nat) : Outcome → Outcome
  | matched offset => matched (fromEnd size offset)
  | stray offset => stray (fromEnd size offset)
  | tooDeep offset => tooDeep (fromEnd size offset)
  | unopened offset => unopened (fromEnd size offset)
  | mismatched offset opening => mismatched (fromEnd size offset) (fromEnd size opening)
  | exhausted outermost => exhausted (outermost.map (fromEnd size))

def seenFromEnd (size : Nat) : Except Outcome Stack → Except Outcome Stack
  | .ok stack => .ok (stack.map (Opening.mirror size))
  | .error outcome => .error (outcome.mirror size)

theorem conclusion_seenFromEnd (size : Nat) (result : Except Outcome Stack) :
    conclusion (seenFromEnd size result) = (conclusion result).mirror size := by
  cases result with
  | ok stack =>
    simp [seenFromEnd, conclusion, Outcome.mirror, List.getLast?_map, Function.comp_def,
      Opening.mirror]
  | error outcome => rfl

variable {size caret : Nat} {stack : Stack} {m : Mark} {ms : List Mark}

theorem Stack.quotesOut_mirror (code : Nat) :
    Stack.quotesOut (stack.map (Opening.mirror size)) code = stack.quotesOut code := by
  cases stack <;> rfl

theorem Mark.isSymmetric_mirror (size : Nat) (plain : ¬(m.side = .right ∧ m.partner = m.code)) :
    (m.mirror size).IsSymmetric ↔ m.IsSymmetric := by
  cases side : m.side <;> simp_all [IsSymmetric, mirror, Side.mirror]

theorem Stack.closes_mirror (plain : ¬(m.side = .right ∧ m.partner = m.code)) :
    Stack.closes (stack.map (Opening.mirror size)) .forward m.code (m.mirror size).side m.partner =
      stack.closes .backward m.code m.side m.partner := by
  have same := Mark.isSymmetric_mirror size plain
  by_cases symmetric : m.IsSymmetric
  · cases stack <;> simp [Stack.closes, Mark.mirror, Side.mirror, symmetric.1, symmetric.2,
      Opening.mirror]
  · rw [Stack.closes_of_not_symmetric symmetric]
    refine (Stack.closes_of_not_symmetric (m := m.mirror size) (by rwa [same])).trans ?_
    cases side : m.side with
    | left =>
      have other : m.partner ≠ m.code := fun partner => symmetric ⟨side, partner⟩
      simp only [Mark.mirror, Side.mirror, side, other, and_false, if_false]
      rfl
    | right => simp [Mark.mirror, Side.mirror, side, Direction.opener]

theorem Stack.pop_mirror (offset code : Nat) :
    Stack.pop (stack.map (Opening.mirror size)) (fromEnd size offset) code =
      seenFromEnd size (stack.pop offset code) := by
  cases stack with
  | nil => rfl
  | cons top rest =>
    simp only [Stack.pop, List.map_cons, Opening.mirror, List.isEmpty_map]
    split_ifs <;> rfl

theorem Stack.push_mirror (atCaret : Bool) (o : Opening) :
    Stack.push (stack.map (Opening.mirror size)) atCaret (o.mirror size) =
      seenFromEnd size (stack.push atCaret o) := by
  simp only [Stack.push, List.isEmpty_map, List.length_map]
  split_ifs <;> rfl

theorem Mark.opening_mirror (plain : ¬(m.side = .right ∧ m.partner = m.code)) :
    (m.mirror size).opening = m.opening.mirror size := by
  have same := Mark.isSymmetric_mirror size plain
  by_cases symmetric : m.IsSymmetric
  · rw [opening_of_symmetric symmetric, opening_of_symmetric (same.2 symmetric)]
    rfl
  · rw [opening_of_not_symmetric symmetric, opening_of_not_symmetric (mt same.1 symmetric)]
    rfl

theorem Stack.pass_mirror (plain : ¬(m.side = .right ∧ m.partner = m.code))
    (inside : m.offset < size) (bound : caret ≤ size) :
    Stack.pass .forward (size - caret) (stack.map (Opening.mirror size)) (m.mirror size) =
      seenFromEnd size (stack.pass .backward caret m) := by
  have near : Direction.atCaret (size - caret) (m.mirror size) .forward =
      Direction.atCaret caret m .backward := by
    rw [Bool.eq_iff_iff]
    simp only [Direction.atCaret, Mark.mirror, fromEnd, beq_iff_eq]
    omega
  rw [Stack.pass_eq, Stack.pass_eq, near, Mark.opening_mirror plain, Mark.code_mirror,
    Mark.partner_mirror, Mark.offset_mirror, Stack.quotesOut_mirror, Stack.closes_mirror plain,
    Stack.pop_mirror, Stack.push_mirror]
  split_ifs <;> rfl

theorem Stack.passAll_mirror (bound : caret ≤ size)
    (plain : ∀ m ∈ ms, ¬(m.side = .right ∧ m.partner = m.code))
    (inside : ∀ m ∈ ms, m.offset < size) :
    Stack.passAll .forward (size - caret) (stack.map (Opening.mirror size))
      (ms.map (Mark.mirror size)) =
      seenFromEnd size (stack.passAll .backward caret ms) := by
  induction ms generalizing stack with
  | nil => rfl
  | cons m ms ih =>
    obtain ⟨plainHere, plainLater⟩ := List.forall_mem_cons.1 plain
    obtain ⟨insideHere, insideLater⟩ := List.forall_mem_cons.1 inside
    rw [List.map_cons, Stack.passAll_cons, Stack.passAll_cons,
      Stack.pass_mirror plainHere insideHere bound]
    cases stack.pass .backward caret m with
    | error outcome => rfl
    | ok next => exact ih plainLater insideLater

def Unescaped (table : Table) (p : Passage) : Prop :=
  ∀ c ∈ p, table.find? c.code ≠ some .escape

variable {table : Table} {context : String} {c : Cell} {p before : Passage}

theorem Unescaped.mirror (free : Unescaped table p) : Unescaped table.mirror p := by
  intro c listed
  have plain := free c listed
  rw [Table.find?_mirror]
  cases found : table.find? c.code with
  | none => simp
  | some d => cases d <;> simp_all [Delimiter.mirror]

theorem Unescaped.escaped_eq_false (free : Unescaped table before) :
    Backward.escaped table context before = false := by
  cases before with
  | nil => rfl
  | cons c before =>
    apply escaped_cons_of_not_escape
    simp [escapesIn, free c List.mem_cons_self]

theorem mark?_mirror (free : Unescaped table before) {other : Passage}
    (freeOther : Unescaped table other) (offset : Nat) :
    mark? table.mirror context other (fromEnd size offset) c =
      (mark? table context before offset c).map (Mark.mirror size) := by
  unfold mark?
  rw [free.escaped_eq_false, freeOther.mirror.escaped_eq_false, Table.find?_mirror]
  cases table.find? c.code with
  | none => rfl
  | some d =>
    cases d with
    | escape => rfl
    | bracket side partner => cases comparable c.tag context <;> rfl

theorem marks_reverse (free : Unescaped table p) (freeBefore : Unescaped table before)
    {other : Passage} (freeOther : Unescaped table other) {offset start : Nat}
    (whole : offset + p.length + start = size) :
    marks table.mirror context other start p.reverse =
      ((marks table context before offset p).map (Mark.mirror size)).reverse := by
  induction p generalizing before offset with
  | nil => rfl
  | cons c p ih =>
    obtain ⟨freeHere, freeRest⟩ := List.forall_mem_cons.1 free
    have freeLater : Unescaped table (c :: before) := List.forall_mem_cons.2 ⟨freeHere, freeBefore⟩
    have freeBehind : Unescaped table (p.reverse.reverse ++ other) := by
      intro d member
      rw [List.reverse_reverse, List.mem_append] at member
      exact member.elim (freeRest d) (freeOther d)
    rw [List.length_cons] at whole
    have wholeRest : offset + 1 + p.length + start = size := by omega
    have place : start + p.reverse.length = fromEnd size offset := by
      rw [List.length_reverse, fromEnd]
      omega
    rw [List.reverse_cons, marks_append, ih freeRest freeLater wholeRest, marks, marks,
      marks, place, mark?_mirror freeBefore freeBehind, List.map_append, List.reverse_append,
      List.append_nil]
    cases mark? table context before offset c <;> rfl

theorem contextOf_mirror (table : Table) (p : Passage) :
    contextOf table.mirror p = contextOf table p := by
  simp [contextOf, leadingTag]

theorem forwardOutcome_mirror (plain : ∀ code, table.find? code ≠ some (.right code))
    (free : Unescaped table p) (bound : caret ≤ p.length) :
    forwardOutcome table.mirror p.reverse (p.length - caret) =
      (backwardOutcome table p caret).mirror p.length := by
  have size : (p.take caret).length = caret := List.length_take_of_le bound
  have cells : p.reverse.drop (p.length - caret) = (p.take caret).reverse := by
    rw [List.drop_reverse]
    congr 2
    omega
  have freeTake : Unescaped table (p.take caret) :=
    fun c member => free c (List.mem_of_mem_take member)
  have none : Unescaped table [] := List.forall_mem_nil _
  have whole : 0 + (p.take caret).length + (p.length - caret) = p.length := by omega
  have sides :
      ∀ m ∈ (marks table (contextOf table (p.take caret).reverse) [] 0 (p.take caret)).reverse,
        ¬(m.side = .right ∧ m.partner = m.code) := by
    intro m member same
    have listed := (mem_marks (List.mem_reverse.1 member)).1
    rw [same.1, same.2] at listed
    exact plain m.code listed
  have inside :
      ∀ m ∈ (marks table (contextOf table (p.take caret).reverse) [] 0 (p.take caret)).reverse,
        m.offset < p.length := by
    intro m member
    have place := (offset_mem_marks (List.mem_reverse.1 member)).2
    omega
  rw [forwardOutcome_eq, backwardOutcome_eq table p caret bound, cells, contextOf_mirror,
    marks_reverse freeTake none none whole, ← List.map_reverse,
    ← conclusion_seenFromEnd, ← Stack.passAll_mirror bound sides inside]
  rfl

theorem lt_of_place?_backwardOutcome (bound : caret ≤ p.length) {place : Nat}
    (ended : (backwardOutcome table p caret).place? = some place) : place < p.length := by
  rw [backwardOutcome_eq table p caret bound] at ended
  obtain ⟨m, member, rfl⟩ := exists_mem_of_place? ended
  have within := (offset_mem_marks (List.mem_reverse.1 member)).2
  rw [List.length_take_of_le bound] at within
  omega

theorem succ_of_exhausted_backwardOutcome (bound : caret ≤ p.length) {outermost : Nat}
    (ended : backwardOutcome table p caret = .exhausted (some outermost)) :
    outermost + 1 = caret := by
  rw [backwardOutcome_eq table p caret bound] at ended
  simpa [Direction.touches] using touches_of_exhausted ended

theorem backwardCaret_eq_sub {outcome : Outcome} (bound : caret ≤ size)
    (placed : ∀ place, outcome.place? = some place → place < size)
    (anchored : ∀ outermost, outcome = .exhausted (some outermost) → outermost + 1 = caret)
    (agrees : ¬∃ offset opening, outcome = .mismatched offset opening) :
    outcome.backwardCaret caret = size - (outcome.mirror size).forwardCaret (size - caret) := by
  cases outcome with
  | mismatched offset opening => exact absurd ⟨offset, opening, rfl⟩ agrees
  | exhausted outermost =>
    cases outermost with
    | none => exact (Nat.sub_sub_self bound).symm
    | some outermost =>
      have first := anchored outermost rfl
      simp only [Outcome.mirror, Outcome.backwardCaret, Outcome.forwardCaret, Option.map_some,
        Option.getD_some, fromEnd]
      omega
  | matched offset | stray offset | tooDeep offset | unopened offset =>
    have within := placed offset rfl
    simp only [Outcome.mirror, Outcome.backwardCaret, Outcome.forwardCaret, fromEnd]
    omega

theorem Outcome.mirror_eq_mismatched {outcome : Outcome} :
    (∃ offset opening, outcome.mirror size = .mismatched offset opening) ↔
      ∃ offset opening, outcome = .mismatched offset opening := by
  cases outcome <;> simp [Outcome.mirror]

/-- Without escapes the search to the left is the search to the right in the reversed text, under
the table with left and right exchanged. Only after a mismatch the caret does not follow: it stays
where it is. -/
theorem backward_eq_sub_forward_mirror (table : Table) (p : Passage) (caret : Nat)
    (plain : ∀ code, table.find? code ≠ some (.right code))
    (free : ∀ c ∈ p, table.find? c.code ≠ some .escape) (bound : caret ≤ p.length) :
    let outcome := forwardOutcome table.mirror p.reverse (p.length - caret)
    ((¬∃ offset opening, outcome = .mismatched offset opening) →
        backward table p caret = p.length - forward table.mirror p.reverse (p.length - caret)) ∧
      ((∃ offset opening, outcome = .mismatched offset opening) →
          backward table p caret = caret) := by
  intro outcome
  have turned : outcome = (backwardOutcome table p caret).mirror p.length :=
    forwardOutcome_mirror plain free bound
  have ahead : forward table.mirror p.reverse (p.length - caret) =
      outcome.forwardCaret (p.length - caret) := by
    rw [forward, List.length_reverse, Nat.min_eq_left (Nat.sub_le _ _)]
  have back : backward table p caret = (backwardOutcome table p caret).backwardCaret caret := by
    rw [backward, Nat.min_eq_left bound]
  rw [ahead, back, turned, Outcome.mirror_eq_mismatched]
  constructor
  · intro agrees
    exact backwardCaret_eq_sub bound (fun _ => lt_of_place?_backwardOutcome bound)
      (fun _ => succ_of_exhausted_backwardOutcome bound) agrees
  · rintro ⟨offset, opening, ended⟩
    rw [ended]
    rfl

/-- Parentheses around brackets, with a closing bracket between quotes; and a closing parenthesis
behind an opening bracket. -/
theorem backward_past_quotes :
    (∀ code, Table.standard.find? code ≠ some (.right code)) ∧
      (∀ c ∈ Text.Passage.ofString "a([x\"]\"]y)", Table.standard.find? c.code ≠ some .escape) ∧
      backward .standard (.ofString "a([x\"]\"]y)") 10 =
        10 - forward Table.standard.mirror (.ofString ")y]\"]\"x[(a") 0 ∧
      backward .standard (.ofString "a([x\"]\"]y)") 10 = 1 ∧
        backward .standard (.ofString "[)") 2 = 2 := by
  have plain : ∀ code, Table.standard.find? code ≠ some (.right code) := fun code listed =>
    (Table.coherent_standard.right code code listed).1 rfl
  have free : ∀ c ∈ Text.Passage.ofString "a([x\"]\"]y)",
      Table.standard.find? c.code ≠ some .escape := by
    decide
  have matched : forwardOutcome Table.standard.mirror
      (Text.Passage.ofString "a([x\"]\"]y)").reverse 0 = .matched 8 := by
    decide
  refine ⟨plain, free, ?_, by decide, ?_⟩
  · refine (backward_eq_sub_forward_mirror .standard _ 10 plain free (by decide)).1 ?_
    rintro ⟨offset, opening, ended⟩
    exact Outcome.noConfusion (matched.symm.trans ended)
  · refine (backward_eq_sub_forward_mirror .standard (.ofString "[)") 2 plain ?_ ?_).2 ?_
    · decide
    · decide
    · exact ⟨1, 0, by decide⟩

end SyntaxPaint.Bracket

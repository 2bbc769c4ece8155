import Mathlib.Data.List.Induction
import SyntaxPaint.Proofs.Meeting

/-!
A search as a filter and a plain stack machine. The filter picks the active brackets out of a text,
offset by offset: those in the context of the first delimiter with an even number of escapes right
before them. The machine reads them in the order of the search and knows nothing of tags, escapes
and other characters; what it says at the end is where the caret goes.
-/

namespace SyntaxPaint.Bracket

open Text (Cell Passage comparable)

def Direction.offsets (size caret : Nat) : Direction → List Nat
  | forward => List.range' caret (size - caret)
  | backward => (List.range caret).reverse

def Direction.floor (caret : Nat) : Direction → Nat
  | forward => caret
  | backward => 0

def delimiterTag? (table : Table) (p : Passage) (i : Nat) : Option String :=
  (p[i]?.filter fun c => (table.find? c.code).isSome).map Cell.tag

/-- How many escapes of a context stand right before an offset, none of them before `floor`. -/
def escapesBefore (table : Table) (context : String) (p : Passage) (floor i : Nat) : Nat :=
  (((p.take i).drop floor).reverse.takeWhile (escapesIn table context)).length

def activeMark? (table : Table) (context : String) (p : Passage) (floor i : Nat) : Option Mark :=
  p[i]?.bind fun c =>
    match table.find? c.code with
    | some (.bracket side partner) =>
      if comparable c.tag context ∧ escapesBefore table context p floor i % 2 = 0 then
        some ⟨i, c.code, side, partner⟩
      else none
    | _ => none

/-- The active brackets of a search, in its order; the first delimiter that it comes to gives the
context. -/
def activeMarks (table : Table) (p : Passage) (direction : Direction) (caret : Nat) : List Mark :=
  match (direction.offsets p.length caret).findSome? (delimiterTag? table p) with
  | none => []
  | some context =>
    (direction.offsets p.length caret).filterMap
      (activeMark? table context p (direction.floor caret))

def Direction.near (offset : Nat) : Direction → Nat
  | forward => offset
  | backward => offset + 1

def Direction.far (offset : Nat) : Direction → Nat
  | forward => offset + 1
  | backward => offset

/-- The caret after a closer that is not the partner of the innermost entry. -/
def Direction.missed (caret entry : Nat) : Direction → Nat
  | forward => entry
  | backward => caret

instance : DecidablePred Mark.IsSymmetric :=
  fun m => inferInstanceAs (Decidable (m.side = .left ∧ m.partner = m.code))

/-- Whether a bracket closes: a symmetric one if the innermost entry waits for it, another by its
side. -/
def Mark.closesOn (direction : Direction) (top : Option Mark) (m : Mark) : Bool :=
  if m.IsSymmetric then top.any fun entry => entry.partner == m.code else m.side != direction.opener

/-- Where a stack machine comes to that reads brackets; the innermost of the entries that wait comes
first. -/
def settle (direction : Direction) (caret : Nat) : (waiting : List Mark) → List Mark → Nat
  | _, [] => caret
  | [], m :: ms =>
    if m.closesOn direction none then direction.far m.offset
    else if direction.near m.offset = caret then settle direction caret [m] ms
    else direction.near m.offset
  | top :: below, m :: ms =>
    if top.IsSymmetric ∧ top.partner ≠ m.code then settle direction caret (top :: below) ms
    else if m.closesOn direction (some top) then
      if top.partner ≠ m.code then direction.missed caret top.offset
      else if below = [] then direction.far m.offset
      else settle direction caret below ms
    else if below.length + 1 = maxNesting then direction.near m.offset
    else settle direction caret (m :: top :: below) ms

section Filter

variable {table : Table} {context : String} {left done right q : Passage} {c : Cell}

theorem even_escapesBefore_iff (table : Table) (context : String) (left done right : Passage) :
    escapesBefore table context (left ++ done ++ right) left.length
        (left.length + done.length) % 2 = 0 ↔
      Backward.escaped table context done.reverse = false := by
  have between : ((left ++ done ++ right).take (left.length + done.length)).drop left.length =
      done := by
    rw [← List.length_append, List.take_left, List.drop_left]
  rw [escapesBefore, between, Backward.escaped, beq_eq_false_iff_ne]
  omega

theorem activeMark?_eq :
    activeMark? table context (left ++ done ++ c :: right) left.length (left.length + done.length) =
      mark? table context done.reverse (left.length + done.length) c := by
  have here : (left ++ done ++ c :: right)[left.length + done.length]? = some c := by
    rw [← List.length_append, List.getElem?_append_right (Nat.le_refl _), Nat.sub_self]
    rfl
  have even := even_escapesBefore_iff table context left done (c :: right)
  unfold activeMark? mark?
  rw [here, Option.bind_some]
  cases table.find? c.code with
  | none => rfl
  | some d =>
    cases d with
    | escape => rfl
    | bracket side partner => simp only [even, Bool.and_eq_true, Bool.not_eq_true']

theorem marks_eq_filterMap (table : Table) (context : String) (left done q right : Passage) :
    marks table context done.reverse (left.length + done.length) q =
      (List.range' (left.length + done.length) q.length).filterMap
        (activeMark? table context (left ++ done ++ (q ++ right)) left.length) := by
  induction q generalizing done with
  | nil => rfl
  | cons c q ih =>
    have later := ih (done ++ [c])
    rw [List.reverse_concat, List.length_append, List.length_singleton, ← Nat.add_assoc,
      ← List.append_assoc left, List.append_assoc (left ++ done), List.singleton_append] at later
    rw [marks, List.length_cons, List.range'_succ, List.filterMap_cons, List.cons_append,
      activeMark?_eq, later]
    cases mark? table context done.reverse (left.length + done.length) c <;> rfl

theorem delimiterTag?_append :
    delimiterTag? table (left ++ c :: right) left.length =
      if (table.find? c.code).isSome then some c.tag else none := by
  rw [delimiterTag?, List.getElem?_append_right (Nat.le_refl _), Nat.sub_self,
    List.getElem?_cons_zero, Option.filter_some]
  split <;> rfl

theorem leadingTag_eq_findSome? (table : Table) (left q : Passage) :
    leadingTag table q =
      (List.range' left.length q.length).findSome? (delimiterTag? table (left ++ q)) := by
  induction q generalizing left with
  | nil => rfl
  | cons c q ih =>
    have later := ih (left ++ [c])
    rw [List.length_append, List.length_singleton, List.append_assoc,
      List.singleton_append] at later
    rw [leadingTag_cons, List.length_cons, List.range'_succ, List.findSome?_cons,
      delimiterTag?_append, later]
    split <;> rfl

theorem leadingTag_reverse_eq_findSome? (table : Table) (q right : Passage) :
    leadingTag table q.reverse =
      (List.range q.length).reverse.findSome? (delimiterTag? table (q ++ right)) := by
  induction q using List.reverseRecOn generalizing right with
  | nil => rfl
  | append_singleton q c ih =>
    rw [List.reverse_concat, leadingTag_cons, List.length_append, List.length_singleton,
      List.range_succ, List.reverse_concat, List.findSome?_cons, List.append_assoc,
      List.singleton_append, delimiterTag?_append, ih]
    split <;> rfl

theorem marks_eq_nil_of_leadingTag {before : Passage} {offset : Nat}
    (none : leadingTag table q = none) :
    marks table context before offset q = [] := by
  rw [List.eq_nil_iff_forall_not_mem]
  intro m member
  obtain ⟨listed, i, c, place, -, code⟩ := mem_marks member
  have free := List.find?_eq_none.1 (Option.map_eq_none_iff.1 none) c (List.mem_of_getElem? place)
  rw [← code, listed] at free
  exact free rfl

theorem leadingTag_reverse_eq_none_iff :
    leadingTag table q.reverse = none ↔ leadingTag table q = none := by
  simp [leadingTag]

end Filter

section Machine

variable {direction : Direction} {caret : Nat} {waiting : List Mark} {m : Mark}

def Direction.land (caret : Nat) (outcome : Outcome) : Direction → Nat
  | forward => outcome.forwardCaret caret
  | backward => outcome.backwardCaret caret

theorem Direction.atCaret_iff :
    direction.atCaret caret m = true ↔ direction.near m.offset = caret := by
  cases direction <;> exact beq_iff_eq

theorem Stack.closes_map_opening (direction : Direction) (waiting : List Mark) (m : Mark) :
    Stack.closes (waiting.map Mark.opening) direction m.code m.side m.partner =
      m.closesOn direction waiting.head? := by
  unfold Stack.closes Mark.closesOn
  cases waiting <;> rfl

theorem Stack.quotesOut_opening_cons {top : Mark} {below : Stack} :
    Stack.quotesOut (top.opening :: below) m.code = true ↔
      top.IsSymmetric ∧ top.partner ≠ m.code := by
  simp [Stack.quotesOut, Mark.opening, Mark.IsSymmetric]

theorem Stack.pass_nil :
    Stack.pass direction caret [] m =
      if m.closesOn direction none then .error (.unopened m.offset)
      else if direction.near m.offset = caret then .ok [m.opening]
      else .error (.stray m.offset) := by
  have closing := Stack.closes_map_opening direction [] m
  rw [List.map_nil, List.head?_nil] at closing
  rw [Stack.pass_eq, closing, quotesOut, if_neg Bool.false_ne_true]
  by_cases touches : direction.near m.offset = caret
  · rw [if_pos touches, Direction.atCaret_iff.2 touches]
    rfl
  · rw [if_neg touches, Bool.eq_false_iff.2 (mt Direction.atCaret_iff.1 touches)]
    rfl

theorem Stack.pass_map_opening (top : Mark) (below : List Mark) :
    Stack.pass direction caret ((top :: below).map Mark.opening) m =
      if top.IsSymmetric ∧ top.partner ≠ m.code then .ok ((top :: below).map Mark.opening)
      else if m.closesOn direction (some top) then
        if top.partner ≠ m.code then .error (.mismatched m.offset top.offset)
        else if below = [] then .error (.matched m.offset)
        else .ok (below.map Mark.opening)
      else if below.length + 1 = maxNesting then .error (.tooDeep m.offset)
      else .ok ((m :: top :: below).map Mark.opening) := by
  rw [Stack.pass_eq, Stack.closes_map_opening, List.head?_cons]
  simp only [List.map_cons, Stack.quotesOut_opening_cons, Stack.pop, Stack.push, List.isEmpty_cons,
    List.isEmpty_iff, List.map_eq_nil_iff, List.length_cons, List.length_map, Bool.false_and,
    Bool.false_eq_true, if_false]
  rfl

theorem settle_cons (waiting : List Mark) (m : Mark) (ms : List Mark) :
    (∃ outcome, Stack.pass direction caret (waiting.map Mark.opening) m = .error outcome ∧
        settle direction caret waiting (m :: ms) = direction.land caret outcome) ∨
      ∃ next,
        Stack.pass direction caret (waiting.map Mark.opening) m = .ok (next.map Mark.opening) ∧
        settle direction caret waiting (m :: ms) = settle direction caret next ms := by
  cases waiting with
  | nil =>
    rw [settle, List.map_nil, Stack.pass_nil]
    split_ifs
    · exact .inl ⟨_, rfl, by cases direction <;> rfl⟩
    · exact .inr ⟨[m], rfl, rfl⟩
    · exact .inl ⟨_, rfl, by cases direction <;> rfl⟩
  | cons top below =>
    rw [settle, Stack.pass_map_opening]
    split_ifs
    · exact .inr ⟨top :: below, rfl, rfl⟩
    · exact .inl ⟨_, rfl, by cases direction <;> rfl⟩
    · exact .inl ⟨_, rfl, by cases direction <;> rfl⟩
    · exact .inr ⟨below, rfl, rfl⟩
    · exact .inl ⟨_, rfl, by cases direction <;> rfl⟩
    · exact .inr ⟨m :: top :: below, rfl, rfl⟩

theorem settle_eq_land (anchored : Stack.Anchored direction caret (waiting.map Mark.opening))
    (ms : List Mark) :
    settle direction caret waiting ms =
      direction.land caret
        (conclusion (Stack.passAll direction caret (waiting.map Mark.opening) ms)) := by
  induction ms generalizing waiting with
  | nil =>
    rw [settle, Stack.passAll_nil, conclusion]
    cases direction with
    | backward => rfl
    | forward =>
      -- The outermost entry, which the search leaves the caret at, is the one at the caret.
      cases outermost : (waiting.map Mark.opening).getLast? with
      | none => rfl
      | some o => exact (beq_iff_eq.1 (anchored o outermost)).symm
  | cons m ms ih =>
    rcases settle_cons waiting m ms with ⟨outcome, ended, result⟩ | ⟨next, passed, result⟩
    · rw [result, Stack.passAll_cons, ended]
      rfl
    · rw [result, Stack.passAll_cons_of_ok passed]
      exact ih (anchored.pass passed)

end Machine

section Main

variable {table : Table} {p : Passage} {caret : Nat}

theorem forwardOutcome_eq_activeMarks (inside : caret ≤ p.length) :
    forwardOutcome table p caret =
      conclusion (Stack.passAll .forward caret [] (activeMarks table p .forward caret)) := by
  have size : (p.take caret).length = caret := List.length_take_of_le inside
  have tag := leadingTag_eq_findSome? table (p.take caret) (p.drop caret)
  rw [size, List.length_drop, List.take_append_drop] at tag
  rw [forwardOutcome_eq, contextOf, activeMarks, Direction.offsets, ← tag]
  cases found : leadingTag table (p.drop caret) with
  | none => rw [marks_eq_nil_of_leadingTag found]
  | some context =>
    have active := marks_eq_filterMap table context (p.take caret) [] (p.drop caret) []
    rw [List.append_nil, List.append_nil, List.take_append_drop, List.length_nil,
      Nat.add_zero, size, List.length_drop, List.reverse_nil] at active
    rw [Option.getD_some, active]
    rfl

theorem backwardOutcome_eq_activeMarks (inside : caret ≤ p.length) :
    backwardOutcome table p caret =
      conclusion (Stack.passAll .backward caret [] (activeMarks table p .backward caret)) := by
  have size : (p.take caret).length = caret := List.length_take_of_le inside
  have tag := leadingTag_reverse_eq_findSome? table (p.take caret) (p.drop caret)
  rw [size, List.take_append_drop] at tag
  rw [backwardOutcome_eq table p caret inside, contextOf, activeMarks, Direction.offsets, ← tag]
  cases found : leadingTag table (p.take caret).reverse with
  | none =>
    rw [marks_eq_nil_of_leadingTag (leadingTag_reverse_eq_none_iff.1 found), List.reverse_nil]
  | some context =>
    have active := marks_eq_filterMap table context [] [] (p.take caret) (p.drop caret)
    rw [List.append_nil, List.nil_append, List.take_append_drop, List.length_nil, size,
      List.reverse_nil, ← List.range_eq_range'] at active
    rw [Option.getD_some, active, ← List.filterMap_reverse]
    rfl

end Main

/-- The search to the right comes to where the stack machine does that reads the active brackets
from the caret on. -/
theorem forward_eq_settle (table : Table) (p : Passage) (start : Nat) :
    let caret := min start p.length
    forward table p start = settle .forward caret [] (activeMarks table p .forward caret) := by
  intro caret
  rw [settle_eq_land Stack.anchored_nil, List.map_nil,
    ← forwardOutcome_eq_activeMarks (Nat.min_le_right _ _)]
  rfl

example : (activeMarks .standard (.ofString "(\\)x)") .forward 0).map Mark.offset = [0, 4] := by
  decide

/-- The search to the left comes to where the stack machine does that reads the active brackets
before the caret, the nearest one first. -/
theorem backward_eq_settle (table : Table) (p : Passage) (start : Nat) :
    let caret := min start p.length
    backward table p start = settle .backward caret [] (activeMarks table p .backward caret) := by
  intro caret
  rw [settle_eq_land Stack.anchored_nil, List.map_nil,
    ← backwardOutcome_eq_activeMarks (Nat.min_le_right _ _)]
  rfl

end SyntaxPaint.Bracket

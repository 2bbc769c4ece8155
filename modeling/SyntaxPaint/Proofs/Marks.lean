import SyntaxPaint.Bracket.Forward
import SyntaxPaint.Bracket.Backward

/-!
What a bracket search reacts to. A mark is a bracket in the context of the search that no escape
precedes. Both directions are the same fold over the marks of a passage, from left to right and from
right to left; only the number of cells that an escape may stand in differs.
-/

namespace SyntaxPaint.Bracket

open Text (Cell Passage comparable)

structure Mark where
  offset : Nat
  code : Nat
  side : Side
  partner : Nat
deriving DecidableEq, Repr

def leadingTag (table : Table) (p : Passage) : Option String :=
  (p.find? fun c => (table.find? c.code).isSome).map Cell.tag

/-- The mark that a cell makes; the cells before it come nearest first. -/
def mark? (table : Table) (context : String) (before : Passage) (offset : Nat) (c : Cell) :
    Option Mark :=
  match table.find? c.code with
  | some (.bracket side partner) =>
    if comparable c.tag context && !Backward.escaped table context before then
      some ⟨offset, c.code, side, partner⟩
    else none
  | _ => none

def marks (table : Table) (context : String) :
    (before : Passage) → (offset : Nat) → Passage → List Mark
  | _, _, [] => []
  | before, offset, c :: rest =>
    (mark? table context before offset c).toList ++
      marks table context (c :: before) (offset + 1) rest

def Direction.atCaret (caret : Nat) (m : Mark) : Direction → Bool
  | forward => m.offset == caret
  | backward => m.offset + 1 == caret

namespace Stack

def pass (direction : Direction) (caret : Nat) (stack : Stack) (m : Mark) : Except Outcome Stack :=
  stack.meet direction (direction.atCaret caret m) m.offset m.code m.side m.partner

def passAll (direction : Direction) (caret : Nat) (stack : Stack) (ms : List Mark) :
    Except Outcome Stack :=
  ms.foldlM (pass direction caret) stack

@[simp] theorem passAll_nil (direction : Direction) (caret : Nat) (stack : Stack) :
    stack.passAll direction caret [] = .ok stack := rfl

@[simp] theorem passAll_cons (direction : Direction) (caret : Nat) (stack : Stack) (m : Mark)
    (ms : List Mark) :
    stack.passAll direction caret (m :: ms) =
      (stack.pass direction caret m).bind fun next => next.passAll direction caret ms := rfl

@[simp] theorem passAll_singleton (direction : Direction) (caret : Nat) (stack : Stack) (m : Mark) :
    stack.passAll direction caret [m] = stack.pass direction caret m := by
  rw [passAll_cons]
  cases stack.pass direction caret m <;> rfl

theorem passAll_append (direction : Direction) (caret : Nat) (stack : Stack)
    (ms later : List Mark) :
    stack.passAll direction caret (ms ++ later) =
      (stack.passAll direction caret ms).bind fun next => next.passAll direction caret later :=
  List.foldlM_append

section Peel

variable {direction : Direction} {caret : Nat} {stack next : Stack} {m : Mark} {ms : List Mark}

theorem passAll_cons_of_ok (passed : stack.pass direction caret m = .ok next) (later : List Mark) :
    stack.passAll direction caret (m :: later) = next.passAll direction caret later := by
  rw [passAll_cons, passed]
  rfl

theorem passAll_cons_eq_ok (passed : stack.passAll direction caret (m :: ms) = .ok next) :
    ∃ middle, stack.pass direction caret m = .ok middle ∧
      middle.passAll direction caret ms = .ok next := by
  rw [passAll_cons] at passed
  cases first : stack.pass direction caret m with
  | error outcome =>
    rw [first] at passed
    contradiction
  | ok middle =>
    rw [first] at passed
    exact ⟨middle, rfl, passed⟩

theorem passAll_append_of_ok (passed : stack.passAll direction caret ms = .ok next)
    (later : List Mark) :
    stack.passAll direction caret (ms ++ later) = next.passAll direction caret later := by
  rw [passAll_append, passed]
  rfl

theorem passAll_append_of_error {outcome : Outcome}
    (ended : stack.passAll direction caret ms = .error outcome) (later : List Mark) :
    stack.passAll direction caret (ms ++ later) = .error outcome := by
  rw [passAll_append, ended]
  rfl

end Peel

end Stack

def conclusion : Except Outcome Stack → Outcome
  | .ok stack => .exhausted (stack.getLast?.map Opening.offset)
  | .error outcome => outcome

section Marks

variable {table : Table} {context : String}

theorem escaped_cons_of_not_escape {c : Cell} (plain : escapesIn table context c = false)
    (before : Passage) : Backward.escaped table context (c :: before) = false := by
  simp [Backward.escaped, plain]

theorem escaped_cons_of_escape {c : Cell} (escape : escapesIn table context c = true)
    (before : Passage) :
    Backward.escaped table context (c :: before) = !Backward.escaped table context before := by
  simp only [Backward.escaped, List.takeWhile_cons, escape, if_true, List.length_cons]
  rcases Nat.mod_two_eq_zero_or_one (before.takeWhile (escapesIn table context)).length with
    even | odd
  · rw [Nat.add_mod, even]; rfl
  · rw [Nat.add_mod, odd]; rfl

theorem escapesIn_eq_false_of_bracket {c : Cell} {side : Side} {partner : Nat}
    (found : table.find? c.code = some (.bracket side partner)) :
    escapesIn table context c = false := by
  simp [escapesIn, found]

theorem mark?_eq_none_of_not_comparable {c : Cell} (foreign : comparable c.tag context = false)
    (before : Passage) (offset : Nat) : mark? table context before offset c = none := by
  unfold mark?
  split <;> simp [foreign]

theorem marks_append (before : Passage) (offset : Nat) (p q : Passage) :
    marks table context before offset (p ++ q) =
      marks table context before offset p ++
        marks table context (p.reverse ++ before) (offset + p.length) q := by
  induction p generalizing before offset with
  | nil => rfl
  | cons c rest ih =>
    have place : offset + 1 + rest.length = offset + (rest.length + 1) := by omega
    simp only [List.cons_append, marks, ih, List.append_assoc, List.reverse_cons, List.length_cons,
      List.nil_append, place]

/-- What stands before a cell that is no escape has no influence on the marks after it. -/
theorem marks_cons_before {c : Cell} (plain : escapesIn table context c = false)
    (before other : Passage) (offset : Nat) (p : Passage) :
    marks table context (c :: before) offset p = marks table context (c :: other) offset p := by
  have same (q : Passage) : Backward.escaped table context (q ++ c :: before) =
      Backward.escaped table context (q ++ c :: other) := by
    induction q with
    | nil => rw [List.nil_append, List.nil_append, escaped_cons_of_not_escape plain,
        escaped_cons_of_not_escape plain]
    | cons d q ih =>
      cases kind : escapesIn table context d with
      | false => rw [List.cons_append, List.cons_append, escaped_cons_of_not_escape kind,
          escaped_cons_of_not_escape kind]
      | true => rw [List.cons_append, List.cons_append, escaped_cons_of_escape kind,
          escaped_cons_of_escape kind, ih]
  suffices general : ∀ q, marks table context (q ++ c :: before) offset p =
      marks table context (q ++ c :: other) offset p from general []
  induction p generalizing offset with
  | nil => intro q; rfl
  | cons d p ih =>
    intro q
    have later := ih (offset + 1) (d :: q)
    simp only [List.cons_append] at later
    simp only [marks, mark?, same q, later]

theorem marks_of_not_escaped {before : Passage}
    (even : Backward.escaped table context before = false) {c : Cell}
    (plain : escapesIn table context c = false) (offset : Nat) (rest : Passage) :
    marks table context before offset (c :: rest) = marks table context [] offset (c :: rest) := by
  have none : Backward.escaped table context [] = false := rfl
  simp only [marks, mark?, even, none, marks_cons_before plain before []]

theorem offset_of_mark? {before : Passage} {offset : Nat} {c : Cell} {m : Mark}
    (found : mark? table context before offset c = some m) : m.offset = offset := by
  unfold mark? at found
  split at found
  · split at found
    · cases found; rfl
    · contradiction
  · contradiction

theorem listed_of_mark? {before : Passage} {offset : Nat} {c : Cell} {m : Mark}
    (found : mark? table context before offset c = some m) :
    m.code = c.code ∧ table.find? m.code = some (.bracket m.side m.partner) := by
  unfold mark? at found
  split at found
  · next listed =>
    split at found
    · cases found
      exact ⟨rfl, listed⟩
    · contradiction
  · contradiction

theorem leadingTag_cons (c : Cell) (p : Passage) :
    leadingTag table (c :: p) =
      if (table.find? c.code).isSome then some c.tag else leadingTag table p := by
  unfold leadingTag
  rw [List.find?_cons]
  cases (table.find? c.code).isSome <;> rfl

end Marks

theorem Forward.step_eq {table : Table} {context : String} {caret offset : Nat} {s : Forward.State}
    {c : Cell} {before : Passage}
    (tagged : (table.find? c.code).isSome → s.context.getD c.tag = context)
    (flag : s.escaped = Backward.escaped table context before) :
    Forward.step table caret offset s c =
      (s.stack.passAll .forward caret (mark? table context before offset c).toList).map fun stack =>
        ⟨if (table.find? c.code).isSome then some context else s.context,
          Backward.escaped table context (c :: before), stack⟩ := by
  unfold Forward.step mark?
  cases found : table.find? c.code with
  | none =>
    have plain : escapesIn table context c = false := by simp [escapesIn, found]
    rw [escaped_cons_of_not_escape plain]
    rfl
  | some d =>
    have known : s.context.getD c.tag = context := tagged (by rw [found]; rfl)
    simp only [known, Option.isSome_some, if_true]
    cases near : comparable c.tag context with
    | false =>
      have plain : escapesIn table context c = false := by simp [escapesIn, near]
      rw [escaped_cons_of_not_escape plain]
      cases d <;> rfl
    | true =>
      cases d with
      | escape =>
        have escape : escapesIn table context c = true := by simp [escapesIn, found, near]
        rw [escaped_cons_of_escape escape, flag]
        rfl
      | bracket side partner =>
        rw [escaped_cons_of_not_escape (escapesIn_eq_false_of_bracket found), ← flag]
        cases s.escaped with
        | true => rfl
        | false =>
          simp only [Bool.not_false, Bool.and_self, if_true, Bool.false_eq_true, if_false,
            Option.toList_some, Stack.passAll_singleton]
          rfl

theorem Forward.search_eq {table : Table} {context : String} {caret offset : Nat}
    {s : Forward.State} {before p : Passage}
    (tagged : ∀ tag, s.context.or (leadingTag table p) = some tag → tag = context)
    (flag : s.escaped = Backward.escaped table context before) :
    Forward.search table caret s offset p =
      conclusion (s.stack.passAll .forward caret (marks table context before offset p)) := by
  induction p generalizing s before offset with
  | nil => rfl
  | cons c rest ih =>
    have here : (table.find? c.code).isSome → s.context.getD c.tag = context := by
      intro found
      apply tagged
      rw [leadingTag_cons, if_pos found]
      cases s.context <;> rfl
    rw [Forward.search, Forward.step_eq here flag, marks, Stack.passAll_append]
    cases s.stack.passAll .forward caret (mark? table context before offset c).toList with
    | error outcome => rfl
    | ok stack =>
      refine ih (s := ⟨_, _, stack⟩) ?_ rfl
      intro tag eq
      by_cases found : (table.find? c.code).isSome
      · rw [if_pos found] at eq
        exact (Option.some.inj eq).symm
      · rw [if_neg found] at eq
        apply tagged
        rwa [leadingTag_cons, if_neg found]

theorem Backward.step_eq {table : Table} {context : String} {caret offset : Nat}
    {s : Backward.State} {c : Cell} {before : Passage}
    (tagged : (table.find? c.code).isSome → s.context.getD c.tag = context) :
    Backward.step table caret offset s c before =
      (s.stack.passAll .backward caret (mark? table context before offset c).toList).map
        (⟨if (table.find? c.code).isSome then some context else s.context, ·⟩) := by
  unfold Backward.step mark?
  cases found : table.find? c.code with
  | none => rfl
  | some d =>
    have known : s.context.getD c.tag = context := tagged (by rw [found]; rfl)
    simp only [known, Option.isSome_some, if_true]
    cases d with
    | escape => rfl
    | bracket side partner =>
      cases seen : comparable c.tag context && !Backward.escaped table context before with
      | false => rfl
      | true =>
        simp only [if_true, Option.toList_some, Stack.passAll_singleton]
        rfl

theorem Backward.search_eq {table : Table} {context : String} {caret : Nat} {s : Backward.State}
    {before : Passage}
    (tagged : ∀ tag, s.context.or (leadingTag table before) = some tag → tag = context) :
    Backward.search table caret s before.length before =
      conclusion
        (s.stack.passAll .backward caret (marks table context [] 0 before.reverse).reverse) := by
  induction before generalizing s with
  | nil => rfl
  | cons c before ih =>
    have here : (table.find? c.code).isSome → s.context.getD c.tag = context := by
      intro found
      apply tagged
      rw [leadingTag_cons, if_pos found]
      cases s.context <;> rfl
    have split : (marks table context [] 0 (c :: before).reverse).reverse =
        (mark? table context before before.length c).toList ++
          (marks table context [] 0 before.reverse).reverse := by
      rw [List.reverse_cons, marks_append, List.reverse_append]
      simp only [marks, List.append_nil, List.reverse_reverse, List.length_reverse, Nat.zero_add]
      cases mark? table context before before.length c <;> rfl
    rw [List.length_cons, Backward.search, Backward.step_eq here, split, Stack.passAll_append]
    cases s.stack.passAll .backward caret (mark? table context before before.length c).toList with
    | error outcome => rfl
    | ok stack =>
      refine ih (s := ⟨_, stack⟩) ?_
      intro tag eq
      by_cases found : (table.find? c.code).isSome
      · rw [if_pos found] at eq
        exact (Option.some.inj eq).symm
      · rw [if_neg found] at eq
        apply tagged
        rwa [leadingTag_cons, if_neg found]

def contextOf (table : Table) (p : Passage) : String :=
  (leadingTag table p).getD ""

theorem forwardOutcome_eq (table : Table) (p : Passage) (caret : Nat) :
    forwardOutcome table p caret =
      conclusion (Stack.passAll .forward caret []
        (marks table (contextOf table (p.drop caret)) [] caret (p.drop caret))) := by
  refine Forward.search_eq (s := Forward.start) ?_ rfl
  intro tag eq
  simp only [Forward.start, Option.none_or] at eq
  rw [contextOf, eq]
  rfl

theorem backwardOutcome_eq (table : Table) (p : Passage) (caret : Nat) (inside : caret ≤ p.length) :
    backwardOutcome table p caret =
      conclusion (Stack.passAll .backward caret []
        (marks table (contextOf table (p.take caret).reverse) [] 0 (p.take caret)).reverse) := by
  have size : (p.take caret).reverse.length = caret := by
    rw [List.length_reverse, List.length_take, Nat.min_eq_left inside]
  have tagged : ∀ tag,
      Backward.start.context.or (leadingTag table (p.take caret).reverse) = some tag →
        tag = contextOf table (p.take caret).reverse := by
    intro tag eq
    simp only [Backward.start, Option.none_or] at eq
    rw [contextOf, eq]
    rfl
  have found : Backward.search table caret Backward.start (p.take caret).reverse.length
      (p.take caret).reverse = _ := Backward.search_eq tagged
  rw [size, List.reverse_reverse] at found
  exact found

theorem leadingTag_of_delimiter {table : Table} {c : Cell} (found : (table.find? c.code).isSome)
    (p : Passage) : contextOf table (c :: p) = c.tag := by
  rw [contextOf, leadingTag_cons, if_pos found]
  rfl

theorem mem_marks {table : Table} {context : String} {before p : Passage} {offset : Nat} {m : Mark}
    (member : m ∈ marks table context before offset p) :
    table.find? m.code = some (.bracket m.side m.partner) ∧
      ∃ i c, p[i]? = some c ∧ m.offset = offset + i ∧ m.code = c.code := by
  induction p generalizing before offset with
  | nil => contradiction
  | cons c rest ih =>
    rw [marks, List.mem_append, Option.mem_toList] at member
    cases member with
    | inl here =>
      obtain ⟨code, listed⟩ := listed_of_mark? here
      exact ⟨listed, 0, c, rfl, offset_of_mark? here, code⟩
    | inr later =>
      obtain ⟨listed, i, d, place, at_, code⟩ := ih later
      exact ⟨listed, i + 1, d, place, by omega, code⟩

theorem bracket_of_mem_marks {table : Table} {context : String} {before rest : Passage}
    {offset : Nat} {c : Cell} {m : Mark}
    (member : m ∈ marks table context before offset (c :: rest)) (first : m.offset = offset) :
    table.find? c.code = some (.bracket m.side m.partner) := by
  obtain ⟨listed, i, b, place, at_, code⟩ := mem_marks member
  obtain rfl : i = 0 := by omega
  obtain rfl : c = b := by simpa using place
  rw [← code, listed]

theorem offset_mem_marks {table : Table} {context : String} {before p : Passage} {offset : Nat}
    {m : Mark} (member : m ∈ marks table context before offset p) :
    offset ≤ m.offset ∧ m.offset < offset + p.length := by
  obtain ⟨-, i, c, place, at_, -⟩ := mem_marks member
  have inside : i < p.length := (List.getElem?_eq_some_iff.1 place).1
  omega

theorem pairwise_marks (table : Table) (context : String) (before : Passage) (offset : Nat)
    (p : Passage) :
    (marks table context before offset p).Pairwise fun m n => m.offset < n.offset := by
  induction p generalizing before offset with
  | nil => exact .nil
  | cons c rest ih =>
    rw [marks, List.pairwise_append]
    refine ⟨?_, ih _ _, ?_⟩
    · cases mark? table context before offset c with
      | none => exact .nil
      | some m => exact List.pairwise_singleton _ m
    · intro m here n later
      have first : m.offset = offset := offset_of_mark? (Option.mem_toList.1 here)
      have second := (offset_mem_marks later).1
      omega

end SyntaxPaint.Bracket

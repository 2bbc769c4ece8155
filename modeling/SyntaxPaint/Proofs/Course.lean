import SyntaxPaint.Proofs.Meeting

/-!
The course of a search to the right, step by step. A step either leaves the openings alone, whatever
they are, or passes one mark; on the way the openings stay in the order of the text and never become
too many.
-/

namespace SyntaxPaint.Bracket

open Text (Cell Passage comparable)

namespace Stack

structure Ascends (offset : Nat) (stack : Stack) : Prop where
  length_le : stack.length ≤ maxNesting
  pairwise : stack.Pairwise fun inner outer => outer.offset < inner.offset
  before : ∀ o ∈ stack, o.offset < offset

variable {direction : Direction} {caret offset : Nat} {stack next : Stack} {m : Mark}

theorem Ascends.nil : Ascends offset [] where
  length_le := Nat.zero_le _
  pairwise := .nil
  before := List.forall_mem_nil _

theorem Ascends.succ (ascends : Ascends offset stack) : Ascends (offset + 1) stack where
  length_le := ascends.length_le
  pairwise := ascends.pairwise
  before o member := Nat.lt_succ_of_lt (ascends.before o member)

theorem Ascends.pass (ascends : Ascends m.offset stack)
    (passed : stack.pass direction caret m = .ok next) : Ascends (m.offset + 1) next := by
  rcases pass_eq_ok passed with ⟨-, rfl⟩ | ⟨-, -, -, top, -, rfl⟩ | ⟨-, -, -, short, rfl⟩
  · exact ascends.succ
  · exact
      { length_le := Nat.le_of_succ_le ascends.length_le
        pairwise := (List.pairwise_cons.1 ascends.pairwise).2
        before o member := ascends.succ.before o (List.mem_cons_of_mem _ member) }
  · exact
      { length_le := Nat.lt_of_le_of_ne ascends.length_le short
        pairwise := List.pairwise_cons.2 ⟨ascends.before, ascends.pairwise⟩
        before := List.forall_mem_cons.2 ⟨Nat.lt_succ_self _, ascends.succ.before⟩ }

theorem mem_of_pass (passed : stack.pass direction caret m = .ok next) {o : Opening}
    (member : o ∈ next) :
    o ∈ stack ∨ o.offset = m.offset := by
  rcases pass_eq_ok passed with ⟨-, rfl⟩ | ⟨-, -, -, top, -, rfl⟩ | ⟨-, -, -, -, rfl⟩
  · exact .inl member
  · exact .inl (List.mem_cons_of_mem _ member)
  · rcases List.mem_cons.1 member with rfl | below
    · exact .inr rfl
    · exact .inl below

end Stack

namespace Forward

variable {table : Table} {p : Passage} {caret offset place : Nat} {s t next : State} {c : Cell}

theorem map_eq_ok_iff {α β : Type} {result : Except Outcome α} {f : α → β} {value : β} :
    result.map f = .ok value ↔ ∃ a, result = .ok a ∧ f a = value := by
  cases result <;> simp [Except.map]

theorem map_eq_error_iff {α β : Type} {result : Except Outcome α} {f : α → β} {outcome : Outcome} :
    result.map f = .error outcome ↔ result = .error outcome := by
  cases result <;> simp [Except.map]

theorem step_of_bracket {context : Option String} {m : Mark}
    (listed : table.find? m.code = some (.bracket m.side m.partner)) (code : m.code = c.code)
    (near : comparable c.tag (context.getD c.tag) = true) (caret : Nat) (stack : Stack) :
    step table caret m.offset ⟨context, false, stack⟩ c =
      (stack.pass .forward caret m).map (⟨some (context.getD c.tag), false, ·⟩) := by
  rw [code] at listed
  simp only [step, listed, near, if_true, Bool.false_eq_true, if_false]
  rw [← code]
  rfl

theorem step_cases (table : Table) (offset : Nat) (context : Option String) (escaped : Bool)
    (c : Cell) :
    (∃ tag flag, (tag = context ∨ tag = some (context.getD c.tag)) ∧
        ∀ caret stack, step table caret offset ⟨context, escaped, stack⟩ c =
          .ok ⟨tag, flag, stack⟩) ∨
      ∃ m : Mark, m.offset = offset ∧ m.code = c.code ∧
        table.find? m.code = some (.bracket m.side m.partner) ∧
          comparable c.tag (context.getD c.tag) = true ∧ escaped = false := by
  cases listed : table.find? c.code with
  | none => exact .inl ⟨context, false, .inl rfl, fun caret stack => by simp [step, listed]⟩
  | some d =>
    cases near : comparable c.tag (context.getD c.tag) with
    | false =>
      exact .inl ⟨some (context.getD c.tag), false, .inr rfl,
        fun caret stack => by simp [step, listed, near]⟩
    | true =>
      cases d with
      | escape =>
        exact .inl ⟨some (context.getD c.tag), !escaped, .inr rfl,
          fun caret stack => by simp [step, listed, near]⟩
      | bracket side partner =>
        cases escaped with
        | false => exact .inr ⟨⟨offset, c.code, side, partner⟩, rfl, rfl, listed, rfl, rfl⟩
        | true =>
          exact .inl ⟨some (context.getD c.tag), false, .inr rfl,
            fun caret stack => by simp [step, listed, near]⟩

/-- What a step does when the search goes on; it does the same to other openings, from other
carets. -/
theorem step_eq_ok (passed : step table caret offset s c = .ok next) :
    (next.context = s.context ∨ next.context = some (s.context.getD c.tag)) ∧
      ((next.stack = s.stack ∧ ∀ caret stack,
          step table caret offset ⟨s.context, s.escaped, stack⟩ c =
            .ok ⟨next.context, next.escaped, stack⟩) ∨
        ∃ m : Mark, m.offset = offset ∧ s.stack.pass .forward caret m = .ok next.stack ∧
          ∀ caret stack,
            step table caret offset ⟨s.context, s.escaped, stack⟩ c =
              (stack.pass .forward caret m).map (⟨next.context, next.escaped, ·⟩)) := by
  obtain ⟨context, escaped, stack⟩ := s
  rcases step_cases table offset context escaped c with
    ⟨tag, flag, kept, same⟩ | ⟨m, rfl, code, listed, near, rfl⟩
  · rw [same] at passed
    cases passed
    exact ⟨kept, .inl ⟨rfl, same⟩⟩
  · rw [step_of_bracket listed code near, map_eq_ok_iff] at passed
    obtain ⟨opened, met, rfl⟩ := passed
    exact ⟨.inr rfl, .inr ⟨m, rfl, met, step_of_bracket listed code near⟩⟩

theorem step_eq_error {outcome : Outcome} (ended : step table caret offset s c = .error outcome) :
    ∃ m : Mark, ∃ context, m.offset = offset ∧ s.stack.pass .forward caret m = .error outcome ∧
      ∀ caret stack,
        step table caret offset ⟨s.context, s.escaped, stack⟩ c =
          (stack.pass .forward caret m).map (⟨context, false, ·⟩) := by
  obtain ⟨context, escaped, stack⟩ := s
  rcases step_cases table offset context escaped c with
    ⟨tag, flag, -, same⟩ | ⟨m, rfl, code, listed, near, rfl⟩
  · rw [same] at ended
    contradiction
  · rw [step_of_bracket listed code near, map_eq_error_iff] at ended
    exact ⟨m, _, rfl, ended, step_of_bracket listed code near⟩

inductive Leads (table : Table) (p : Passage) (caret : Nat) (offset : Nat) (s : State) :
    Nat → State → Prop
  | refl : Leads table p caret offset s offset s
  | step {place : Nat} {t next : State} {c : Cell} (leads : Leads table p caret offset s place t)
      (here : p[place]? = some c) (passed : step table caret place t c = .ok next) :
      Leads table p caret offset s (place + 1) next

theorem search_of_getElem? (here : p[offset]? = some c) :
    search table caret s offset (p.drop offset) =
      match step table caret offset s c with
      | .ok next => search table caret next (offset + 1) (p.drop (offset + 1))
      | .error outcome => outcome := by
  obtain ⟨inside, rfl⟩ := List.getElem?_eq_some_iff.1 here
  rw [List.drop_eq_getElem_cons inside]
  cases passed : step table caret offset s p[offset] <;> simp only [search, passed]

namespace Leads

theorem le (leads : Leads table p caret offset s place t) : offset ≤ place := by
  induction leads with
  | refl => exact Nat.le_refl _
  | step _ _ _ ih => exact Nat.le_succ_of_le ih

theorem trans {offset' : Nat} {u : State} (leads : Leads table p caret offset s offset' u)
    (later : Leads table p caret offset' u place t) : Leads table p caret offset s place t := by
  induction later with
  | refl => exact leads
  | step _ here passed ih => exact ih.step here passed

theorem search_eq (leads : Leads table p caret offset s place t) :
    search table caret s offset (p.drop offset) = search table caret t place (p.drop place) := by
  induction leads with
  | refl => rfl
  | step _ here passed ih => rw [ih, search_of_getElem? here, passed]

theorem forwardOutcome_eq {outcome : Outcome} (leads : Leads table p caret caret start place t)
    (here : p[place]? = some c) (ended : Forward.step table caret place t c = .error outcome) :
    forwardOutcome table p caret = outcome := by
  rw [forwardOutcome, leads.search_eq, search_of_getElem? here, ended]

theorem ascends (leads : Leads table p caret offset s place t) (begins : s.stack.Ascends offset) :
    t.stack.Ascends place := by
  induction leads with
  | refl => exact begins
  | step _ _ passed ih =>
    rcases step_eq_ok passed with ⟨-, ⟨same, -⟩ | ⟨m, rfl, met, -⟩⟩
    · rw [same]
      exact ih.succ
    · exact ih.pass met

end Leads

end Forward

end SyntaxPaint.Bracket

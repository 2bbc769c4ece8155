import Mathlib.Logic.Relation
import SyntaxPaint.Proofs.CaretMoves
import SyntaxPaint.Proofs.Course

/-!
A bracket search in rounds. A round looks at one character and moves a cursor on, over a whole run
of escapes at once; it has no result if it asks for a character that the text does not have. Round
by round, the searches end as they do cell by cell.
-/

namespace SyntaxPaint.Bracket

open Text (Cell Passage comparable)

structure Progress where
  cursor : Nat
  context : Option String
  stack : Stack

/-- Whether a delimiter is one no more, as the innermost opening is a quote that it does not
close. -/
def Delimiter.quotedOut (stack : Stack) (code : Nat) : Delimiter → Bool
  | bracket _ _ => stack.quotesOut code
  | escape => false

def escapesAt (table : Table) (context : String) (p : Passage) (i : Fin p.length) : Bool :=
  escapesIn table context p[i]

def Forward.round? (table : Table) (p : Passage) (caret : Nat) (s : Progress) :
    Option (Except Outcome Progress) :=
  if s.cursor < p.length then do
    let c ← p[s.cursor]?
    match table.find? c.code with
    | none => return .ok { s with cursor := s.cursor + 1 }
    | some d =>
      let context := s.context.getD c.tag
      if comparable c.tag context && !d.quotedOut s.stack c.code then
        match d with
        | .escape =>
          let stop ← Caret.moveWhile? (escapesAt table context p) p.length s.cursor
          return .ok ⟨stop + (stop - s.cursor) % 2, some context, s.stack⟩
        | .bracket side partner =>
          return (s.stack.meet .forward (s.cursor == caret) s.cursor c.code side partner).map
            (⟨s.cursor + 1, some context, ·⟩)
      else return .ok ⟨s.cursor + 1, some context, s.stack⟩
  else return .error (.exhausted (s.stack.getLast?.map Opening.offset))

def Backward.round? (table : Table) (p : Passage) (caret : Nat) (s : Progress) :
    Option (Except Outcome Progress) :=
  match s.cursor with
  | 0 => return .error (.exhausted (s.stack.getLast?.map Opening.offset))
  | offset + 1 => do
    let c ← p[offset]?
    match table.find? c.code with
    | none => return .ok { s with cursor := offset }
    | some d =>
      let context := s.context.getD c.tag
      if comparable c.tag context && !d.quotedOut s.stack c.code then
        let stop ← Caret.moveWhile? (escapesAt table context p) (-p.length) offset
        if (offset - stop) % 2 = 1 then return .ok ⟨stop, some context, s.stack⟩
        else
          match d with
          | .escape => return .ok ⟨stop, some context, s.stack⟩
          | .bracket side partner =>
            return (s.stack.meet .backward (offset + 1 == caret) offset c.code side partner).map
              (⟨stop, some context, ·⟩)
      else return .ok ⟨offset, some context, s.stack⟩

def Direction.round? (table : Table) (p : Passage) (caret : Nat) :
    Direction → Progress → Option (Except Outcome Progress)
  | forward => Forward.round? table p caret
  | backward => Backward.round? table p caret

def Direction.Reaches (table : Table) (p : Passage) (caret : Nat) (direction : Direction) :
    Progress → Prop :=
  Relation.ReflTransGen (fun s next => direction.round? table p caret s = some (.ok next))
    ⟨caret, none, []⟩

def Direction.finish (table : Table) (p : Passage) (caret : Nat) (s : Progress) :
    Direction → Outcome
  | forward => Forward.search table caret ⟨s.context, false, s.stack⟩ s.cursor (p.drop s.cursor)
  | backward => Backward.search table caret ⟨s.context, s.stack⟩ s.cursor (p.take s.cursor).reverse

/-- What a round says about the end of the search, if the rest goes on cell by cell. -/
def Direction.ending (table : Table) (p : Passage) (caret : Nat) (direction : Direction) :
    Except Outcome Progress → Outcome
  | .ok next => direction.finish table p caret next
  | .error outcome => outcome

section Runs

variable {table : Table} {p : Passage} {context : String} {offset stop : Nat}

def EscapeRun (table : Table) (context : String) (p : Passage) (start stop : Nat) : Prop :=
  ∀ i, start ≤ i → i < stop → ∃ c, p[i]? = some c ∧ escapesIn table context c = true

theorem escapeRun_of_crossed (bound : stop ≤ p.length)
    (crossed : ∀ i : Fin p.length, offset ≤ i → i < stop → escapesAt table context p i = true) :
    EscapeRun table context p offset stop := by
  intro i after before
  have inside : i < p.length := Nat.lt_of_lt_of_le before bound
  exact ⟨p[i], List.getElem?_eq_getElem inside, crossed ⟨i, inside⟩ after before⟩

theorem exists_moveWhile?_right (table : Table) (context : String) (inside : offset ≤ p.length) :
    ∃ stop, Caret.moveWhile? (escapesAt table context p) p.length offset = some stop ∧
      offset ≤ stop ∧
      stop ≤ p.length ∧ EscapeRun table context p offset stop ∧
        ∀ c, p[stop]? = some c → escapesIn table context c = false := by
  obtain ⟨stop, moved, bound, follows⟩ :=
    Caret.moveWhile?_spec (escapesAt table context p) p.length inside
  have onward := follows.rightward (Int.natCast_nonneg _)
  refine ⟨stop, moved, onward, bound, ?_, fun c here => ?_⟩
  · exact escapeRun_of_crossed bound fun i after before => follows.crossed i (.inl ⟨after, before⟩)
  · obtain ⟨more, rfl⟩ := List.getElem?_eq_some_iff.1 here
    obtain rfl | ⟨_, ends⟩ := follows.ends_right (Int.natCast_nonneg _) (by omega)
    · exact absurd more (Nat.lt_irrefl _)
    · exact ends

theorem exists_moveWhile?_left (table : Table) (context : String) (inside : offset < p.length) :
    ∃ stop, Caret.moveWhile? (escapesAt table context p) (-p.length) offset = some stop ∧
      stop ≤ offset ∧
      EscapeRun table context p stop offset ∧
        ((p.take offset).reverse.takeWhile (escapesIn table context)).length = offset - stop := by
  have negative : -(p.length : Int) < 0 := by omega
  obtain ⟨stop, moved, bound, follows⟩ :=
    Caret.moveWhile?_spec (escapesAt table context p) (-p.length) (Nat.le_of_lt inside)
  have back := follows.leftward (Int.le_of_lt negative)
  have run : EscapeRun table context p stop offset :=
    escapeRun_of_crossed (Nat.le_of_lt inside) fun i after before =>
      follows.crossed i (.inr ⟨after, before⟩)
  refine ⟨stop, moved, back, run, ?_⟩
  have split : (p.take offset).reverse =
      ((p.drop stop).take (offset - stop)).reverse ++ (p.take stop).reverse := by
    rw [← List.reverse_append, ← List.take_add, Nat.add_sub_cancel' back]
  have escapes : ∀ c ∈ ((p.drop stop).take (offset - stop)).reverse,
      escapesIn table context c = true := by
    intro c member
    obtain ⟨i, listed⟩ := List.mem_iff_getElem?.1 (List.mem_reverse.1 member)
    rw [List.getElem?_take, List.getElem?_drop] at listed
    split_ifs at listed with below
    obtain ⟨_, here, escape⟩ := run (stop + i) (Nat.le_add_right _ _) (by omega)
    rwa [Option.some.inj (listed.symm.trans here)]
  have none : (p.take stop).reverse.takeWhile (escapesIn table context) = [] := by
    cases stop with
    | zero => rfl
    | succ stop =>
      rcases follows.ends_left negative (by omega) with start | ⟨here, ends⟩
      · contradiction
      · have plain : ¬escapesIn table context p[stop] = true := Bool.eq_false_iff.1 ends
        rw [List.take_add_one, List.getElem?_eq_getElem bound, Option.toList_some,
          List.reverse_concat, List.takeWhile_cons_of_neg plain]
  rw [split, List.takeWhile_append_of_pos escapes, none, List.append_nil, List.length_reverse,
    List.length_take, List.length_drop]
  omega

end Runs

namespace Forward

variable {table : Table} {p : Passage} {caret offset : Nat} {s next : Progress}
variable {t : State} {c : Cell}

theorem step_of_escape (escape : escapesIn table (t.context.getD c.tag) c = true) :
    step table caret offset t c = .ok ⟨some (t.context.getD c.tag), !t.escaped, t.stack⟩ := by
  rw [escapesIn, Bool.and_eq_true, beq_iff_eq] at escape
  simp [step, escape]

theorem step_of_escaped {context : String} {stack : Stack}
    (plain : escapesIn table context c = false) :
    step table caret offset ⟨some context, true, stack⟩ c = .ok ⟨some context, false, stack⟩ := by
  unfold step
  cases found : table.find? c.code with
  | none => rfl
  | some d =>
    cases near : comparable c.tag context with
    | false => simp [near]
    | true =>
      cases d with
      | escape => simp [escapesIn, found, near] at plain
      | bracket side partner => simp [near]

theorem escaped_of_step {next : State} (plain : escapesIn table (t.context.getD c.tag) c = false)
    (passed : step table caret offset t c = .ok next) : next.escaped = false := by
  unfold step at passed
  cases found : table.find? c.code with
  | none =>
    rw [found] at passed
    cases passed
    rfl
  | some d =>
    cases near : comparable c.tag (t.context.getD c.tag) with
    | false =>
      simp only [found, near, Bool.false_eq_true, if_false] at passed
      cases passed
      rfl
    | true =>
      cases d with
      | escape => simp [escapesIn, found, near] at plain
      | bracket side partner =>
        simp only [found, near, if_true] at passed
        split_ifs at passed
        · cases passed
          rfl
        · obtain ⟨stack, -, rfl⟩ := map_eq_ok_iff.1 passed
          rfl

theorem round?_of_plain (here : p[s.cursor]? = some c)
    (plain : escapesIn table (s.context.getD c.tag) c = false) :
    round? table p caret s =
      some ((step table caret s.cursor ⟨s.context, false, s.stack⟩ c).map fun t =>
        ⟨s.cursor + 1, t.context, t.stack⟩) := by
  have inside : s.cursor < p.length := (List.getElem?_eq_some_iff.1 here).1
  rw [round?, if_pos inside, here, step]
  cases found : table.find? c.code with
  | none => simp [found, Except.map]
  | some d =>
    cases near : comparable c.tag (s.context.getD c.tag) with
    | false => simp [found, near, Except.map]
    | true =>
      cases d with
      | escape => simp [escapesIn, found, near] at plain
      | bracket side partner =>
        cases quoted : s.stack.quotesOut c.code with
        | true => simp [found, near, Delimiter.quotedOut, quoted, Stack.meet, Except.map]
        | false =>
          simp only [found, near, Delimiter.quotedOut, quoted, Option.bind_eq_bind,
            Option.bind_some]
          cases s.stack.meet .forward (s.cursor == caret) s.cursor c.code side partner <;> rfl

/-- A round at an escape passes over the run of escapes, and over one more cell if their number is
odd. -/
theorem round?_of_escape (here : p[s.cursor]? = some c)
    (escape : escapesIn table (s.context.getD c.tag) c = true) :
    ∃ stop, round? table p caret s =
        some (.ok ⟨stop + (stop - s.cursor) % 2, some (s.context.getD c.tag), s.stack⟩) ∧
      s.cursor < stop ∧ stop ≤ p.length ∧ EscapeRun table (s.context.getD c.tag) p s.cursor stop ∧
        ∀ c', p[stop]? = some c' → escapesIn table (s.context.getD c.tag) c' = false := by
  obtain ⟨inside, -⟩ := List.getElem?_eq_some_iff.1 here
  obtain ⟨stop, moved, onward, bound, run, ends⟩ :=
    exists_moveWhile?_right table (s.context.getD c.tag) (Nat.le_of_lt inside)
  have further : s.cursor ≠ stop := by
    rintro rfl
    exact Bool.noConfusion ((ends c here).symm.trans escape)
  refine ⟨stop, ?_, Nat.lt_of_le_of_ne onward further, bound, run, ends⟩
  rw [escapesIn, Bool.and_eq_true, beq_iff_eq] at escape
  obtain ⟨found, near⟩ := escape
  rw [round?, if_pos inside, here]
  simp [found, near, Delimiter.quotedOut, moved]

theorem Leads.escapes {context : Option String} {stack : Stack} {n : Nat}
    (here : p[offset]? = some c)
    (run : EscapeRun table (context.getD c.tag) p offset (offset + n + 1)) :
    Leads table p caret offset ⟨context, false, stack⟩ (offset + n + 1)
      ⟨some (context.getD c.tag), decide ((n + 1) % 2 = 1), stack⟩ := by
  induction n with
  | zero =>
    obtain ⟨c', same, escape⟩ := run offset (Nat.le_refl _) (by omega)
    obtain rfl := Option.some.inj (here.symm.trans same)
    exact Leads.refl.step here (step_of_escape escape)
  | succ n ih =>
    obtain ⟨c', last, escape⟩ := run (offset + n + 1) (by omega) (by omega)
    have flag : decide ((n + 1 + 1) % 2 = 1) = !decide ((n + 1) % 2 = 1) := by
      rw [← decide_not, decide_eq_decide]
      omega
    have before := ih fun i after before => run i after (by omega)
    rw [flag]
    exact before.step last (step_of_escape escape)

/-- Behind a run of escapes the search goes on as the round does, whatever stands there. -/
theorem finish_behind_escapes {stack : Stack} {context : String} {stop n : Nat}
    (ends : ∀ c', p[stop]? = some c' → escapesIn table context c' = false) :
    search table caret ⟨some context, decide (n % 2 = 1), stack⟩ stop (p.drop stop) =
      Direction.forward.finish table p caret ⟨stop + n % 2, some context, stack⟩ := by
  rcases Nat.mod_two_eq_zero_or_one n with even | odd
  · rw [even]
    rfl
  · rw [odd, decide_eq_true rfl, Direction.finish]
    cases next : p[stop]? with
    | none =>
      have beyond := List.getElem?_eq_none_iff.1 next
      rw [List.drop_eq_nil_of_le beyond, List.drop_eq_nil_of_le (Nat.le_succ_of_le beyond)]
      rfl
    | some c =>
      rw [search_of_getElem? next, step_of_escaped (ends c next)]

theorem finish_eq_ending {result : Except Outcome Progress}
    (turned : round? table p caret s = some result) :
    Direction.forward.finish table p caret s = Direction.forward.ending table p caret result := by
  cases here : p[s.cursor]? with
  | none =>
    have beyond := List.getElem?_eq_none_iff.1 here
    rw [round?, if_neg (Nat.not_lt_of_le beyond)] at turned
    cases turned
    rw [Direction.finish, List.drop_eq_nil_of_le beyond]
    rfl
  | some c =>
    cases plain : escapesIn table (s.context.getD c.tag) c with
    | false =>
      rw [round?_of_plain here plain] at turned
      cases turned
      rw [Direction.finish, search_of_getElem? here]
      cases passed : step table caret s.cursor ⟨s.context, false, s.stack⟩ c with
      | error outcome => rfl
      | ok t =>
        have flag := escaped_of_step plain passed
        simp only [Except.map, Direction.ending, Direction.finish, ← flag]
    | true =>
      obtain ⟨stop, skipped, onward, -, run, ends⟩ := round?_of_escape here plain
      rw [skipped] at turned
      cases turned
      obtain ⟨n, rfl⟩ := Nat.exists_eq_add_of_lt onward
      have length : s.cursor + n + 1 - s.cursor = n + 1 := by omega
      rw [Direction.finish, (Leads.escapes here run).search_eq, length]
      exact finish_behind_escapes ends

end Forward

namespace Backward

variable {table : Table} {p : Passage} {caret offset : Nat} {s next : Progress} {c : Cell}

theorem search_of_getElem? (here : p[offset]? = some c) (t : State) :
    search table caret t (offset + 1) (p.take (offset + 1)).reverse =
      match step table caret offset t c (p.take offset).reverse with
      | .ok next => search table caret next offset (p.take offset).reverse
      | .error outcome => outcome := by
  rw [List.take_add_one, here, Option.toList_some, List.reverse_concat]
  cases passed : step table caret offset t c (p.take offset).reverse <;> simp only [search, passed]

theorem search_over_escapes {context : String} {t : State} {stop : Nat}
    (known : t.context = some context) (back : stop ≤ offset)
    (run : EscapeRun table context p stop offset) :
    search table caret t offset (p.take offset).reverse =
      search table caret t stop (p.take stop).reverse := by
  obtain ⟨n, rfl⟩ := Nat.exists_eq_add_of_le back
  induction n with
  | zero => rfl
  | succ n ih =>
    obtain ⟨c, here, escape⟩ := run (stop + n) (Nat.le_add_right _ _) (Nat.lt_succ_self _)
    rw [escapesIn, Bool.and_eq_true, beq_iff_eq] at escape
    have passed : step table caret (stop + n) t c (p.take (stop + n)).reverse = .ok t := by
      cases t
      cases known
      simp [step, escape]
    rw [← Nat.add_assoc, search_of_getElem? here, passed]
    exact ih (Nat.le_add_right _ _) fun i after before => run i after (Nat.lt_succ_of_lt before)

theorem context_of_step {t t' : State} {before : Passage} (listed : (table.find? c.code).isSome)
    (passed : step table caret offset t c before = .ok t') :
    t'.context = some (t.context.getD c.tag) := by
  unfold step at passed
  obtain ⟨d, found⟩ := Option.isSome_iff_exists.1 listed
  rw [found] at passed
  cases d with
  | escape =>
    cases passed
    rfl
  | bracket side partner =>
    dsimp only at passed
    split_ifs at passed
    · obtain ⟨stack, -, rfl⟩ := Forward.map_eq_ok_iff.1 passed
      rfl
    · cases passed
      rfl

theorem round?_eq (table : Table) (caret : Nat) (place : s.cursor = offset + 1)
    (here : p[offset]? = some c) :
    ∃ stop, stop ≤ offset ∧
      round? table p caret s =
        some ((step table caret offset ⟨s.context, s.stack⟩ c (p.take offset).reverse).map fun t =>
          ⟨stop, t.context, t.stack⟩) ∧
      (stop = offset ∨ (table.find? c.code).isSome ∧
        EscapeRun table (s.context.getD c.tag) p stop offset) := by
  obtain ⟨inside, -⟩ := List.getElem?_eq_some_iff.1 here
  rw [round?, place]
  simp only [here, Option.bind_eq_bind, Option.bind_some]
  cases found : table.find? c.code with
  | none => exact ⟨offset, Nat.le_refl _, by simp [step, found, Except.map], .inl rfl⟩
  | some d =>
    cases near : comparable c.tag (s.context.getD c.tag) with
    | false =>
      refine ⟨offset, Nat.le_refl _, ?_, .inl rfl⟩
      cases d <;> simp [step, found, near, Except.map]
    | true =>
      cases quoted : d.quotedOut s.stack c.code with
      | true =>
        refine ⟨offset, Nat.le_refl _, ?_, .inl rfl⟩
        cases d with
        | escape => contradiction
        | bracket side partner =>
          have passed : s.stack.meet .backward (offset + 1 == caret) offset c.code side partner =
              .ok s.stack := if_pos quoted
          simp only [step, found, near, quoted, passed]
          cases escaped table (s.context.getD c.tag) (p.take offset).reverse <;> rfl
      | false =>
        obtain ⟨stop, moved, back, run, count⟩ :=
          exists_moveWhile?_left table (s.context.getD c.tag) inside
        refine ⟨stop, back, ?_, .inr ⟨rfl, run⟩⟩
        have parity : escaped table (s.context.getD c.tag) (p.take offset).reverse =
            ((offset - stop) % 2 == 1) := by
          rw [escaped, count]
        simp only [near, quoted, moved, step, found, parity]
        cases d with
        | escape => simp [Except.map]
        | bracket side partner =>
          by_cases odd : (offset - stop) % 2 = 1
          · simp [odd, Except.map]
          · simp only [odd, beq_eq_false_iff_ne.2 odd, Bool.not_false, Bool.and_self, if_true,
              if_false, Option.bind_some]
            cases s.stack.meet .backward (offset + 1 == caret) offset c.code side partner <;> rfl

theorem finish_eq_ending {result : Except Outcome Progress}
    (turned : round? table p caret s = some result) :
    Direction.backward.finish table p caret s = Direction.backward.ending table p caret result := by
  cases place : s.cursor with
  | zero =>
    rw [round?, place] at turned
    cases turned
    rw [Direction.finish, place]
    rfl
  | succ offset =>
    cases here : p[offset]? with
    | none =>
      simp only [round?, place, here, Option.bind_eq_bind, Option.bind_none] at turned
      contradiction
    | some c =>
      obtain ⟨stop, back, round, rest⟩ := round?_eq table caret place here
      rw [round] at turned
      cases turned
      rw [Direction.finish, place, search_of_getElem? here]
      cases passed : step table caret offset ⟨s.context, s.stack⟩ c (p.take offset).reverse with
      | error outcome => rfl
      | ok t =>
        rcases rest with rfl | ⟨listed, run⟩
        · rfl
        · exact search_over_escapes (context_of_step listed passed) back run

end Backward

namespace Direction

variable {direction : Direction} {table : Table} {p : Passage} {caret : Nat} {s : Progress}
  {result : Except Outcome Progress}

theorem finish_eq_ending (turned : direction.round? table p caret s = some result) :
    direction.finish table p caret s = direction.ending table p caret result := by
  cases direction with
  | forward => exact Forward.finish_eq_ending turned
  | backward => exact Backward.finish_eq_ending turned

theorem Reaches.finish_eq (reaches : direction.Reaches table p caret s) :
    direction.finish table p caret ⟨caret, none, []⟩ = direction.finish table p caret s := by
  induction reaches with
  | refl => rfl
  | tail _ turned ih => exact ih.trans (finish_eq_ending turned)

theorem Reaches.finish_eq_of_error {outcome : Outcome} (reaches : direction.Reaches table p caret s)
    (ended : direction.round? table p caret s = some (.error outcome)) :
    direction.finish table p caret ⟨caret, none, []⟩ = outcome :=
  reaches.finish_eq.trans (finish_eq_ending ended)

end Direction

end SyntaxPaint.Bracket

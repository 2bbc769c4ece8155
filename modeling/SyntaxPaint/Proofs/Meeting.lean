import Mathlib.Tactic.SplitIfs
import SyntaxPaint.Proofs.Marks

/-!
What one mark does to the openings of a search, said once for each way in which the search can go on
and for the way in which it finds its match. Whatever the marks are, the outermost opening is next
to the caret.
-/

namespace SyntaxPaint.Bracket

def Mark.opening (m : Mark) : Opening :=
  ⟨m.offset, m.partner, m.side = .left ∧ m.partner = m.code⟩

def Mark.IsSymmetric (m : Mark) : Prop :=
  m.side = .left ∧ m.partner = m.code

/-- A mark that opens in a direction, if nothing waits for it. -/
def Mark.Opens (m : Mark) (direction : Direction) : Prop :=
  m.IsSymmetric ∨ m.side = direction.opener

theorem Mark.opening_of_symmetric {m : Mark} (symmetric : m.IsSymmetric) :
    m.opening = ⟨m.offset, m.code, true⟩ := by
  simp [Mark.opening, symmetric.1, symmetric.2]

theorem Mark.opening_of_not_symmetric {m : Mark} (plain : ¬m.IsSymmetric) :
    m.opening = ⟨m.offset, m.partner, false⟩ := by
  simpa [Mark.opening, IsSymmetric] using plain

def Direction.flip : Direction → Direction
  | forward => backward
  | backward => forward

theorem Direction.opener_flip_ne (direction : Direction) :
    direction.opener ≠ direction.flip.opener := by
  cases direction <;> decide

theorem Direction.eq_opener_or (direction : Direction) (side : Side) :
    side = direction.opener ∨ side = direction.flip.opener := by
  cases direction <;> cases side <;> decide

def Outcome.place? : Outcome → Option Nat
  | matched offset | stray offset | tooDeep offset | unopened offset | mismatched offset _ =>
    some offset
  | exhausted _ => none

def Direction.touches (caret offset : Nat) : Direction → Bool
  | forward => offset == caret
  | backward => offset + 1 == caret

theorem Direction.touches_offset (direction : Direction) (caret : Nat) (m : Mark) :
    direction.touches caret m.offset = direction.atCaret caret m := by
  cases direction <;> rfl

namespace Stack

variable {direction : Direction} {caret : Nat} {stack next : Stack} {m : Mark} {ms : List Mark}

theorem closes_of_not_symmetric (plain : ¬m.IsSymmetric) :
    stack.closes direction m.code m.side m.partner = (m.side != direction.opener) :=
  if_neg plain

theorem closes_cons_of_symmetric (symmetric : m.IsSymmetric) (top : Opening) :
    closes (top :: stack) direction m.code m.side m.partner = (top.partner == m.code) :=
  if_pos symmetric

theorem closes_nil_of_opens (opens : m.Opens direction) :
    closes [] direction m.code m.side m.partner = false := by
  by_cases symmetric : m.IsSymmetric
  · exact if_pos symmetric
  · rw [closes_of_not_symmetric symmetric, opens.resolve_left symmetric, bne_self_eq_false]

theorem opens_of_closes_eq_false
    (opening : stack.closes direction m.code m.side m.partner = false) :
    m.Opens direction := by
  by_cases symmetric : m.IsSymmetric
  · exact .inl symmetric
  · rw [closes_of_not_symmetric symmetric, bne_eq_false_iff_eq] at opening
    exact .inr opening

theorem opens_flip_of_closes (closing : stack.closes direction m.code m.side m.partner = true) :
    m.Opens direction.flip := by
  by_cases symmetric : m.IsSymmetric
  · exact .inl symmetric
  · rw [closes_of_not_symmetric symmetric, bne_iff_ne] at closing
    exact .inr ((direction.eq_opener_or m.side).resolve_left closing)

theorem pass_eq (direction : Direction) (caret : Nat) (stack : Stack) (m : Mark) :
    stack.pass direction caret m =
      if stack.quotesOut m.code then .ok stack
      else if stack.closes direction m.code m.side m.partner then stack.pop m.offset m.code
      else stack.push (direction.atCaret caret m) m.opening := rfl

theorem pass_of_quoted (quoted : stack.quotesOut m.code = true) :
    stack.pass direction caret m = .ok stack := by
  unfold pass meet
  rw [quoted, if_pos rfl]

theorem pass_of_closes {top : Opening} {rest : Stack}
    (outside : quotesOut (top :: rest) m.code = false)
    (closing : closes (top :: rest) direction m.code m.side m.partner = true)
    (waits : top.partner = m.code) :
    pass direction caret (top :: rest) m =
      if rest.isEmpty then .error (.matched m.offset) else .ok rest := by
  unfold pass meet
  rw [outside, if_neg Bool.false_ne_true, closing, if_pos rfl, pop, if_neg (not_not_intro waits)]

theorem pass_of_opens (outside : stack.quotesOut m.code = false)
    (opening : stack.closes direction m.code m.side m.partner = false)
    (near : stack = [] → direction.atCaret caret m = true) (short : stack.length ≠ maxNesting) :
    stack.pass direction caret m = .ok (m.opening :: stack) := by
  have anchored : ¬(stack.isEmpty && !direction.atCaret caret m) = true := by
    intro stray
    rw [Bool.and_eq_true, List.isEmpty_iff, Bool.not_eq_true'] at stray
    rw [near stray.1] at stray
    exact Bool.noConfusion stray.2
  unfold pass meet
  rw [outside, if_neg Bool.false_ne_true, opening, if_neg Bool.false_ne_true, push, if_neg anchored,
    if_neg short]
  rfl

theorem pass_of_full (outside : stack.quotesOut m.code = false)
    (opening : stack.closes direction m.code m.side m.partner = false) (nonempty : stack ≠ [])
    (full : stack.length = maxNesting) :
    stack.pass direction caret m = .error (.tooDeep m.offset) := by
  have anchored : ¬(stack.isEmpty && !direction.atCaret caret m) = true := by
    rw [Bool.and_eq_true, List.isEmpty_iff]
    exact fun stray => nonempty stray.1
  unfold pass meet
  rw [outside, if_neg Bool.false_ne_true, opening, if_neg Bool.false_ne_true, push, if_neg anchored,
    if_pos full]

theorem pass_eq_ok (passed : stack.pass direction caret m = .ok next) :
    (stack.quotesOut m.code = true ∧ next = stack) ∨
      (stack.quotesOut m.code = false ∧ stack.closes direction m.code m.side m.partner = true ∧
        next ≠ [] ∧ ∃ top, top.partner = m.code ∧ stack = top :: next) ∨
      (stack.quotesOut m.code = false ∧ stack.closes direction m.code m.side m.partner = false ∧
        (stack = [] → direction.atCaret caret m = true) ∧ stack.length ≠ maxNesting ∧
          next = m.opening :: stack) := by
  unfold pass meet at passed
  cases quoted : stack.quotesOut m.code with
  | true =>
    rw [quoted, if_pos rfl] at passed
    exact .inl ⟨rfl, (Except.ok.inj passed).symm⟩
  | false =>
    rw [quoted, if_neg Bool.false_ne_true] at passed
    cases closing : stack.closes direction m.code m.side m.partner with
    | true =>
      rw [closing, if_pos rfl] at passed
      cases stack with
      | nil => contradiction
      | cons top rest =>
        simp only [pop] at passed
        split_ifs at passed with different alone
        · cases passed
          have waits := Decidable.not_not.1 different
          exact .inr (.inl ⟨rfl, rfl, by simpa using alone, top, waits, rfl⟩)
    | false =>
      rw [closing, if_neg Bool.false_ne_true] at passed
      unfold push at passed
      split_ifs at passed with stray deep
      · cases passed
        refine .inr (.inr ⟨rfl, rfl, ?_, deep, rfl⟩)
        rintro rfl
        simpa using stray

theorem pass_eq_matched {offset : Nat} :
    stack.pass direction caret m = .error (.matched offset) ↔
      stack.quotesOut m.code = false ∧ stack.closes direction m.code m.side m.partner = true ∧
        m.offset = offset ∧ ∃ top, top.partner = m.code ∧ stack = [top] := by
  unfold pass meet
  cases stack.quotesOut m.code with
  | true => simp
  | false =>
    cases closing : stack.closes direction m.code m.side m.partner with
    | true =>
      cases stack with
      | nil => simp [pop]
      | cons top rest =>
        cases rest with
        | nil => by_cases same : top.partner = m.code <;> simp [pop, same]
        | cons below rest => by_cases same : top.partner = m.code <;> simp [pop, same]
    | false =>
      simp only [push, Bool.false_eq_true, if_false, false_and, and_false, iff_false]
      split_ifs <;> simp

theorem pass_eq_mismatched {offset opening : Nat} :
    stack.pass direction caret m = .error (.mismatched offset opening) ↔
      stack.quotesOut m.code = false ∧ stack.closes direction m.code m.side m.partner = true ∧
        m.offset = offset ∧
        ∃ top rest, top.partner ≠ m.code ∧ top.offset = opening ∧ stack = top :: rest := by
  unfold pass meet
  cases stack.quotesOut m.code with
  | true => simp
  | false =>
    cases closing : stack.closes direction m.code m.side m.partner with
    | true =>
      cases stack with
      | nil => simp [pop]
      | cons top rest =>
        by_cases same : top.partner = m.code
        · cases rest <;> simp [pop, same]
        · simp [pop, same]
    | false =>
      simp only [push, Bool.false_eq_true, if_false, false_and, and_false, iff_false]
      split_ifs <;> simp

theorem place?_of_pass_eq_error {outcome : Outcome}
    (ended : stack.pass direction caret m = .error outcome) :
    outcome.place? = some m.offset := by
  unfold pass meet pop push at ended
  split_ifs at ended
  · cases stack with
    | nil =>
      cases ended
      rfl
    | cons top rest =>
      dsimp only at ended
      split_ifs at ended <;> cases ended <;> rfl
  all_goals
    cases ended
    rfl

theorem passAll_eq_error {outcome : Outcome}
    (ended : stack.passAll direction caret ms = .error outcome) :
    ∃ before m after reached, ms = before ++ m :: after ∧
      stack.passAll direction caret before = .ok reached ∧
      Stack.pass direction caret reached m = .error outcome := by
  induction ms generalizing stack with
  | nil => contradiction
  | cons m ms ih =>
    rw [passAll_cons] at ended
    cases here : stack.pass direction caret m with
    | error other =>
      rw [here] at ended
      cases ended
      exact ⟨[], m, ms, stack, rfl, rfl, here⟩
    | ok next =>
      rw [here] at ended
      obtain ⟨before, n, after, reached, rfl, through, last⟩ := ih ended
      refine ⟨m :: before, n, after, reached, rfl, ?_, last⟩
      rw [passAll_cons, here]
      exact through

theorem exists_atCaret_of_matched {offset : Nat}
    (matched : passAll direction caret [] ms = .error (.matched offset)) :
    ∃ first ∈ ms, direction.atCaret caret first = true := by
  obtain ⟨before, last, after, reached, rfl, through, ended⟩ := passAll_eq_error matched
  obtain ⟨-, -, -, top, -, rfl⟩ := pass_eq_matched.1 ended
  cases before with
  | nil => simp at through
  | cons first rest =>
    obtain ⟨opened, start, -⟩ := passAll_cons_eq_ok through
    refine ⟨first, List.mem_append_left _ List.mem_cons_self, ?_⟩
    rcases pass_eq_ok start with ⟨quoted, -⟩ | ⟨-, -, -, t, -, none⟩ | ⟨-, -, near, -, -⟩
    · contradiction
    · contradiction
    · exact near rfl

theorem passAll_append_eq_matched {later : List Mark} {offset : Nat}
    (elsewhere : ∀ m ∈ later, m.offset ≠ offset) :
    stack.passAll direction caret (ms ++ later) = .error (.matched offset) ↔
      stack.passAll direction caret ms = .error (.matched offset) := by
  constructor
  · intro matched
    cases reached : stack.passAll direction caret ms with
    | error outcome => rwa [passAll_append_of_error reached] at matched
    | ok next =>
      rw [passAll_append_of_ok reached] at matched
      obtain ⟨before, last, after, _, rfl, -, ended⟩ := passAll_eq_error matched
      obtain ⟨-, -, place, -⟩ := pass_eq_matched.1 ended
      exact absurd place (elsewhere last (by simp))
  · intro matched
    exact passAll_append_of_error matched later

/-- The outermost opening is next to the caret. -/
def Anchored (direction : Direction) (caret : Nat) (stack : Stack) : Prop :=
  ∀ o, stack.getLast? = some o → direction.touches caret o.offset = true

theorem anchored_nil : Anchored direction caret [] := by
  simp [Anchored]

theorem Anchored.pass (anchored : Anchored direction caret stack)
    (passed : stack.pass direction caret m = .ok next) : Anchored direction caret next := by
  rcases pass_eq_ok passed with ⟨-, rfl⟩ | ⟨-, -, more, top, -, rfl⟩ | ⟨-, -, near, -, rfl⟩
  · exact anchored
  · intro o last
    apply anchored
    rwa [List.getLast?_cons_of_ne_nil more]
  · intro o last
    by_cases first : stack = []
    · subst first
      obtain rfl : m.opening = o := by simpa using last
      exact (direction.touches_offset caret m).trans (near rfl)
    · apply anchored
      rwa [List.getLast?_cons_of_ne_nil first] at last

theorem Anchored.passAll (anchored : Anchored direction caret stack)
    (passed : stack.passAll direction caret ms = .ok next) : Anchored direction caret next := by
  induction ms generalizing stack with
  | nil =>
    cases passed
    exact anchored
  | cons m ms ih =>
    obtain ⟨middle, first, later⟩ := passAll_cons_eq_ok passed
    exact ih (anchored.pass first) later

end Stack

@[simp] theorem conclusion_eq_matched {reached : Except Outcome Stack} {offset : Nat} :
    conclusion reached = .matched offset ↔ reached = .error (.matched offset) := by
  cases reached <;> simp [conclusion]

section Conclusion

variable {direction : Direction} {caret : Nat} {ms : List Mark}

theorem exists_mem_of_place? {place : Nat}
    (ended : (conclusion (Stack.passAll direction caret [] ms)).place? = some place) :
    ∃ m ∈ ms, m.offset = place := by
  cases run : Stack.passAll direction caret [] ms with
  | ok stack =>
    rw [run] at ended
    contradiction
  | error outcome =>
    rw [run] at ended
    obtain ⟨before, m, after, _, rfl, -, last⟩ := Stack.passAll_eq_error run
    have found : some m.offset = some place := (Stack.place?_of_pass_eq_error last).symm.trans ended
    exact ⟨m, by simp, Option.some.inj found⟩

theorem touches_of_exhausted {outermost : Nat}
    (ended : conclusion (Stack.passAll direction caret [] ms) = .exhausted (some outermost)) :
    direction.touches caret outermost = true := by
  cases run : Stack.passAll direction caret [] ms with
  | ok stack =>
    rw [run] at ended
    obtain ⟨o, last, rfl⟩ : ∃ o, stack.getLast? = some o ∧ o.offset = outermost := by
      simpa [conclusion] using ended
    exact (Stack.anchored_nil.passAll run) o last
  | error outcome =>
    rw [run] at ended
    obtain ⟨_, m, _, _, -, -, last⟩ := Stack.passAll_eq_error run
    have found := Stack.place?_of_pass_eq_error last
    rw [show outcome = .exhausted (some outermost) from ended] at found
    contradiction

end Conclusion

end SyntaxPaint.Bracket

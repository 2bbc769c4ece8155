import SyntaxPaint.Proofs.Rounds

/-!
The openings of a search, in every round. There are at most ten of them, in the order of the search
and between its caret and its cursor; the outermost one is the delimiter at the caret, and only the
innermost one can be a quote. So a search asks only for characters of the text, and moves the caret
in its direction or not at all.
-/

namespace SyntaxPaint.Bracket

open Text (Cell Passage)

structure Mark.Stands (table : Table) (p : Passage) (m : Mark) : Prop where
  here : ∃ c, p[m.offset]? = some c ∧ m.code = c.code
  listed : table.find? m.code = some (.bracket m.side m.partner)

def Opening.Stands (table : Table) (p : Passage) (o : Opening) : Prop :=
  ∃ m : Mark, m.Stands table p ∧ m.opening = o

namespace Direction

def Precedes (first later : Nat) : Direction → Prop
  | forward => first < later
  | backward => later < first

def Between (caret cursor offset : Nat) : Direction → Prop
  | forward => caret ≤ offset ∧ offset < cursor
  | backward => cursor ≤ offset ∧ offset < caret

/-- Where a cursor can be; an escape at the end of the text takes it one past the end. -/
def Bounds (size caret cursor : Nat) : Direction → Prop
  | forward => caret ≤ cursor ∧ cursor ≤ size + 1
  | backward => cursor ≤ caret

def Lands (size caret result : Nat) : Direction → Prop
  | forward => caret ≤ result ∧ result ≤ size
  | backward => result ≤ caret

def distance (size cursor : Nat) : Direction → Nat
  | forward => size + 1 - cursor
  | backward => cursor

end Direction

structure Progress.Shape (table : Table) (p : Passage) (direction : Direction) (caret : Nat)
    (s : Progress) : Prop where
  bounds : direction.Bounds p.length caret s.cursor
  length_le : s.stack.length ≤ maxNesting
  ordered : s.stack.Pairwise fun inner outer => direction.Precedes outer.offset inner.offset
  between : ∀ o ∈ s.stack, direction.Between caret s.cursor o.offset
  /-- The outermost opening is next to the caret. -/
  anchored : s.stack.Anchored direction caret
  /-- Only the innermost opening can be a quote. -/
  plain : ∀ o ∈ s.stack.tail, o.symmetric = false
  stands : ∀ o ∈ s.stack, o.Stands table p

/-- What comes of a round: the end of the text, a cursor further on, or what the bracket in front of
the cursor does to the openings. -/
def Progress.Turns (table : Table) (p : Passage) (direction : Direction) (caret : Nat)
    (s : Progress) (result : Except Outcome Progress) : Prop :=
  result = .error (.exhausted (s.stack.getLast?.map Opening.offset)) ∨
    ∃ cursor context, direction.Bounds p.length caret cursor ∧ direction.Precedes s.cursor cursor ∧
      (result = .ok ⟨cursor, context, s.stack⟩ ∨
        ∃ m : Mark, direction.near m.offset = s.cursor ∧ m.Stands table p ∧
          result = (s.stack.pass direction caret m).map (⟨cursor, context, ·⟩))

theorem map_map {α β γ : Type} (result : Except Outcome α) (f : α → β) (g : β → γ) :
    (result.map f).map g = result.map fun a => g (f a) :=
  Functor.map_map f g result

section Turns

variable {table : Table} {p : Passage} {caret : Nat} {s : Progress}

theorem Forward.exists_round? (bounds : Direction.forward.Bounds p.length caret s.cursor) :
    ∃ result, round? table p caret s = some result ∧ s.Turns table p .forward caret result := by
  cases here : p[s.cursor]? with
  | none => exact ⟨_, if_neg (Nat.not_lt_of_le (List.getElem?_eq_none_iff.1 here)), .inl rfl⟩
  | some c =>
    obtain ⟨inside, -⟩ := List.getElem?_eq_some_iff.1 here
    have after := bounds.1
    cases plain : escapesIn table (s.context.getD c.tag) c with
    | true =>
      obtain ⟨stop, skipped, onward, bound, -⟩ := round?_of_escape here plain
      have parity := Nat.mod_lt (stop - s.cursor) Nat.two_pos
      exact ⟨_, skipped, .inr ⟨_, _, ⟨by omega, by omega⟩, Nat.lt_add_right _ onward, .inl rfl⟩⟩
    | false =>
      refine ⟨_, round?_of_plain here plain, .inr ⟨s.cursor + 1, ?_⟩⟩
      rcases step_cases table s.cursor s.context false c with
        ⟨tag, flag, -, same⟩ | ⟨m, place, code, listed, near, -⟩
      · rw [same]
        exact ⟨tag, ⟨by omega, by omega⟩, Nat.lt_succ_self _, .inl rfl⟩
      · rw [← place, step_of_bracket listed code near, map_map, place]
        have stands : m.Stands table p := ⟨⟨c, place ▸ here, code⟩, listed⟩
        exact ⟨_, ⟨by omega, by omega⟩, Nat.lt_succ_self _, .inr ⟨m, place, stands, rfl⟩⟩

theorem Backward.step_cases (table : Table) (caret offset : Nat) (t : State) (c : Cell)
    (before : Passage) :
    (∃ tag, step table caret offset t c before = .ok ⟨tag, t.stack⟩) ∨
      ∃ m : Mark, ∃ tag, m.offset = offset ∧ m.code = c.code ∧
        table.find? m.code = some (.bracket m.side m.partner) ∧
          step table caret offset t c before = (t.stack.pass .backward caret m).map (⟨tag, ·⟩) := by
  unfold step
  cases found : table.find? c.code with
  | none => exact .inl ⟨_, rfl⟩
  | some d =>
    cases d with
    | escape => exact .inl ⟨_, rfl⟩
    | bracket side partner =>
      dsimp only
      split_ifs
      · exact .inr ⟨⟨offset, c.code, side, partner⟩, _, rfl, rfl, found, rfl⟩
      · exact .inl ⟨_, rfl⟩

theorem Backward.exists_round? (inside : caret ≤ p.length)
    (bounds : Direction.backward.Bounds p.length caret s.cursor) :
    ∃ result, round? table p caret s = some result ∧ s.Turns table p .backward caret result := by
  have limit : s.cursor ≤ caret := bounds
  cases place : s.cursor with
  | zero => exact ⟨_, by rw [round?, place]; rfl, .inl rfl⟩
  | succ offset =>
    have here := List.getElem?_eq_getElem (show offset < p.length by omega)
    obtain ⟨stop, back, round, -⟩ := round?_eq table caret place here
    refine ⟨_, round, .inr ⟨stop, ?_⟩⟩
    have before : stop < s.cursor := by omega
    have within : stop ≤ caret := by omega
    rcases step_cases table caret offset ⟨s.context, s.stack⟩ p[offset] (p.take offset).reverse with
      ⟨tag, same⟩ | ⟨m, tag, rfl, code, listed, met⟩
    · rw [same]
      exact ⟨tag, within, before, .inl rfl⟩
    · rw [met, map_map]
      exact ⟨tag, within, before, .inr ⟨m, place.symm, ⟨⟨_, here, code⟩, listed⟩, rfl⟩⟩

theorem Direction.exists_round? {direction : Direction} (table : Table) (inside : caret ≤ p.length)
    (bounds : direction.Bounds p.length caret s.cursor) :
    ∃ result, direction.round? table p caret s = some result ∧
      s.Turns table p direction caret result := by
  cases direction with
  | forward => exact Forward.exists_round? bounds
  | backward => exact Backward.exists_round? inside bounds

end Turns

namespace Direction

variable {direction : Direction} {size caret cursor next offset other : Nat}

theorem Between.onward (between : direction.Between caret cursor offset)
    (onward : direction.Precedes cursor next) :
    direction.Between caret next offset := by
  cases direction <;> simp only [Between, Precedes] at * <;> omega

theorem between_of_near (bounds : direction.Bounds size caret cursor)
    (near : direction.near offset = cursor) (onward : direction.Precedes cursor next) :
    direction.Between caret next offset := by
  cases direction <;> simp only [Between, Precedes, Bounds, Direction.near] at * <;> omega

theorem Between.precedes (between : direction.Between caret cursor other)
    (near : direction.near offset = cursor) :
    direction.Precedes other offset := by
  cases direction <;> simp only [Between, Precedes, Direction.near] at * <;> omega

theorem distance_lt (bounds : direction.Bounds size caret next)
    (onward : direction.Precedes cursor next) :
    direction.distance size next < direction.distance size cursor := by
  cases direction <;> simp only [distance, Precedes, Bounds] at * <;> omega

end Direction

section Shape

variable {table : Table} {p : Passage} {direction : Direction} {caret cursor : Nat}
variable {context : Option String} {s next : Progress} {m : Mark} {top : Opening} {stack : Stack}

/-- A bracket that opens is not met inside quotes: what a quote waits for has its character and
closes it. -/
theorem Stack.symmetric_eq_false_of_opens {rest : Stack} (made : top.Stands table p)
    (stands : m.Stands table p) (outside : quotesOut (top :: rest) m.code = false)
    (opening : closes (top :: rest) direction m.code m.side m.partner = false) :
    top.symmetric = false := by
  obtain ⟨n, standing, rfl⟩ := made
  refine Bool.eq_false_iff.2 fun symmetric => ?_
  have waits : n.opening.partner = m.code := by simpa [quotesOut, symmetric] using outside
  obtain ⟨side, partner⟩ : n.side = .left ∧ n.partner = n.code := by
    simpa [Mark.opening] using symmetric
  have code : n.code = m.code := partner.symm.trans waits
  have listed := standing.listed
  rw [code, stands.listed] at listed
  obtain ⟨sameSide, samePartner⟩ := Delimiter.bracket.inj (Option.some.inj listed)
  have quote : m.IsSymmetric := ⟨sameSide.trans side, samePartner.trans waits⟩
  rw [closes_cons_of_symmetric quote] at opening
  exact beq_eq_false_iff_ne.1 opening waits

namespace Progress

theorem shape_start (inside : caret ≤ p.length) :
    Shape table p direction caret ⟨caret, none, []⟩ where
  bounds := by cases direction <;> simp only [Direction.Bounds] <;> omega
  length_le := Nat.zero_le _
  ordered := .nil
  between := List.forall_mem_nil _
  anchored := Stack.anchored_nil
  plain := List.forall_mem_nil _
  stands := List.forall_mem_nil _

theorem Shape.onward (shape : s.Shape table p direction caret)
    (bounds : direction.Bounds p.length caret cursor)
    (onward : direction.Precedes s.cursor cursor) :
    Shape table p direction caret ⟨cursor, context, s.stack⟩ :=
  { shape with
    bounds
    between := fun o member => (shape.between o member).onward onward }

theorem Shape.pass (shape : s.Shape table p direction caret)
    (bounds : direction.Bounds p.length caret cursor) (onward : direction.Precedes s.cursor cursor)
    (near : direction.near m.offset = s.cursor) (stands : m.Stands table p)
    (passed : s.stack.pass direction caret m = .ok stack) :
    Shape table p direction caret ⟨cursor, context, stack⟩ := by
  have anchored := shape.anchored.pass passed
  rcases Stack.pass_eq_ok passed with
    ⟨-, rfl⟩ | ⟨-, -, -, top, -, front⟩ | ⟨outside, opening, -, short, rfl⟩
  · exact shape.onward bounds onward
  · have below : stack = s.stack.tail := by rw [front, List.tail_cons]
    have kept {o : Opening} (member : o ∈ stack) : o ∈ s.stack :=
      front ▸ List.mem_cons_of_mem _ member
    exact
      { bounds
        length_le := Nat.le_trans (by rw [front]; exact Nat.le_succ _) shape.length_le
        ordered := below ▸ shape.ordered.tail
        between := fun o member => (shape.between o (kept member)).onward onward
        anchored
        plain := fun o member => shape.plain o (below ▸ List.mem_of_mem_tail member)
        stands := fun o member => shape.stands o (kept member) }
  · have plain : ∀ o ∈ s.stack, o.symmetric = false := by
      intro o member
      cases front : s.stack with
      | nil =>
        rw [front] at member
        contradiction
      | cons top rest =>
        rw [front] at member outside opening
        rcases List.mem_cons.1 member with rfl | below
        · have made : o.Stands table p := shape.stands o (front ▸ List.mem_cons_self)
          exact Stack.symmetric_eq_false_of_opens made stands outside opening
        · exact shape.plain o (by rwa [front])
    exact
      { bounds
        length_le := Nat.lt_of_le_of_ne shape.length_le short
        ordered := List.pairwise_cons.2
          ⟨fun o member => (shape.between o member).precedes near, shape.ordered⟩
        between := List.forall_mem_cons.2 ⟨Direction.between_of_near shape.bounds near onward,
          fun o member => (shape.between o member).onward onward⟩
        anchored
        plain
        stands := List.forall_mem_cons.2 ⟨⟨m, stands, rfl⟩, shape.stands⟩ }

theorem Shape.turns (shape : s.Shape table p direction caret) (inside : caret ≤ p.length)
    {result : Except Outcome Progress} (turned : direction.round? table p caret s = some result) :
    s.Turns table p direction caret result := by
  obtain ⟨other, round, turns⟩ := Direction.exists_round? table inside shape.bounds
  rwa [Option.some.inj (turned.symm.trans round)]

theorem Shape.round? (shape : s.Shape table p direction caret) (inside : caret ≤ p.length)
    (turned : direction.round? table p caret s = some (.ok next)) :
    next.Shape table p direction caret ∧ direction.Precedes s.cursor next.cursor := by
  rcases shape.turns inside turned with
    ended | ⟨cursor, context, bounds, onward, same | ⟨m, near, stands, met⟩⟩
  · contradiction
  · cases same
    exact ⟨shape.onward bounds onward, onward⟩
  · obtain ⟨stack, passed, rfl⟩ := Forward.map_eq_ok_iff.1 met.symm
    exact ⟨shape.pass bounds onward near stands passed, onward⟩

theorem Shape.mismatched (shape : s.Shape table p direction caret) (inside : caret ≤ p.length)
    {offset opening : Nat}
    (ended : direction.round? table p caret s = some (.error (.mismatched offset opening))) :
    ∃ top rest, s.stack = top :: rest ∧ top.offset = opening ∧ top.symmetric = false := by
  rcases shape.turns inside ended with finished | ⟨cursor, context, -, -, same | ⟨m, -, -, met⟩⟩
  · cases finished
  · cases same
  · obtain ⟨outside, -, -, top, rest, differs, here, front⟩ :=
      Stack.pass_eq_mismatched.1 (Forward.map_eq_error_iff.1 met.symm)
    refine ⟨top, rest, front, here, ?_⟩
    simpa [front, Stack.quotesOut, differs] using outside

theorem Shape.land_exhausted (shape : s.Shape table p direction caret) :
    direction.land caret (.exhausted (s.stack.getLast?.map Opening.offset)) = caret := by
  cases direction with
  | backward => rfl
  | forward =>
    cases outermost : s.stack.getLast? with
    | none => rfl
    | some o => exact beq_iff_eq.1 (shape.anchored o outermost)

theorem Shape.lands (shape : s.Shape table p direction caret) (inside : caret ≤ p.length)
    {outcome : Outcome} (ended : direction.round? table p caret s = some (.error outcome)) :
    direction.Lands p.length caret (direction.land caret outcome) := by
  rcases shape.turns inside ended with
    finished | ⟨cursor, context, -, -, same | ⟨m, near, stands, met⟩⟩
  · cases finished
    rw [shape.land_exhausted]
    cases direction with
    | forward => exact ⟨Nat.le_refl _, inside⟩
    | backward => exact Nat.le_refl _
  · cases same
  · have place := Stack.place?_of_pass_eq_error (Forward.map_eq_error_iff.1 met.symm)
    have bounds := shape.bounds
    obtain ⟨c, here, -⟩ := stands.here
    have within : m.offset < p.length := (List.getElem?_eq_some_iff.1 here).1
    cases outcome with
    | exhausted outermost => contradiction
    | mismatched offset opening =>
      obtain ⟨top, rest, front, rfl, -⟩ := shape.mismatched inside ended
      have between := shape.between top (front ▸ List.mem_cons_self)
      cases direction with
      | forward =>
        have limit : s.cursor < p.length := near ▸ within
        exact ⟨between.1, Nat.le_of_lt (Nat.lt_trans between.2 limit)⟩
      | backward => exact Nat.le_refl _
    | _ =>
      cases place
      cases direction <;> simp only [Direction.Lands, Direction.land, Outcome.forwardCaret,
        Outcome.backwardCaret, Direction.near, Direction.Bounds] at * <;> omega

end Progress

theorem Direction.Reaches.shape (reaches : direction.Reaches table p caret s)
    (inside : caret ≤ p.length) :
    s.Shape table p direction caret := by
  induction reaches with
  | refl => exact Progress.shape_start inside
  | tail _ turned ih => exact (ih.round? inside turned).1

theorem Direction.Reaches.exists_end (reaches : direction.Reaches table p caret s)
    (inside : caret ≤ p.length) :
    ∃ last outcome, direction.Reaches table p caret last ∧
      direction.round? table p caret last = some (.error outcome) := by
  induction left : direction.distance p.length s.cursor using Nat.strongRecOn generalizing s with
  | ind n ih =>
    have shape := reaches.shape inside
    obtain ⟨result, round, -⟩ := Direction.exists_round? table inside shape.bounds
    cases result with
    | error outcome => exact ⟨s, outcome, reaches, round⟩
    | ok next =>
      obtain ⟨shapeNext, onward⟩ := shape.round? inside round
      exact ih _ (left ▸ Direction.distance_lt shapeNext.bounds onward) (reaches.tail round) rfl

end Shape

/-- In every round of a search its openings have their shape, every character that it asks for is
there, and no quote is given up for a bracket inside it. The rounds come to the end, and to where
the search leaves the caret: not before its start on the way to the right, nowhere else than there
if the text ends first, and not behind its start on the way to the left. -/
theorem rounds_keep_shape (table : Table) (p : Passage) (start : Nat) :
    let caret := min start p.length
    (∀ (direction : Direction) (s : Progress), direction.Reaches table p caret s →
        s.Shape table p direction caret ∧
          (∃ result, direction.round? table p caret s = some result) ∧
          ∀ offset opening,
            direction.round? table p caret s = some (.error (.mismatched offset opening)) →
              ∃ top rest, s.stack = top :: rest ∧ top.offset = opening ∧ top.symmetric = false) ∧
      (∃ last outcome, Direction.forward.Reaches table p caret last ∧
        Direction.forward.round? table p caret last = some (.error outcome) ∧
          forward table p start = outcome.forwardCaret caret) ∧
      (∃ last outcome, Direction.backward.Reaches table p caret last ∧
        Direction.backward.round? table p caret last = some (.error outcome) ∧
          backward table p start = outcome.backwardCaret caret) ∧
      (∀ s, Direction.forward.Reaches table p caret s → p.length ≤ s.cursor →
        forward table p start = caret) ∧
      (caret ≤ forward table p start ∧ forward table p start ≤ p.length) ∧
      backward table p start ≤ caret := by
  intro caret
  have inside : caret ≤ p.length := Nat.min_le_right _ _
  have searched : forward table p start =
      (Direction.forward.finish table p caret ⟨caret, none, []⟩).forwardCaret caret := rfl
  have searchedBack : backward table p start =
      (Direction.backward.finish table p caret ⟨caret, none, []⟩).backwardCaret caret := rfl
  have ends (direction : Direction) : ∃ last outcome, direction.Reaches table p caret last ∧
      direction.round? table p caret last = some (.error outcome) :=
    Direction.Reaches.exists_end .refl inside
  obtain ⟨last, outcome, reaches, ended⟩ := ends .forward
  obtain ⟨lastBack, outcomeBack, reachesBack, endedBack⟩ := ends .backward
  rw [reaches.finish_eq_of_error ended] at searched
  rw [reachesBack.finish_eq_of_error endedBack] at searchedBack
  refine ⟨fun direction s reached => ?_, ⟨last, outcome, reaches, ended, searched⟩,
    ⟨lastBack, outcomeBack, reachesBack, endedBack, searchedBack⟩,
    fun s reached beyond => ?_, ?_, ?_⟩
  · have shape := reached.shape inside
    obtain ⟨result, round, -⟩ := Direction.exists_round? table inside shape.bounds
    exact ⟨shape, ⟨result, round⟩, fun offset opening => shape.mismatched inside⟩
  · have exhausted : Direction.forward.round? table p caret s =
        some (.error (.exhausted (s.stack.getLast?.map Opening.offset))) :=
      if_neg (Nat.not_lt_of_le beyond)
    rw [searched, ← reaches.finish_eq_of_error ended, reached.finish_eq_of_error exhausted]
    exact (reached.shape inside).land_exhausted
  · rw [searched]
    exact (reaches.shape inside).lands inside ended
  · rw [searchedBack]
    exact (reachesBack.shape inside).lands inside endedBack

/-- A bracket, a quote in it, and an escape at the end of the text, which takes the cursor past the
end. -/
theorem rounds_keep_shape_past_end :
    let p := Passage.ofString "(\"\\"
    let last : Progress := ⟨4, some "", [⟨1, 34, true⟩, ⟨0, 41, false⟩]⟩
    Direction.forward.Reaches .standard p 0 last ∧ p.length ≤ last.cursor ∧
      last.Shape .standard p .forward 0 ∧ forward .standard p 0 = 0 := by
  intro p last
  let first : Progress := ⟨1, some "", [⟨0, 41, false⟩]⟩
  let second : Progress := ⟨2, some "", [⟨1, 34, true⟩, ⟨0, 41, false⟩]⟩
  have bracket : Direction.forward.round? .standard p 0 ⟨0, none, []⟩ = some (.ok first) := rfl
  have quote : Direction.forward.round? .standard p 0 first = some (.ok second) := rfl
  have escape : Direction.forward.round? .standard p 0 second = some (.ok last) := rfl
  have reaches : Direction.forward.Reaches .standard p 0 last :=
    .tail (.tail (.tail .refl bracket) quote) escape
  obtain ⟨rounds, -, -, exhausted, -⟩ := rounds_keep_shape .standard p 0
  exact ⟨reaches, by decide, (rounds .forward last reaches).1, exhausted last reaches (by decide)⟩

end SyntaxPaint.Bracket

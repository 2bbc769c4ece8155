import SyntaxPaint.Caret
import SyntaxPaint.Proofs.StackMachine

/-!
A caret stays in its text. No move leads out of the text or asks about an offset that has no
character, and a move over characters goes exactly as far as its count and its predicate let it, so
that it can be undone.
-/

namespace SyntaxPaint.Bracket

open Text (Passage)

variable {table : Table} {p : Passage} {direction : Direction} {caret bound : Nat}

theorem offset_lt_of_mem_activeMarks {m : Mark} (member : m ∈ activeMarks table p direction caret) :
    m.offset < p.length := by
  unfold activeMarks at member
  split at member
  · contradiction
  · obtain ⟨i, -, active⟩ := List.mem_filterMap.1 member
    obtain ⟨c, here, mark⟩ := Option.bind_eq_some_iff.1 active
    have inside : i < p.length := (List.getElem?_eq_some_iff.1 here).1
    split at mark
    · split at mark
      · cases mark
        exact inside
      · contradiction
    · contradiction

theorem settle_le {waiting ms : List Mark} (start : caret ≤ bound)
    (below : ∀ m ∈ waiting, m.offset < bound) (ahead : ∀ m ∈ ms, m.offset < bound) :
    settle direction caret waiting ms ≤ bound := by
  have near {m : Mark} (inside : m.offset < bound) : direction.near m.offset ≤ bound := by
    cases direction <;> simp only [Direction.near] <;> omega
  have far {m : Mark} (inside : m.offset < bound) : direction.far m.offset ≤ bound := by
    cases direction <;> simp only [Direction.far] <;> omega
  have missed {m : Mark} (inside : m.offset < bound) : direction.missed caret m.offset ≤ bound := by
    cases direction <;> simp only [Direction.missed] <;> omega
  induction ms generalizing waiting with
  | nil => rwa [settle]
  | cons m ms ih =>
    obtain ⟨here, later⟩ := List.forall_mem_cons.1 ahead
    cases waiting with
    | nil =>
      rw [settle]
      split_ifs
      · exact far here
      · exact ih (by simpa using here) later
      · exact near here
    | cons top rest =>
      obtain ⟨inner, outer⟩ := List.forall_mem_cons.1 below
      rw [settle]
      split_ifs
      · exact ih below later
      · exact missed inner
      · exact far here
      · exact ih outer later
      · exact near here
      · exact ih (List.forall_mem_cons.2 ⟨here, below⟩) later

theorem forward_le_length (table : Table) (p : Passage) (start : Nat) :
    forward table p start ≤ p.length := by
  rw [forward_eq_settle]
  exact settle_le (Nat.min_le_right _ _) (List.forall_mem_nil _) fun _ =>
    offset_lt_of_mem_activeMarks

theorem backward_le_length (table : Table) (p : Passage) (start : Nat) :
    backward table p start ≤ p.length := by
  rw [backward_eq_settle]
  exact settle_le (Nat.min_le_right _ _) (List.forall_mem_nil _) fun _ =>
    offset_lt_of_mem_activeMarks

end SyntaxPaint.Bracket

namespace SyntaxPaint.Caret

open Text (Passage)

section While

variable {length : Nat} {holds : Fin length → Bool} {count offset : Nat}

theorem answer?_of_lt (inside : offset < length) :
    answer? holds offset = some (holds ⟨offset, inside⟩) :=
  dif_pos inside

def Throughout (holds : Fin length → Bool) (start stop : Nat) : Prop :=
  ∀ i : Fin length, start ≤ i → i < stop → holds i = true

theorem rightWhile_spec (holds : Fin length → Bool) (count : Nat) (inside : offset ≤ length) :
    ∃ r, rightWhile length (answer? holds) count offset = some r ∧ offset ≤ r ∧ r ≤ offset + count ∧
      r ≤ length ∧ Throughout holds offset r ∧
      (r < offset + count → r = length ∨ ∃ here : r < length, holds ⟨r, here⟩ = false) := by
  induction count generalizing offset with
  | zero => exact ⟨offset, rfl, by omega, by omega, inside, fun i low high => by omega, by omega⟩
  | succ count ih =>
    by_cases here : offset < length
    · rw [rightWhile, if_pos here, answer?_of_lt here]
      cases known : holds ⟨offset, here⟩ with
      | false =>
        exact ⟨offset, rfl, by omega, by omega, inside, fun i low high => by omega,
          fun _ => .inr ⟨here, known⟩⟩
      | true =>
        obtain ⟨r, moved, low, high, bound, crossed, stopped⟩ := ih here
        refine ⟨r, moved, by omega, by omega, bound, ?_, fun short => stopped (by omega)⟩
        intro i low' high'
        by_cases first : (i : Nat) = offset
        · exact (congrArg holds (Fin.ext first)).trans known
        · exact crossed i (by omega) high'
    · rw [rightWhile, if_neg here]
      exact ⟨offset, rfl, by omega, by omega, inside, fun i low high => by omega,
        fun _ => .inl (by omega)⟩

theorem leftWhile_spec (holds : Fin length → Bool) (count : Nat) (inside : offset ≤ length) :
    ∃ r, leftWhile (answer? holds) count offset = some r ∧ r ≤ offset ∧ offset ≤ r + count ∧
      Throughout holds r offset ∧
      (offset < r + count → r = 0 ∨ ∃ here : r - 1 < length, holds ⟨r - 1, here⟩ = false) := by
  induction count generalizing offset with
  | zero => exact ⟨offset, rfl, by omega, by omega, fun i low high => by omega, by omega⟩
  | succ count ih =>
    cases offset with
    | zero => exact ⟨0, rfl, by omega, by omega, fun i low high => by omega, fun _ => .inl rfl⟩
    | succ offset =>
      rw [leftWhile, answer?_of_lt inside]
      cases known : holds ⟨offset, inside⟩ with
      | false =>
        exact ⟨offset + 1, rfl, by omega, by omega, fun i low high => by omega,
          fun _ => .inr ⟨inside, known⟩⟩
      | true =>
        obtain ⟨r, moved, low, high, crossed, stopped⟩ := ih (Nat.le_of_lt inside)
        refine ⟨r, moved, by omega, by omega, ?_, fun short => stopped (by omega)⟩
        intro i low' high'
        by_cases last : (i : Nat) = offset
        · exact (congrArg holds (Fin.ext last)).trans known
        · exact crossed i low' (by omega)

theorem rightWhile_of_throughout (inside : offset + count ≤ length)
    (crossed : Throughout holds offset (offset + count)) :
    rightWhile length (answer? holds) count offset = some (offset + count) := by
  obtain ⟨r, moved, low, high, -, -, stopped⟩ :=
    rightWhile_spec holds count (Nat.le_of_add_right_le inside)
  by_cases short : r < offset + count
  · rcases stopped short with rfl | ⟨here, fails⟩
    · omega
    · rw [crossed ⟨r, here⟩ low short] at fails
      contradiction
  · rw [moved, Nat.le_antisymm high (Nat.le_of_not_lt short)]

theorem leftWhile_of_throughout (inside : offset + count ≤ length)
    (crossed : Throughout holds offset (offset + count)) :
    leftWhile (answer? holds) count (offset + count) = some offset := by
  obtain ⟨r, moved, low, high, -, stopped⟩ := leftWhile_spec holds count inside
  by_cases short : offset < r
  · rcases stopped (by omega) with rfl | ⟨here, fails⟩
    · omega
    · rw [crossed ⟨r - 1, here⟩ (by simp only; omega) (by simp only; omega)] at fails
      contradiction
  · rw [moved, Nat.le_antisymm (Nat.le_of_not_lt short) (by omega)]

structure Follows (holds : Fin length → Bool) (count : Int) (start stop : Nat) : Prop where
  distance_le : ((stop : Int) - start).natAbs ≤ count.natAbs
  rightward : 0 ≤ count → start ≤ stop
  leftward : count ≤ 0 → stop ≤ start
  crossed : ∀ i : Fin length, (start ≤ i ∧ i < stop) ∨ (stop ≤ i ∧ i < start) → holds i = true
  /-- Before its count is used up it stops only at the end of the text or before a character to
  which the predicate does not apply, -/
  ends_right : 0 ≤ count → ((stop : Int) - start).natAbs < count.natAbs →
    stop = length ∨ ∃ here : stop < length, holds ⟨stop, here⟩ = false
  /-- and to the left only at the start of the text or behind such a character. -/
  ends_left : count < 0 → ((stop : Int) - start).natAbs < count.natAbs →
    stop = 0 ∨ ∃ here : stop - 1 < length, holds ⟨stop - 1, here⟩ = false

theorem moveWhile?_spec (holds : Fin length → Bool) (count : Int) {start : Nat}
    (inside : start ≤ length) :
    ∃ stop, moveWhile? holds count start = some stop ∧ stop ≤ length ∧
      Follows holds count start stop := by
  by_cases negative : count < 0
  · obtain ⟨stop, moved, low, high, crossed, stopped⟩ :=
      leftWhile_spec holds count.natAbs inside
    refine ⟨stop, (if_pos negative).trans moved, Nat.le_trans low inside, ?_⟩
    refine ⟨by omega, by omega, by omega, ?_, by omega, fun _ short => stopped (by omega)⟩
    exact fun i between => crossed i (by omega) (by omega)
  · obtain ⟨stop, moved, low, high, bound, crossed, stopped⟩ :=
      rightWhile_spec holds count.natAbs inside
    refine ⟨stop, (if_neg negative).trans moved, bound, ?_⟩
    refine ⟨by omega, by omega, by omega, ?_, fun _ short => stopped (by omega), by omega⟩
    exact fun i between => crossed i (by omega) (by omega)

theorem moveWhile?_back {start stop : Nat} (inside : start ≤ length) (bound : stop ≤ length)
    (crossed : ∀ i : Fin length, (start ≤ i ∧ i < stop) ∨ (stop ≤ i ∧ i < start) → holds i = true) :
    moveWhile? holds ((start : Int) - stop) stop = some start := by
  rcases Nat.lt_or_ge start stop with right | left
  · obtain ⟨distance, rfl⟩ := Nat.exists_eq_add_of_lt right
    have size : ((start : Int) - (start + distance + 1 : Nat)).natAbs = distance + 1 := by omega
    rw [moveWhile?, if_pos (by omega), size]
    exact leftWhile_of_throughout bound fun i low high => crossed i (.inl ⟨low, high⟩)
  · obtain ⟨distance, rfl⟩ := Nat.exists_eq_add_of_le left
    have size : ((stop + distance : Nat) - (stop : Int)).natAbs = distance := by omega
    rw [moveWhile?, if_neg (by omega), size]
    exact rightWhile_of_throughout inside fun i low high => crossed i (.inr ⟨low, high⟩)

end While

section Moves

variable {p : Passage}

theorem Move.exists_result? (move : Move p) {offset : Nat} (inside : offset ≤ p.length) :
    ∃ r, move.result? offset = some r ∧ r ≤ p.length := by
  cases move with
  | chars count => exact ⟨_, rfl, Nat.min_le_right _ _⟩
  | across holds count =>
    obtain ⟨stop, moved, bound, -⟩ := moveWhile?_spec holds count inside
    exact ⟨stop, moved, bound⟩
  | bracket table count =>
    refine ⟨_, rfl, ?_⟩
    unfold moveBracket
    split_ifs
    · exact Bracket.forward_le_length table p offset
    · exact Bracket.backward_le_length table p offset
    · exact inside

theorem Move.exists_run? (moves : List (Move p)) {offset : Nat} (inside : offset ≤ p.length) :
    ∃ r, Move.run? moves offset = some r ∧ r ≤ p.length := by
  induction moves generalizing offset with
  | nil => exact ⟨offset, rfl, inside⟩
  | cons move moves ih =>
    obtain ⟨next, moved, bound⟩ := move.exists_result? inside
    obtain ⟨r, others, final⟩ := ih bound
    refine ⟨r, ?_, final⟩
    rw [Move.run?, List.foldlM_cons, moved]
    exact others

theorem place_eq_ok_iff {length offset caret : Nat} :
    place length offset = .ok caret ↔ offset ≤ length ∧ offset = caret := by
  unfold place
  split_ifs with inside
  · simp [inside]
  · simp [inside, fail]

/-- From a caret that has been placed in the text, any moves lead to an offset of the text, and none
of them asks a predicate about an offset without a character. A move over characters follows its
count and its predicate, and the move back by the same distance undoes it. -/
theorem moves_within (p : Passage) :
    (∀ (start caret : Nat) (moves : List (Move p)), place p.length start = .ok caret →
        ∃ r, Move.run? moves caret = some r ∧ r ≤ p.length) ∧
      ∀ (holds : Fin p.length → Bool) (count : Int) (o : Nat), o ≤ p.length →
        ∃ r : Nat, moveWhile? holds count o = some r ∧ Follows holds count o r ∧
          moveWhile? holds ((o : Int) - r) r = some o := by
  constructor
  · intro start caret moves placed
    obtain ⟨inside, rfl⟩ := place_eq_ok_iff.1 placed
    exact Move.exists_run? moves inside
  · intro holds count o inside
    obtain ⟨r, moved, bound, follows⟩ := moveWhile?_spec holds count inside
    exact ⟨r, moved, follows, moveWhile?_back inside bound follows.crossed⟩

theorem moves_within_letters :
    let p : Passage := .ofString "aa(b)"
    let letters : Fin p.length → Bool := fun i => p[i].code == 97
    (place p.length 1 = .ok 1 ∧
        ∃ r,
          Move.run? [.across letters (-9223372036854775808), .across letters 9223372036854775807,
            .bracket .standard 1, .chars 9223372036854775807] 1 = some r ∧
          r ≤ p.length) ∧
      ∃ r : Nat, moveWhile? letters 9223372036854775807 0 = some r ∧
        Follows letters 9223372036854775807 0 r ∧
        moveWhile? letters ((0 : Nat) - r) r = some 0 := by
  intro p letters
  obtain ⟨runs, moves⟩ := moves_within p
  exact ⟨⟨rfl, runs 1 1 _ rfl⟩, moves letters 9223372036854775807 0 (Nat.zero_le _)⟩

end Moves

end SyntaxPaint.Caret

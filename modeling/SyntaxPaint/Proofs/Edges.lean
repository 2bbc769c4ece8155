import SyntaxPaint.Proofs.Compression
import SyntaxPaint.Proofs.Growth
import SyntaxPaint.Tables.Language

/-!
The edges of the built-in languages, column by column. A statement about all characters is decided
on the columns; the tables step along the edges.
-/

namespace SyntaxPaint

open Automaton (columnOf numColumns)

theorem Tables.step_of_le (t : Tables) {state : Nat} (outside : t.numStates ≤ state) (code : Nat) :
    t.step state code = ground := by
  have beyond : t.transitions.size ≤ state * t.numClasses + t.classOf code := by
    rw [t.valid.transitions_size]
    exact Nat.le_add_right_of_le (Nat.mul_le_mul_right _ outside)
  rw [step, next, Array.getD_eq_getD_getElem?, Array.getElem?_eq_none beyond]
  rfl

theorem Automaton.columnOf_lt (code : Nat) : columnOf code < numColumns :=
  Nat.lt_succ_of_le (Nat.min_le_right _ _)

namespace Language

def edge (l : Language) (state column : Nat) : Nat :=
  (l.automaton.states[state]?.map (·.successor column)).getD ground

theorem step_tables (l : Language) (state code : Nat) :
    l.tables.step state code = l.edge state (columnOf code) := by
  unfold edge
  by_cases inside : state < l.automaton.states.size
  · rw [Automaton.step_layout (t := l.tables) rfl inside, Array.getElem?_eq_getElem inside]
    rfl
  · rw [Tables.step_of_le _ (Nat.le_of_not_lt inside),
      Array.getElem?_eq_none (Nat.le_of_not_lt inside)]
    rfl

/-- States that lead to one another only, all of which have one label. -/
def Family (l : Language) (label : String) (states : List Nat) : Prop :=
  ∀ state ∈ states, l.tables.label state = label ∧
    ∀ column < numColumns, l.edge state column = ground ∨ l.edge state column ∈ states

instance (l : Language) (label : String) (states : List Nat) : Decidable (Family l label states) :=
  inferInstanceAs (Decidable (∀ state ∈ states, l.tables.label state = label ∧
    ∀ column < numColumns, l.edge state column = ground ∨ l.edge state column ∈ states))

theorem Family.labelled_growth {l : Language} {label : String} {states : List Nat} {state : Nat}
    (family : l.Family label states) (first : state ∈ states) (start : Nat) (joined : Bool)
    (offset : Nat) (codes : List Nat) :
    let tokens :=
      l.tables.growth start joined offset state (codes.take (l.tables.munch state codes))
    l.tables.labelled tokens = tokens.map fun token => (token, label) := by
  refine Tables.labelled_of_forall fun token member => (family token.state ?_).1
  refine Tables.forall_state_growth (P := (· ∈ states)) first ?_ start joined offset codes token
    member
  intro source code inside goes
  rw [step_tables] at goes ⊢
  exact ((family source inside).2 _ (Automaton.columnOf_lt code)).resolve_left goes

theorem leaves_ground (l : Language) : ∀ column < numColumns, l.edge ground column ≠ ground := by
  cases l <;> decide +kernel

theorem no_return (l : Language) : ∀ state < l.automaton.states.size, ∀ column < numColumns,
    l.tables.accepts state = false → l.edge state column = ground →
      l.edge ground column ≠ state := by
  cases l <;> decide +kernel

theorem after_lineBreak (l : Language) : ∀ column < numColumns,
    l.edge (l.edge ground (columnOf Scan.lineBreak)) column = ground ∨
      l.edge (l.edge ground (columnOf Scan.lineBreak)) column = l.edge ground column := by
  cases l <;> decide +kernel

theorem restarts (l : Language) : l.tables.Restarts where
  leaves_ground code := by
    rw [step_tables]
    exact l.leaves_ground _ (Automaton.columnOf_lt code)
  no_return state code rejects back := by
    by_cases inside : state < l.automaton.states.size
    · rw [step_tables] at back ⊢
      exact l.no_return state inside _ (Automaton.columnOf_lt code) rejects back
    · have listed : l.tables.step ground code < l.automaton.states.size := l.tables.step_lt _ _
      omega
  after_lineBreak code := by
    unfold Tables.advance
    simp only [step_tables]
    rcases l.after_lineBreak _ (Automaton.columnOf_lt code) with back | same
    · rw [if_pos back]
    · rw [same]
      exact ite_self _

end Language

end SyntaxPaint

import SyntaxPaint.Proofs.Munch

/-!
What the states of the C and GN tables read. A test of characters that tells no two codes from 128
on apart can be made on columns, and is decided there.
-/

namespace SyntaxPaint

open Automaton (columnOf numColumns beyondAscii)
open Lexicon

namespace Lexicon

variable {p q : Nat → Bool} {code ascii : Nat}

/-- A test that gives the same answer for a code and its column. -/
def ByColumn (p : Nat → Bool) : Prop :=
  ∀ code, p (columnOf code) = p code

theorem columnOf_eq_iff (small : ascii < beyondAscii) : columnOf code = ascii ↔ code = ascii := by
  unfold columnOf
  omega

theorem byColumn_of_const (const : ∀ code, beyondAscii ≤ code → p code = p beyondAscii) :
    ByColumn p := by
  intro code
  by_cases small : code < beyondAscii
  · rw [columnOf, Nat.min_eq_left (Nat.le_of_lt small)]
  · rw [columnOf, Nat.min_eq_right (Nat.le_of_not_lt small), const code (Nat.le_of_not_lt small)]

theorem byColumn_isAnyOf {chars : List Char}
    (small : (chars.all fun c => decide (c.toNat < beyondAscii)) = true) :
    ByColumn (isAnyOf chars) := by
  have none (code : Nat) (beyond : beyondAscii ≤ code) : isAnyOf chars code = false := by
    rw [isAnyOf, List.any_eq_false]
    intro c member
    have bound := of_decide_eq_true (List.all_eq_true.1 small c member)
    simp only [beq_iff_eq]
    omega
  exact byColumn_of_const fun code beyond => by rw [none code beyond, none _ (Nat.le_refl _)]

theorem byColumn_isBetween {first last : Char} (small : last.toNat < beyondAscii) :
    ByColumn (isBetween first last) := by
  have none (code : Nat) (beyond : beyondAscii ≤ code) : isBetween first last code = false := by
    rw [isBetween, decide_eq_false_iff_not]
    omega
  exact byColumn_of_const fun code beyond => by rw [none code beyond, none _ (Nat.le_refl _)]

theorem byColumn_beyond : ByColumn fun code => decide (128 ≤ code) := by
  refine byColumn_of_const fun code beyond => ?_
  rw [decide_eq_true (show 128 ≤ code from beyond)]
  rfl

theorem ByColumn.or (first : ByColumn p) (second : ByColumn q) :
    ByColumn fun code => p code || q code := by
  intro code
  dsimp only
  rw [first code, second code]

theorem ByColumn.not (test : ByColumn p) : ByColumn fun code => !p code := by
  intro code
  dsimp only
  rw [test code]

theorem byColumn_isBlank : ByColumn isBlank :=
  byColumn_isAnyOf (by decide)

theorem byColumn_isLetter : ByColumn isLetter :=
  ((byColumn_isBetween (by decide)).or (byColumn_isBetween (by decide))).or
    (byColumn_isAnyOf (by decide))

theorem byColumn_isDigit : ByColumn isDigit :=
  byColumn_isBetween (by decide)

theorem byColumn_beginsWord : ByColumn beginsWord :=
  byColumn_isLetter.or byColumn_beyond

theorem byColumn_inWord : ByColumn inWord :=
  byColumn_beginsWord.or byColumn_isDigit

theorem byColumn_inNumber : ByColumn inNumber :=
  (byColumn_isLetter.or byColumn_isDigit).or (byColumn_isAnyOf (by decide))

theorem byColumn_inLine : ByColumn inLine :=
  (byColumn_isAnyOf (by decide)).not

end Lexicon

namespace Language

variable {l : Language} {state quote body : Nat} {p : Nat → Bool}

theorem loops_of_edges (columns : ByColumn p)
    (edges : state ≠ ground ∧ l.tables.accepts state = false ∧
      ∀ column < numColumns, l.edge state column = if p column then state else ground) :
    l.tables.Loops state p where
  inside := edges.1
  rejects := edges.2.1
  step code := by
    rw [step_tables, edges.2.2 _ (Automaton.columnOf_lt code), columns]

theorem quotes_of_edges (small : quote < beyondAscii)
    (accepts : body ≠ ground ∧ l.tables.accepts body = false ∧ l.tables.accepts (body + 1) = false ∧
      l.tables.accepts (body + 2) = true)
    (edges : ∀ column < numColumns,
      (l.edge body column =
        if column = quote then body + 2
        else if column = '\n'.toNat then ground
        else if column = '\\'.toNat then body + 1
        else body) ∧
      l.edge (body + 1) column = body) :
    l.tables.Quotes quote body where
  inside := accepts.1
  rejects_body := accepts.2.1
  rejects_escape := accepts.2.2.1
  accepts_close := accepts.2.2.2
  step_body code := by
    rw [step_tables, (edges _ (Automaton.columnOf_lt code)).1]
    simp only [columnOf_eq_iff small, columnOf_eq_iff (show '\n'.toNat < beyondAscii by decide),
      columnOf_eq_iff (show '\\'.toNat < beyondAscii by decide)]
  step_escape code := by
    rw [step_tables, (edges _ (Automaton.columnOf_lt code)).2]

theorem blocks_of_edges
    (accepts : body ≠ ground ∧ l.tables.accepts body = false ∧ l.tables.accepts (body + 1) = false ∧
      l.tables.accepts (body + 2) = true)
    (edges : ∀ column < numColumns,
      (l.edge body column = if column = '*'.toNat then body + 1 else body) ∧
      l.edge (body + 1) column =
        if column = '/'.toNat then body + 2 else if column = '*'.toNat then body + 1 else body) :
    l.tables.Blocks body where
  inside := accepts.1
  rejects_body := accepts.2.1
  rejects_star := accepts.2.2.1
  accepts_close := accepts.2.2.2
  step_body code := by
    rw [step_tables, (edges _ (Automaton.columnOf_lt code)).1]
    simp only [columnOf_eq_iff (show '*'.toNat < beyondAscii by decide)]
  step_star code := by
    rw [step_tables, (edges _ (Automaton.columnOf_lt code)).2]
    simp only [columnOf_eq_iff (show '*'.toNat < beyondAscii by decide),
      columnOf_eq_iff (show '/'.toNat < beyondAscii by decide)]

abbrev punctuation : Nat := 1

abbrev white : Nat := 2

abbrev identifier : Nat := 3

abbrev number : Nat := 4

abbrev doubleQuoted : Nat := 5

abbrev singleQuoted : Nat := 8

abbrev slash : Nat := 11

abbrev lineComment : Nat := 12

abbrev blockComment : Nat := 13

theorem loops_white : c.tables.Loops white isBlank :=
  loops_of_edges byColumn_isBlank (by decide +kernel)

theorem loops_identifier : c.tables.Loops identifier inWord :=
  loops_of_edges byColumn_inWord (by decide +kernel)

theorem loops_number : c.tables.Loops number inNumber :=
  loops_of_edges byColumn_inNumber (by decide +kernel)

theorem loops_lineComment : c.tables.Loops lineComment inLine :=
  loops_of_edges byColumn_inLine (by decide +kernel)

theorem quotes_c_double : c.tables.Quotes '"'.toNat doubleQuoted :=
  quotes_of_edges (by decide) (by decide +kernel) (by decide +kernel)

theorem quotes_c_single : c.tables.Quotes '\''.toNat singleQuoted :=
  quotes_of_edges (by decide) (by decide +kernel) (by decide +kernel)

theorem quotes_gn : gn.tables.Quotes '"'.toNat doubleQuoted :=
  quotes_of_edges (by decide) (by decide +kernel) (by decide +kernel)

theorem blocks_c : c.tables.Blocks blockComment :=
  blocks_of_edges (by decide +kernel) (by decide +kernel)

end Language

end SyntaxPaint

import SyntaxPaint.Proofs.RoundTrip

/-!
A literal between quotes under one tag. Every quote inside it is escaped and no escape reaches its
closing quote, so both searches run from one quote to the other.
-/

namespace SyntaxPaint.Bracket

open Text (Cell Passage comparable)

/-- What may stand between two quotes: each escape takes the character after it along. -/
inductive Inner (quote escape : Nat) : List Nat → Prop
  | nil : Inner quote escape []
  | plain {code : Nat} {rest : List Nat} (other : code ≠ quote) (unescaped : code ≠ escape)
    (inner : Inner quote escape rest) : Inner quote escape (code :: rest)
  | pair {code : Nat} {rest : List Nat} (inner : Inner quote escape rest) :
    Inner quote escape (escape :: code :: rest)

def tagged (tag : String) (codes : List Nat) : Passage :=
  codes.map (⟨·, tag⟩)

structure Table.Quoting (table : Table) (quote escape : Nat) : Prop where
  quote_listed : table.find? quote = some (.left quote)
  escape_listed : table.find? escape = some .escape
  escape_only : ∀ code, table.find? code = some .escape → code = escape

variable {table : Table} {quote escape : Nat} {tag : String} {body : List Nat}
variable {before left right : Passage}

theorem Table.Quoting.escapesIn_eq_false (quoting : table.Quoting quote escape) {code : Nat}
    (other : code ≠ escape) (context tag : String) :
    escapesIn table context ⟨code, tag⟩ = false := by
  have unlisted : table.find? code ≠ some .escape :=
    fun listed => other (quoting.escape_only code listed)
  simp [escapesIn, unlisted]

theorem Table.Quoting.escapesIn_eq_true (quoting : table.Quoting quote escape) (tag : String) :
    escapesIn table tag ⟨escape, tag⟩ = true := by
  simp [escapesIn, quoting.escape_listed]

theorem Inner.marks_spec (quoting : table.Quoting quote escape) (inner : Inner quote escape body)
    (even : Backward.escaped table tag before = false) (offset : Nat) :
    (∀ m ∈ marks table tag before offset (tagged tag body), m.code ≠ quote) ∧
      Backward.escaped table tag ((tagged tag body).reverse ++ before) = false := by
  induction inner generalizing before offset with
  | nil => exact ⟨fun m member => absurd member List.not_mem_nil, even⟩
  | @plain code rest other unescaped inner ih =>
    have ordinary := quoting.escapesIn_eq_false unescaped tag tag
    obtain ⟨unquoted, behind⟩ := ih (escaped_cons_of_not_escape ordinary before) (offset + 1)
    constructor
    · intro m member
      rcases List.mem_append.1 member with here | later
      · rw [(listed_of_mark? (Option.mem_toList.1 here)).1]
        exact other
      · exact unquoted m later
    · rw [tagged, List.map_cons, List.reverse_cons, List.append_assoc]
      exact behind
  | @pair code rest inner ih =>
    -- The escape leaves the parity odd for `code` alone, also when `code` is an escape itself.
    have odd : Backward.escaped table tag (⟨escape, tag⟩ :: before) = true := by
      rw [escaped_cons_of_escape (quoting.escapesIn_eq_true tag), even]
      rfl
    have next : Backward.escaped table tag (⟨code, tag⟩ :: ⟨escape, tag⟩ :: before) = false := by
      by_cases same : code = escape
      · rw [same, escaped_cons_of_escape (quoting.escapesIn_eq_true tag), odd]
        rfl
      · exact escaped_cons_of_not_escape (quoting.escapesIn_eq_false same tag tag) _
    have first : mark? table tag before offset ⟨escape, tag⟩ = none := by
      simp [mark?, quoting.escape_listed]
    have second : mark? table tag (⟨escape, tag⟩ :: before) (offset + 1) ⟨code, tag⟩ = none := by
      unfold mark?
      split <;> simp [odd]
    obtain ⟨unquoted, behind⟩ := ih next (offset + 1 + 1)
    constructor
    · intro m member
      rw [tagged, List.map_cons, List.map_cons, marks, marks, first, second] at member
      exact unquoted m member
    · rw [tagged, List.map_cons, List.map_cons, List.reverse_cons, List.reverse_cons,
        List.append_assoc, List.append_assoc]
      exact behind

theorem Stack.passAll_quoted {direction : Direction} {caret offset : Nat} {ms : List Mark}
    (unquoted : ∀ m ∈ ms, m.code ≠ quote) :
    passAll direction caret [⟨offset, quote, true⟩] ms = .ok [⟨offset, quote, true⟩] := by
  induction ms with
  | nil => rfl
  | cons m ms ih =>
    have quoted : quotesOut [⟨offset, quote, true⟩] m.code = true := by
      have other := unquoted m List.mem_cons_self
      simp [quotesOut, other.symm]
    rw [passAll_cons_of_ok (pass_of_quoted quoted),
      ih fun n member => unquoted n (List.mem_cons_of_mem _ member)]

def literal (tag : String) (quote : Nat) (body : List Nat) : Passage :=
  ⟨quote, tag⟩ :: (tagged tag body ++ [⟨quote, tag⟩])

theorem length_literal (tag : String) (quote : Nat) (body : List Nat) :
    (literal tag quote body).length = body.length + 2 := by
  simp [literal, tagged]

theorem mark?_quote (quoting : table.Quoting quote escape)
    (even : Backward.escaped table tag before = false) (offset : Nat) :
    mark? table tag before offset ⟨quote, tag⟩ = some ⟨offset, quote, .left, quote⟩ := by
  simp [mark?, quoting.quote_listed, Delimiter.left, even]

theorem forwardOutcome_literal (quoting : table.Quoting quote escape)
    (inner : Inner quote escape body) (tag : String) (left right : Passage) :
    forwardOutcome table (left ++ literal tag quote body ++ right) left.length =
      .matched (left.length + body.length + 1) := by
  have size := length_literal tag quote body
  have plain : escapesIn table tag ⟨quote, tag⟩ = false :=
    escapesIn_eq_false_of_bracket quoting.quote_listed
  have start : Backward.escaped table tag [] = false := rfl
  obtain ⟨unquoted, behind⟩ := inner.marks_spec quoting (escaped_cons_of_not_escape plain [])
    (left.length + 1)
  have last : left.length + 1 + (tagged tag body).length = left.length + body.length + 1 := by
    rw [tagged, List.length_map]
    omega
  have symmetric (offset : Nat) : Mark.IsSymmetric ⟨offset, quote, .left, quote⟩ := ⟨rfl, rfl⟩
  have near : Direction.forward.atCaret left.length ⟨left.length, quote, .left, quote⟩ = true :=
    beq_self_eq_true left.length
  have opens : Stack.pass .forward left.length [] ⟨left.length, quote, .left, quote⟩ =
      .ok [⟨left.length, quote, true⟩] := by
    rw [Stack.pass_of_opens rfl (Stack.closes_nil_of_opens (.inl (symmetric _))) (fun _ => near)
      (by decide), Mark.opening_of_symmetric (symmetric _)]
  have closes : Stack.pass .forward left.length [⟨left.length, quote, true⟩]
      ⟨left.length + body.length + 1, quote, .left, quote⟩ =
        .error (.matched (left.length + body.length + 1)) := by
    refine Stack.pass_eq_matched.2 ⟨?_, ?_, rfl, _, rfl, rfl⟩
    · simp [Stack.quotesOut]
    · exact (Stack.closes_cons_of_symmetric (symmetric _) _).trans (beq_self_eq_true quote)
  rw [forwardOutcome_append_eq_matched (c := ⟨quote, tag⟩) rfl (by omega), literal, marks,
    mark?_quote quoting start, marks_append, marks, mark?_quote quoting behind, last, marks,
    Option.toList_some, Option.toList_some, List.singleton_append, Stack.passAll_cons_of_ok opens,
    Stack.passAll_append_of_ok (Stack.passAll_quoted unquoted), List.append_nil,
    Stack.passAll_singleton, closes]

theorem forward_and_backward_literal (coherent : table.Coherent)
    (quoting : table.Quoting quote escape) (inner : Inner quote escape body)
    (even : Backward.escaped table tag left.reverse = false) (right : Passage) :
    let p := left ++ literal tag quote body ++ right
    forward table p left.length = left.length + (body.length + 2) ∧
      backward table p (left.length + (body.length + 2)) = left.length := by
  have size := length_literal tag quote body
  have ahead := forwardOutcome_literal quoting inner tag left right
  have final : (literal tag quote body).getLast? = some ⟨quote, tag⟩ := by
    rw [literal, ← List.cons_append, List.getLast?_concat]
  have back :=
    (forward_matched_iff_of_append (c := ⟨quote, tag⟩) coherent rfl final rfl even right).1
  rw [size] at back
  dsimp only
  have whole : (left ++ literal tag quote body ++ right).length =
      left.length + (body.length + 2) + right.length := by
    rw [List.length_append, List.length_append, size]
  unfold forward backward
  rw [whole, Nat.min_eq_left (by omega), Nat.min_eq_left (by omega)]
  dsimp only
  rw [ahead, back ahead]
  exact ⟨rfl, rfl⟩

end SyntaxPaint.Bracket

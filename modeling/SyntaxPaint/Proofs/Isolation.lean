import Mathlib.Data.List.Forall2
import SyntaxPaint.Proofs.Marks

/-!
A search sees one context only. Two passages that carry the same tags, and the same characters
wherever the tag is comparable to that of the first delimiter, have the same marks, so that a search
comes to the same end in both, whatever stands under the other tags.
-/

namespace SyntaxPaint.Bracket

open Text (Cell Passage comparable)

/-- Cells under one tag, with one character if the tag is comparable to the context. -/
structure AlikeCells (context : String) (c d : Cell) : Prop where
  tag_eq : c.tag = d.tag
  code_eq : comparable c.tag context = true → c.code = d.code

/-- Passages of the same length and tags that differ outside the context only. -/
abbrev Alike (context : String) (p q : Passage) : Prop :=
  List.Forall₂ (AlikeCells context) p q

namespace Alike

variable {table : Table} {context : String}

theorem escapesIn_eq {c d : Cell} (alike : AlikeCells context c d) :
    escapesIn table context c = escapesIn table context d := by
  unfold escapesIn
  rw [← alike.tag_eq]
  cases near : comparable c.tag context with
  | false => rw [Bool.and_false, Bool.and_false]
  | true => rw [alike.code_eq near]

theorem escaped_eq {p q : Passage} (alike : Alike context p q) :
    Backward.escaped table context p = Backward.escaped table context q := by
  induction alike with
  | nil => rfl
  | @cons c d p q cells _ ih =>
    have same : escapesIn table context c = escapesIn table context d := escapesIn_eq cells
    cases kind : escapesIn table context c with
    | false => rw [escaped_cons_of_not_escape kind, escaped_cons_of_not_escape (same ▸ kind)]
    | true => rw [escaped_cons_of_escape kind, escaped_cons_of_escape (same ▸ kind), ih]

theorem mark?_eq {c d : Cell} {before other : Passage} (cells : AlikeCells context c d)
    (alike : Alike context before other) (offset : Nat) :
    mark? table context before offset c = mark? table context other offset d := by
  cases near : comparable c.tag context with
  | false =>
    rw [mark?_eq_none_of_not_comparable near,
      mark?_eq_none_of_not_comparable (cells.tag_eq ▸ near)]
  | true => simp only [mark?, ← cells.tag_eq, cells.code_eq near, alike.escaped_eq]

theorem marks_eq {p q before other : Passage} (alike : Alike context p q)
    (alikeBefore : Alike context before other) (offset : Nat) :
    marks table context before offset p = marks table context other offset q := by
  induction alike generalizing before other offset with
  | nil => rfl
  | cons cells _ ih =>
    rw [marks, marks, mark?_eq cells alikeBefore, ih (.cons cells alikeBefore)]

theorem contextOf_eq {c : Cell} {p q : Passage} (alike : Alike context (c :: p) q)
    (tagged : c.tag = context) (found : (table.find? c.code).isSome) :
    contextOf table (c :: p) = context ∧ contextOf table q = context := by
  cases alike with
  | @cons _ d _ q cells _ =>
    have same : c.code = d.code := cells.code_eq (by rw [tagged, Text.comparable_self])
    constructor
    · rw [contextOf, leadingTag_cons, if_pos found]
      exact tagged
    · rw [contextOf, leadingTag_cons, if_pos (same ▸ found)]
      exact cells.tag_eq.symm.trans tagged

theorem forwardOutcome_eq {p q : Passage} (alike : Alike context p q) {caret : Nat} {c : Cell}
    (here : p[caret]? = some c) (tagged : c.tag = context) (found : (table.find? c.code).isSome) :
    forwardOutcome table p caret = forwardOutcome table q caret := by
  obtain ⟨inside, rfl⟩ := List.getElem?_eq_some_iff.1 here
  have cells : Alike context (p[caret] :: p.drop (caret + 1)) (q.drop caret) := by
    rw [← List.drop_eq_getElem_cons inside]
    exact List.forall₂_drop caret alike
  obtain ⟨left, right⟩ := contextOf_eq cells tagged found
  rw [Bracket.forwardOutcome_eq, Bracket.forwardOutcome_eq, List.drop_eq_getElem_cons inside,
    left, right, marks_eq cells .nil]

theorem backwardOutcome_eq {p q : Passage} (alike : Alike context p q) {offset : Nat} {c : Cell}
    (here : p[offset]? = some c) (tagged : c.tag = context) (found : (table.find? c.code).isSome) :
    backwardOutcome table p (offset + 1) = backwardOutcome table q (offset + 1) := by
  obtain ⟨inside, rfl⟩ := List.getElem?_eq_some_iff.1 here
  have cells : Alike context (p.take (offset + 1)) (q.take (offset + 1)) :=
    List.forall₂_take (offset + 1) alike
  have nearest : (p.take (offset + 1)).reverse = p[offset] :: (p.take offset).reverse := by
    rw [List.take_succ_eq_append_getElem inside, List.reverse_append]
    rfl
  have reversed : Alike context (p[offset] :: (p.take offset).reverse)
      (q.take (offset + 1)).reverse := by
    rw [← nearest]
    exact List.forall₂_reverse_iff.2 cells
  obtain ⟨left, right⟩ := contextOf_eq reversed tagged found
  have insideOther : offset + 1 ≤ q.length := by
    rw [← alike.length_eq]
    exact inside
  rw [Bracket.backwardOutcome_eq _ _ _ inside, Bracket.backwardOutcome_eq _ _ _ insideOther,
    nearest, left, right, marks_eq cells .nil]

end Alike

theorem search_alike (table : Table) (context : String) (p q : Passage) (alike : Alike context p q)
    (caret : Nat) :
    ((∃ c, p[caret]? = some c ∧ c.tag = context ∧ (table.find? c.code).isSome) →
        forward table p caret = forward table q caret) ∧
      ((∃ c, 0 < caret ∧ p[caret - 1]? = some c ∧ c.tag = context ∧ (table.find? c.code).isSome) →
        backward table p caret = backward table q caret) := by
  constructor
  · rintro ⟨c, here, tagged, found⟩
    have inside : caret < p.length := (List.getElem?_eq_some_iff.1 here).1
    have insideOther : caret < q.length := alike.length_eq ▸ inside
    unfold forward
    rw [Nat.min_eq_left (Nat.le_of_lt inside), Nat.min_eq_left (Nat.le_of_lt insideOther)]
    dsimp only
    rw [alike.forwardOutcome_eq here tagged found]
  · rintro ⟨c, positive, here, tagged, found⟩
    obtain ⟨offset, rfl⟩ : ∃ offset, caret = offset + 1 := ⟨caret - 1, by omega⟩
    rw [Nat.add_sub_cancel] at here
    have inside : offset + 1 ≤ p.length := (List.getElem?_eq_some_iff.1 here).1
    have insideOther : offset + 1 ≤ q.length := alike.length_eq ▸ inside
    unfold backward
    rw [Nat.min_eq_left inside, Nat.min_eq_left insideOther]
    dsimp only
    rw [alike.backwardOutcome_eq here tagged found]

theorem search_alike_call :
    forward .standard [⟨40, ""⟩, ⟨92, "string"⟩, ⟨41, "string"⟩, ⟨41, ""⟩] 0 =
        forward .standard [⟨40, ""⟩, ⟨97, "string"⟩, ⟨98, "string"⟩, ⟨41, ""⟩] 0 ∧
      backward .standard [⟨40, ""⟩, ⟨92, "string"⟩, ⟨41, "string"⟩, ⟨41, ""⟩] 4 =
        backward .standard [⟨40, ""⟩, ⟨97, "string"⟩, ⟨98, "string"⟩, ⟨41, ""⟩] 4 := by
  have alike : Alike "" [⟨40, ""⟩, ⟨92, "string"⟩, ⟨41, "string"⟩, ⟨41, ""⟩]
      [⟨40, ""⟩, ⟨97, "string"⟩, ⟨98, "string"⟩, ⟨41, ""⟩] := by
    refine .cons ⟨rfl, fun _ => rfl⟩
      (.cons ⟨rfl, ?_⟩ (.cons ⟨rfl, ?_⟩ (.cons ⟨rfl, fun _ => rfl⟩ .nil)))
    · intro near
      exact absurd near (by decide)
    · intro near
      exact absurd near (by decide)
  exact ⟨(search_alike .standard "" _ _ alike 0).1 ⟨⟨40, ""⟩, rfl, rfl, by decide⟩,
    (search_alike .standard "" _ _ alike 4).2 ⟨⟨41, ""⟩, by decide, rfl, rfl, by decide⟩⟩

end SyntaxPaint.Bracket

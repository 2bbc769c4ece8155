import SyntaxPaint.Proofs.Growth

/-!
Where one lexeme ends and the next begins. Each lexeme is cut out of its text behind a lexeme that
could not go on, whose last character led to the state of its last token.
-/

namespace SyntaxPaint.Tables

variable {t : Tables} {offset state : Nat} {codes : List Nat} {tokens : List Token}

/-- A lexeme ends at an offset, behind the character `last`, and does not go on with `next`. -/
def Stops (t : Tables) (tokens : List Token) (offset last next : Nat) : Prop :=
  ∃ token source, tokens.getLast? = some token ∧ token.stop = offset ∧
    token.state = t.step source last ∧
    (t.accepts token.state = true ∨ t.step token.state next = ground)

theorem munch_stops {code : Nat} {later : List Nat}
    (left : codes.drop (t.munch state codes) = code :: later) :
    let reached := (codes.take (t.munch state codes)).foldl t.step state
    t.accepts reached = true ∨ t.step reached code = ground := by
  induction codes generalizing state with
  | nil => contradiction
  | cons first rest ih =>
    rw [munch] at left ⊢
    by_cases ended : t.accepts state = true ∨ t.step state first = ground
    · rw [if_pos ended] at left ⊢
      cases left
      exact ended
    · rw [if_neg ended] at left ⊢
      exact ih left

theorem stops_growth {code next last : Nat} {rest later : List Nat}
    (left : rest.drop (t.munch (t.step ground code) rest) = next :: later)
    (ends : (code :: rest.take (t.munch (t.step ground code) rest)).getLast? = some last) :
    t.Stops (t.growth offset false (offset + 1) (t.step ground code)
      (rest.take (t.munch (t.step ground code) rest)))
      (offset + 1 + t.munch (t.step ground code) rest) last next := by
  obtain ⟨token, final, stop, reached⟩ := t.getLast?_growth offset false (offset + 1)
    (t.step ground code) (rest.take (t.munch (t.step ground code) rest))
  obtain ⟨before, split⟩ := List.getLast?_eq_some_iff.1 ends
  have arrives : token.state = t.step (before.foldl t.step ground) last := by
    rw [reached, ← List.foldl_cons, split, List.foldl_concat]
  refine ⟨token, _, final, ?_, arrives, ?_⟩
  · rw [stop, List.length_take, Nat.min_eq_left (t.munch_le _ rest)]
  · rw [reached]
    exact munch_stops left

theorem exists_of_mem_lexemesFrom (member : tokens ∈ t.lexemesFrom offset codes) :
    ∃ before code rest, codes = before ++ code :: rest ∧
      tokens =
        t.growth (offset + before.length) false (offset + before.length + 1) (t.step ground code)
          (rest.take (t.munch (t.step ground code) rest)) ∧
      ∀ last, before.getLast? = some last →
        ∃ previous ∈ t.lexemesFrom offset codes,
          t.Stops previous (offset + before.length) last code := by
  induction offset, codes using lexemesFrom.induct t with
  | case1 offset =>
    rw [lexemesFrom] at member
    contradiction
  | case2 offset code rest more ih =>
    rw [lexemesFrom] at member ⊢
    cases List.mem_cons.1 member with
    | inl here => exact ⟨[], code, rest, rfl, here, fun _ none => by contradiction⟩
    | inr later =>
      obtain ⟨before, next, after, split, grown, previous⟩ := ih later
      have size : offset + (code :: rest.take more ++ before).length =
          offset + 1 + more + before.length := by
        have bound := t.munch_le (t.step ground code) rest
        rw [List.length_append, List.length_cons, List.length_take, Nat.min_eq_left bound]
        omega
      refine ⟨code :: rest.take more ++ before, next, after, ?_, ?_, ?_⟩
      · rw [List.append_assoc, ← split, List.cons_append, List.take_append_drop]
      · rw [size]
        exact grown
      · intro last ends
        rw [size]
        -- The text before the lexeme ends with the first lexeme or inside what the rest gave.
        cases before with
        | nil =>
          rw [List.append_nil] at ends
          exact ⟨_, List.mem_cons_self, stops_growth split ends⟩
        | cons first others =>
          rw [List.getLast?_append_of_ne_nil _ (List.cons_ne_nil _ _)] at ends
          obtain ⟨tokens, listed, stops⟩ := previous last ends
          exact ⟨tokens, List.mem_cons_of_mem _ listed, stops⟩

theorem mem_labelled_of_getLast? {token : Token} (last : tokens.getLast? = some token) :
    (token, t.label token.state) ∈ t.labelled tokens := by
  induction tokens with
  | nil => contradiction
  | cons first later ih =>
    cases later with
    | nil =>
      cases last
      exact List.mem_cons_self
    | cons next rest =>
      rw [List.getLast?_cons_cons] at last
      rw [labelled_cons]
      have inside := ih last
      revert inside
      cases t.labelled (next :: rest) with
      | nil => exact fun none => by contradiction
      | cons second others => exact List.mem_cons_of_mem _

end SyntaxPaint.Tables

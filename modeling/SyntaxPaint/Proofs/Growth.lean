import SyntaxPaint.Proofs.Coverage
import SyntaxPaint.Proofs.Lexeme

/-!
What the tokens of one lexeme look like: all but the first are joined, the last ends where the
lexeme does, and a property of states that every step inside a lexeme keeps holds of all of them.
Lexemes are labelled one by one, since no label is borrowed across their borders.
-/

namespace SyntaxPaint.Tables

variable {t : Tables} {start offset state : Nat} {joined : Bool} {codes : List Nat} {token : Token}

theorem growth_eq_cons (t : Tables) (start : Nat) (joined : Bool) (offset state : Nat)
    (codes : List Nat) :
    ∃ stop later, t.growth start joined offset state codes = ⟨start, stop, state, joined⟩ :: later ∧
      ∀ token ∈ later, token.joined = true := by
  induction codes generalizing start joined offset state with
  | nil => exact ⟨offset, [], rfl, by simp⟩
  | cons code rest ih =>
    rw [growth]
    by_cases stays : t.step state code = state
    · rw [if_pos stays]
      exact ih start joined (offset + 1) state
    · rw [if_neg stays]
      refine ⟨offset, _, rfl, ?_⟩
      obtain ⟨stop, later, grown, all⟩ := ih offset true (offset + 1) (t.step state code)
      rw [grown]
      intro token member
      cases List.mem_cons.1 member with
      | inl here => rw [here]
      | inr below => exact all token below

theorem getLast?_growth (t : Tables) (start : Nat) (joined : Bool) (offset state : Nat)
    (codes : List Nat) :
    ∃ token, (t.growth start joined offset state codes).getLast? = some token ∧
      token.stop = offset + codes.length ∧ token.state = codes.foldl t.step state := by
  induction codes generalizing start joined offset state with
  | nil => exact ⟨_, rfl, rfl, rfl⟩
  | cons code rest ih =>
    have size : offset + (code :: rest).length = offset + 1 + rest.length := by
      rw [List.length_cons]
      omega
    rw [growth, List.foldl_cons, size]
    by_cases stays : t.step state code = state
    · rw [if_pos stays, stays]
      exact ih start joined (offset + 1) state
    · rw [if_neg stays]
      obtain ⟨token, last, stop, reached⟩ := ih offset true (offset + 1) (t.step state code)
      refine ⟨token, ?_, stop, reached⟩
      rw [List.getLast?_cons, last]
      rfl

theorem contiguous_growth (t : Tables) (joined : Bool) (state : Nat) (codes : List Nat)
    (nonempty : start < offset) :
    Contiguous Token.start Token.stop start (offset + codes.length)
      (t.growth start joined offset state codes) := by
  induction codes generalizing start joined offset state with
  | nil => exact ⟨rfl, nonempty, rfl⟩
  | cons code rest ih =>
    have size : offset + (code :: rest).length = offset + 1 + rest.length := by
      rw [List.length_cons]
      omega
    rw [growth, size]
    by_cases stays : t.step state code = state
    · rw [if_pos stays]
      exact ih joined state (Nat.lt_succ_of_lt nonempty)
    · rw [if_neg stays]
      exact ⟨rfl, nonempty, ih true (t.step state code) (Nat.lt_succ_self offset)⟩

theorem forall_state_growth {P : Nat → Prop} (first : P state)
    (kept : ∀ source code, P source → t.step source code ≠ ground → P (t.step source code))
    (start : Nat) (joined : Bool) (offset : Nat) (codes : List Nat) :
    ∀ token ∈ t.growth start joined offset state (codes.take (t.munch state codes)),
      P token.state := by
  induction codes generalizing start joined offset state with
  | nil =>
    intro token member
    rw [List.mem_singleton.1 member]
    exact first
  | cons code rest ih =>
    rw [munch]
    by_cases ended : t.accepts state = true ∨ t.step state code = ground
    · rw [if_pos ended]
      intro token member
      rw [List.mem_singleton.1 member]
      exact first
    · rw [if_neg ended, List.take_succ_cons, growth]
      have next : P (t.step state code) := kept state code first fun back => ended (.inr back)
      by_cases stays : t.step state code = state
      · rw [if_pos stays, stays]
        exact ih first start joined (offset + 1)
      · rw [if_neg stays]
        intro token member
        cases List.mem_cons.1 member with
        | inl here =>
          rw [here]
          exact first
        | inr below => exact ih next offset true (offset + 1) token below

theorem isChain_joined {later : List Token} (first : Token)
    (all : ∀ token ∈ later, token.joined = true) :
    (first :: later).IsChain fun _ next => next.joined := by
  induction later generalizing first with
  | nil => exact .singleton first
  | cons next later ih =>
    exact .cons_cons (all next List.mem_cons_self)
      (ih next fun token member => all token (List.mem_cons_of_mem _ member))

theorem head?_lexemesFrom (t : Tables) (offset : Nat) (codes : List Nat) :
    ∀ token ∈ (t.lexemesFrom offset codes).flatten.head?, token.joined = false := by
  intro token first
  cases codes with
  | nil =>
    rw [lexemesFrom] at first
    contradiction
  | cons code rest =>
    rw [lexemesFrom, List.flatten_cons] at first
    obtain ⟨stop, later, grown, -⟩ :=
      t.growth_eq_cons offset false (offset + 1) (t.step ground code)
      (rest.take (t.munch (t.step ground code) rest))
    rw [grown] at first
    cases first
    rfl

theorem lexemes_flatten (t : Tables) (offset : Nat) (codes : List Nat) :
    Token.lexemes (t.lexemesFrom offset codes).flatten = t.lexemesFrom offset codes := by
  induction offset, codes using lexemesFrom.induct t with
  | case1 offset =>
    rw [lexemesFrom]
    rfl
  | case2 offset code rest more ih =>
    obtain ⟨stop, later, grown, all⟩ :=
      t.growth_eq_cons offset false (offset + 1) (t.step ground code)
      (rest.take more)
    have apart := t.head?_lexemesFrom (offset + 1 + more) (rest.drop more)
    rw [lexemesFrom, List.flatten_cons, Token.lexemes, List.splitBy_append fun _ _ => apart]
    rw [grown, List.splitBy_of_isChain (List.cons_ne_nil _ _) (isChain_joined _ all)]
    exact congrArg _ ih

theorem lexemes_tokenize (restarts : t.Restarts) (codes : List Nat) :
    Token.lexemes (t.tokenize codes) = t.lexemesFrom 0 codes := by
  rw [tokenize_eq restarts, lexemes_flatten]

theorem labelled_lexemes (t : Tables) (offset : Nat) (codes : List Nat) :
    t.labelled (t.lexemesFrom offset codes).flatten =
      (t.lexemesFrom offset codes).flatMap t.labelled := by
  induction offset, codes using lexemesFrom.induct t with
  | case1 offset =>
    rw [lexemesFrom]
    rfl
  | case2 offset code rest more ih =>
    have apart := t.head?_lexemesFrom (offset + 1 + more) (rest.drop more)
    rw [lexemesFrom, List.flatten_cons, labelled_append apart, ih, List.flatMap_cons]

theorem mem_labelled_tokenize (restarts : t.Restarts) {tokens : List Token} {p : Token × String}
    (listed : tokens ∈ t.lexemesFrom 0 codes) (member : p ∈ t.labelled tokens) :
    p ∈ t.labelled (t.tokenize codes) := by
  rw [tokenize_eq restarts, labelled_lexemes]
  exact List.mem_flatMap_of_mem listed member

theorem labelled_of_forall {tokens : List Token} {label : String}
    (same : ∀ token ∈ tokens, t.label token.state = label) :
    t.labelled tokens = tokens.map fun token => (token, label) := by
  induction tokens with
  | nil => rfl
  | cons token later ih =>
    have own := same token List.mem_cons_self
    rw [labelled_cons, ih fun token member => same token (List.mem_cons_of_mem _ member),
      List.map_cons]
    cases later with
    | nil => rw [← own]; rfl
    | cons next later =>
      rw [List.map_cons, labelBefore, own]
      split <;> rfl

end SyntaxPaint.Tables

import SyntaxPaint.Proofs.Borders
import SyntaxPaint.Proofs.QuotedSpan
import SyntaxPaint.Proofs.Reading
import SyntaxPaint.Proofs.Repaint
import SyntaxPaint.Proofs.Words

/-!
The scanner and the bracket search agree on literals. What the scanner reads as one literal, from
its first quote to the state that ends it, the search takes for a pair of quotes with escapes in
between; and the character before it is no escape in a string, as a string that goes on there would
not have ended.
-/

namespace SyntaxPaint

open Text (Passage Cell Document comparable tagAt?)
open Automaton (columnOf numColumns beyondAscii)
open Lexicon

namespace Tables.Quotes

variable {t : Tables} {quote body : Nat}

theorem exists_inner (quotes : t.Quotes quote body) {codes : List Nat}
    (ends : (codes.take (t.munch body codes)).foldl t.step body = body + 2) :
    ∃ inner, codes.take (t.munch body codes) = inner ++ [quote] ∧
      Bracket.Inner quote '\\'.toNat inner := by
  rw [quotes.munch_eq] at ends ⊢
  -- Of the ways out of the body only the quote leads to `body + 2`: in the other final cases the
  -- state is `body` or `body + 1`.
  induction codes using quotedRest.induct quote with
  | case1 =>
    have same : body = body + 2 := ends
    omega
  | case2 rest =>
    refine ⟨[], ?_, .nil⟩
    rw [quotedRest_cons, if_pos rfl]
    rfl
  | case3 rest other =>
    rw [quotedRest_cons, if_neg other, if_pos rfl] at ends
    have same : body = body + 2 := ends
    omega
  | case4 other inLine =>
    rw [quotedRest_cons, if_neg other, if_neg inLine, if_pos rfl] at ends
    have goes := quotes.step_backslash other
    have same : t.step body '\\'.toNat = body + 2 := ends
    omega
  | case5 code rest other inLine ih =>
    rw [quotedRest_cons, if_neg other, if_neg inLine, if_pos rfl] at ends ⊢
    dsimp only at ends ⊢
    rw [List.take_succ_cons, List.take_succ_cons, List.foldl_cons, List.foldl_cons,
      quotes.step_backslash other, quotes.step_escape] at ends
    obtain ⟨inner, split, escapes⟩ := ih ends
    refine ⟨'\\'.toNat :: code :: inner, ?_, .pair escapes⟩
    rw [List.take_succ_cons, List.take_succ_cons, split]
    rfl
  | case6 code rest other inLine plain ih =>
    rw [quotedRest_cons, if_neg other, if_neg inLine, if_neg plain] at ends ⊢
    rw [List.take_succ_cons, List.foldl_cons, quotes.step_plain other inLine plain] at ends
    obtain ⟨inner, split, escapes⟩ := ih ends
    refine ⟨code :: inner, ?_, .plain other plain escapes⟩
    rw [List.take_succ_cons, split]
    rfl

end Tables.Quotes

namespace Language

def closesLiteral (l : Language) (state : Nat) : Bool :=
  l.automaton.states[state]?.any fun s =>
    s.accept && (s.comment == "string end" || s.comment == "char end")

/-- The states of a literal, which only its opening quote leads to. -/
structure Literal (l : Language) (quote body : Nat) : Prop where
  quotes : l.tables.Quotes quote body
  family : l.Family "string" [body, body + 1, body + 2]
  entered : ∀ code, l.tables.step ground code ∈ [body, body + 1, body + 2] →
    code = quote ∧ l.tables.step ground code = body
  apart : ∀ state code, state ≠ ground → l.tables.step state code ∈ [body, body + 1, body + 2] →
    state ∈ [body, body + 1, body + 2]

variable {l : Language} {quote body : Nat}

theorem literal_of_edges (small : quote < beyondAscii) (quotes : l.tables.Quotes quote body)
    (family : l.Family "string" [body, body + 1, body + 2])
    (entered : ∀ column < numColumns, l.edge ground column ∈ [body, body + 1, body + 2] →
      column = quote ∧ l.edge ground column = body)
    (apart : ∀ state < l.automaton.states.size,
      state = ground ∨ state ∈ [body, body + 1, body + 2] ∨
        ∀ column < numColumns, l.edge state column ∉ [body, body + 1, body + 2]) :
    l.Literal quote body where
  quotes := quotes
  family := family
  entered code leads := by
    rw [step_tables] at leads ⊢
    obtain ⟨same, first⟩ := entered _ (Automaton.columnOf_lt code) leads
    exact ⟨(columnOf_eq_iff small).1 same, first⟩
  apart state code inside leads := by
    by_cases listed : state < l.automaton.states.size
    · rw [step_tables] at leads
      rcases apart state listed with first | here | away
      · exact absurd first inside
      · exact here
      · exact absurd leads (away _ (Automaton.columnOf_lt code))
    · rw [Tables.step_of_le _ (Nat.le_of_not_lt listed)] at leads
      have first := quotes.inside
      simp only [ground, List.mem_cons, List.not_mem_nil, or_false] at leads first
      omega

theorem exists_literal (known : l ≠ .string) {state : Nat} (closes : l.closesLiteral state = true) :
    ∃ quote body, isQuote quote = true ∧ l.Literal quote body ∧ state = body + 2 := by
  have inside : state < l.automaton.states.size := by
    by_contra outside
    rw [closesLiteral, Array.getElem?_eq_none (Nat.le_of_not_lt outside)] at closes
    contradiction
  cases l with
  | string => contradiction
  | c =>
    have ends : ∀ state < c.automaton.states.size, c.closesLiteral state = true →
        state = doubleQuoted + 2 ∨ state = singleQuoted + 2 := by
      decide +kernel
    rcases ends state inside closes with rfl | rfl
    · exact ⟨'"'.toNat, doubleQuoted, by decide, literal_of_edges (by decide) quotes_c_double
        (by decide +kernel) (by decide +kernel) (by decide +kernel), rfl⟩
    · exact ⟨'\''.toNat, singleQuoted, by decide, literal_of_edges (by decide) quotes_c_single
        (by decide +kernel) (by decide +kernel) (by decide +kernel), rfl⟩
  | gn =>
    have ends : ∀ state < gn.automaton.states.size, gn.closesLiteral state = true →
        state = doubleQuoted + 2 := by
      decide +kernel
    obtain rfl := ends state inside closes
    exact ⟨'"'.toNat, doubleQuoted, by decide, literal_of_edges (by decide) quotes_gn
      (by decide +kernel) (by decide +kernel) (by decide +kernel), rfl⟩

theorem Literal.begins (literal : l.Literal quote body) {code start offset : Nat} {rest : List Nat}
    {joined : Bool} {last : Token}
    (ends : (l.tables.growth start joined offset (l.tables.step ground code)
      (rest.take (l.tables.munch (l.tables.step ground code) rest))).getLast? = some last)
    (closes : last.state = body + 2) : code = quote ∧ l.tables.step ground code = body := by
  apply literal.entered
  by_contra outside
  -- Only a step from the ground state enters the states of the literal from outside.
  have away := Tables.forall_state_growth (t := l.tables)
    (P := fun state => state ≠ ground ∧ state ∉ [body, body + 1, body + 2])
    ⟨l.restarts.leaves_ground code, outside⟩
    (fun source code apart goes =>
      ⟨goes, fun leads => apart.2 (literal.apart source code apart.1 leads)⟩)
    start joined offset rest last (List.mem_of_getLast? ends)
  exact away.2 (by simp [closes])

end Language

end SyntaxPaint

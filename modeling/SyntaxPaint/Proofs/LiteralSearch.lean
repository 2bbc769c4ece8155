import SyntaxPaint.Proofs.Literals
import SyntaxPaint.Proofs.Words

/-!
In a text that has been highlighted, a bracket search runs from one quote of a literal to the other.
What stands before the opening quote cannot escape it: either it has another tag, or it ended a
literal itself.
-/

namespace SyntaxPaint

open Text (Passage Cell Document comparable tagAt?)
open Automaton (columnOf numColumns beyondAscii)
open Lexicon

theorem Tables.label_of_le (t : Tables) {state : Nat} (outside : t.numStates ≤ state) :
    t.label state = "" := by
  rw [label, Array.getD_eq_getD_getElem?,
    Array.getElem?_eq_none (by rw [t.valid.labels_size]; exact outside)]
  rfl

theorem Painter.keywords_eq_or (k : KeywordSet) (codes : Array Nat) (token : Token)
    (label : String) :
    keywords k codes token label = label ∨ keywords k codes token label = "keyword" := by
  unfold keywords
  split
  · exact .inl rfl
  · split
    · split
      · exact .inr rfl
      · exact .inl rfl
    · exact .inl rfl

namespace Language

variable {l : Language}

theorem label_eq_string_or (known : l ≠ .string) (state : Nat) :
    l.tables.label state = "string" ∨ comparable (l.tables.label state) "string" = false := by
  by_cases listed : state < l.automaton.states.size
  · have labels : ∀ state < l.automaton.states.size,
        l.tables.label state = "string" ∨ comparable (l.tables.label state) "string" = false := by
      cases l with
      | string => contradiction
      | c => decide +kernel
      | gn => decide +kernel
    exact labels state listed
  · rw [Tables.label_of_le _ (Nat.le_of_not_lt listed)]
    exact .inr (by decide)

theorem escape_goes_on (known : l ≠ .string) : ∀ source < l.automaton.states.size,
    l.tables.label (l.edge source '\\'.toNat) = "string" →
      l.tables.accepts (l.edge source '\\'.toNat) = false ∧
        l.edge (l.edge source '\\'.toNat) '"'.toNat ≠ ground ∧
        l.edge (l.edge source '\\'.toNat) '\''.toNat ≠ ground := by
  cases l with
  | string => contradiction
  | c => decide +kernel
  | gn => decide +kernel

theorem ne_escape_of_stops (known : l ≠ .string) {quote source last : Nat}
    (opens : isQuote quote = true) (string : l.tables.label (l.tables.step source last) = "string")
    (stops : l.tables.accepts (l.tables.step source last) = true ∨
      l.tables.step (l.tables.step source last) quote = ground) : last ≠ '\\'.toNat := by
  rintro rfl
  have backslash : columnOf '\\'.toNat = '\\'.toNat := by decide
  by_cases listed : source < l.automaton.states.size
  · rw [step_tables, backslash] at string stops
    obtain ⟨rejects, double, single⟩ := escape_goes_on known source listed string
    rcases stops with accepts | back
    · rw [rejects] at accepts
      contradiction
    · rw [step_tables] at back
      simp only [isQuote, isAnyOf, List.any_cons, List.any_nil, Bool.or_false, Bool.or_eq_true,
        beq_iff_eq] at opens
      rcases opens with rfl | rfl
      · exact double back
      · exact single back
  · rw [Tables.step_of_le _ (Nat.le_of_not_lt listed)] at string
    have plain : l.tables.label ground ≠ "string" := by
      cases l <;> decide +kernel
    exact plain string

/-- The character before a quote that begins a lexeme is no escape that a search among strings
sees. -/
theorem tag_before (known : l ≠ .string) (k : KeywordSet) {codes : List Nat} {previous : List Token}
    {offset last quote : Nat} (listed : previous ∈ l.tables.lexemesFrom 0 codes)
    (stops : l.tables.Stops previous offset last quote) (opens : isQuote quote = true) :
    ∃ tag, tagAt? (l.tables.classify (.keywords k) codes.toArray) (offset - 1) = some tag ∧
      (comparable tag "string" = true → last ≠ '\\'.toNat) := by
  obtain ⟨token, source, final, stop, arrives, halts⟩ := stops
  have member :=
    Tables.mem_labelled_tokenize l.restarts listed (Tables.mem_labelled_of_getLast? final)
  have nonempty := (Tables.bounds_of_mem_labelled member).1
  refine ⟨_, Tables.tagAt?_classify member (by omega) (by omega), fun near => ?_⟩
  rcases label_eq_string_or known token.state with string | foreign
  · rw [arrives] at string halts
    exact ne_escape_of_stops known opens string halts
  · rcases Painter.keywords_eq_or k codes.toArray token (l.tables.label token.state) with
      same | keyword
    · rw [same, foreign] at near
      contradiction
    · rw [keyword] at near
      exact absurd near (by decide)

theorem Literal.tagAt?_eq {quote body : Nat} (literal : l.Literal quote body) (k : KeywordSet)
    {codes rest : List Nat} {start offset : Nat}
    (listed : l.tables.growth start false (start + 1) body (rest.take (l.tables.munch body rest)) ∈
      l.tables.lexemesFrom 0 codes)
    (after : start ≤ offset) (before : offset < start + 1 + l.tables.munch body rest) :
    tagAt? (l.tables.classify (.keywords k) codes.toArray) offset = some "string" := by
  have covers := l.tables.contiguous_growth false body (rest.take (l.tables.munch body rest))
    (Nat.lt_succ_self start)
  rw [List.length_take, Nat.min_eq_left (l.tables.munch_le _ rest)] at covers
  obtain ⟨token, inside, afterToken, beforeToken⟩ := covers.exists_mem after before
  have member : (token, "string") ∈ l.tables.labelled (l.tables.tokenize codes) := by
    refine Tables.mem_labelled_tokenize l.restarts listed ?_
    rw [literal.family.labelled_growth List.mem_cons_self]
    exact List.mem_map_of_mem inside
  rw [Tables.tagAt?_classify member afterToken beforeToken, Painter.keywords_of_ne (by decide)]

structure Span (l : Language) (k : KeywordSet) (codes : List Nat) (start stop quote : Nat)
    (before inner after : List Nat) : Prop where
  split : codes = before ++ (quote :: (inner ++ [quote])) ++ after
  quoted : isQuote quote = true
  escapes : Bracket.Inner quote '\\'.toNat inner
  start_eq : start = before.length
  stop_eq : stop = before.length + (inner.length + 2)
  painted : ∀ offset, start ≤ offset → offset < stop →
    tagAt? (l.tables.classify (.keywords k) codes.toArray) offset = some "string"
  preceded : ∀ last, before.getLast? = some last →
    ∃ tag, tagAt? (l.tables.classify (.keywords k) codes.toArray) (start - 1) = some tag ∧
      (comparable tag "string" = true → last ≠ '\\'.toNat)

theorem exists_span (known : l ≠ .string) (k : KeywordSet) {codes : List Nat} {tokens : List Token}
    {first last : Token} (member : tokens ∈ l.tables.lexemesFrom 0 codes)
    (begins : tokens.head? = some first) (ends : tokens.getLast? = some last)
    (closes : l.closesLiteral last.state = true) :
    ∃ quote before inner after, l.Span k codes first.start last.stop quote before inner after := by
  obtain ⟨before, code, rest, split, grown, previous⟩ := Tables.exists_of_mem_lexemesFrom member
  rw [Nat.zero_add] at grown previous
  obtain ⟨quote, body, quoted, literal, state⟩ := exists_literal known closes
  rw [grown] at member begins ends
  obtain ⟨rfl, enters⟩ := literal.begins ends state
  rw [enters] at member begins ends
  have start : first.start = before.length := by
    obtain ⟨stop, later, head, -⟩ :=
      l.tables.growth_eq_cons before.length false (before.length + 1) body
      (rest.take (l.tables.munch body rest))
    rw [head] at begins
    cases begins
    rfl
  obtain ⟨_, final, stop, reached⟩ :=
    l.tables.getLast?_growth before.length false (before.length + 1)
    body (rest.take (l.tables.munch body rest))
  rw [ends] at final
  cases final
  obtain ⟨inner, whole, escapes⟩ := literal.quotes.exists_inner (reached.symm.trans state)
  have munched := l.tables.munch_le body rest
  have size : l.tables.munch body rest = inner.length + 1 := by
    have length := congrArg List.length whole
    rw [List.length_take, List.length_append, List.length_singleton] at length
    omega
  rw [List.length_take, Nat.min_eq_left munched, size] at stop
  refine ⟨code, before, inner, rest.drop (inner.length + 1), ?_, quoted, escapes, start,
    by omega, ?_, ?_⟩
  · rw [split, List.append_assoc, List.cons_append, ← whole, size, List.take_append_drop]
  · intro offset after inside
    exact literal.tagAt?_eq k member (by omega) (by omega)
  · intro final behind
    obtain ⟨tokens, listed, stops⟩ := previous final behind
    rw [start]
    exact tag_before known k listed stops quoted

end Language

namespace Bracket

theorem exists_tagged {p : Passage} {before middle after : List Nat} (tag : String)
    (codes : p.codes = before ++ middle ++ after)
    (tags : ∀ i c, p[i]? = some c → before.length ≤ i → i < before.length + middle.length →
      c.tag = tag) :
    ∃ left right, p = left ++ tagged tag middle ++ right ∧ left.codes = before := by
  obtain ⟨initial, right, rfl, split, -⟩ := List.map_eq_append_iff.1 codes
  obtain ⟨left, span, rfl, same, inside⟩ := List.map_eq_append_iff.1 split
  refine ⟨left, right, ?_, same⟩
  have size : left.length = before.length := by rw [← same, List.length_map]
  have sizeSpan : span.length = middle.length := by rw [← inside, List.length_map]
  have each : ∀ c ∈ span, (⟨c.code, tag⟩ : Cell) = id c := by
    intro c member
    obtain ⟨j, found⟩ := List.mem_iff_getElem?.1 member
    have inside := (List.getElem?_eq_some_iff.1 found).1
    have place : (left ++ span ++ right)[before.length + j]? = some c := by
      rw [← size, List.append_assoc, List.getElem?_append_right (by omega), Nat.add_sub_cancel_left,
        List.getElem?_append_left inside, found]
    rw [← tags _ c place (by omega) (by omega)]
    rfl
  have whole : tagged tag middle = span := by
    rw [tagged, ← inside, List.map_map]
    exact (List.map_congr_left each).trans (List.map_id span)
  rw [whole]

theorem Table.quoting_standard {quote : Nat} (opens : isQuote quote = true) :
    standard.Quoting quote '\\'.toNat where
  quote_listed := by
    simp only [isQuote, isAnyOf, List.any_cons, List.any_nil, Bool.or_false, Bool.or_eq_true,
      beq_iff_eq] at opens
    rcases opens with rfl | rfl <;> decide
  escape_listed := by decide
  escape_only code listed := by
    simp only [standard, setPair, find?_set, Delimiter.left, Delimiter.right, find?_empty] at listed
    split_ifs at listed with backslash
    case pos => exact backslash.symm
    all_goals contradiction

theorem escaped_eq_false {table : Table} {quote escape : Nat} {tag : String} {left : Passage}
    (quoting : table.Quoting quote escape)
    (last : ∀ c, left.getLast? = some c → comparable c.tag tag = true → c.code ≠ escape) :
    Backward.escaped table tag left.reverse = false := by
  cases final : left.getLast? with
  | none =>
    rw [List.getLast?_eq_none_iff.1 final]
    rfl
  | some c =>
    obtain ⟨initial, rfl⟩ := List.getLast?_eq_some_iff.1 final
    rw [List.reverse_concat]
    refine escaped_cons_of_not_escape ?_ _
    cases near : comparable c.tag tag with
    | true => exact quoting.escapesIn_eq_false (last c final near) tag c.tag
    | false => rw [escapesIn, near, Bool.and_false]

theorem search_of_span {l : Language} {k : KeywordSet} {p : Passage} {start stop quote : Nat}
    {before inner after : List Nat} (span : l.Span k p.codes start stop quote before inner after) :
    let q := (Highlighter.highlight ⟨l.tables, k⟩ p).2
    forward .standard q start = stop ∧ backward .standard q stop = start := by
  intro q
  have tag_eq (i : Nat) (c : Cell) (found : q[i]? = some c) {tag : String}
      (painted : tagAt? (l.tables.classify (.keywords k) p.codes.toArray) i = some tag) :
      c.tag = tag := by
    rw [getElem?_highlight, Option.map_eq_some_iff] at found
    obtain ⟨d, -, rfl⟩ := found
    exact congrArg (Option.getD · "") painted
  have codes : q.codes = before ++ (quote :: (inner ++ [quote])) ++ after :=
    (codes_highlight ⟨l.tables, k⟩ p).trans span.split
  have size : (quote :: (inner ++ [quote])).length = inner.length + 2 := by simp
  obtain ⟨left, right, parts, same⟩ :=
    exists_tagged "string" codes fun i c found afterStart inside =>
      tag_eq i c found
        (span.painted i (by rw [span.start_eq]; exact afterStart) (by rw [span.stop_eq]; omega))
  have place : left.length = before.length := by rw [← same, Passage.codes, List.length_map]
  have quoting := Table.quoting_standard span.quoted
  have even : Backward.escaped .standard "string" left.reverse = false := by
    refine escaped_eq_false quoting fun c final near => ?_
    obtain ⟨initial, rfl⟩ := List.getLast?_eq_some_iff.1 final
    have behind : before.getLast? = some c.code := by
      rw [← same, Passage.codes, List.map_append, List.map_singleton, List.getLast?_concat]
    obtain ⟨other, painted, escapes⟩ := span.preceded c.code behind
    have here : q[start - 1]? = some c := by
      have offset : start - 1 = initial.length := by
        rw [span.start_eq, ← place, List.length_append, List.length_singleton, Nat.add_sub_cancel]
      rw [parts, offset, List.append_assoc, List.append_assoc,
        List.getElem?_append_right (Nat.le_refl _), Nat.sub_self]
      rfl
    rw [tag_eq _ c here painted] at near
    exact escapes near
  have whole : q = left ++ literal "string" quote inner ++ right := by
    rw [parts, literal, tagged, tagged, List.map_cons, List.map_append, List.map_singleton]
  rw [span.start_eq, span.stop_eq, ← place, whole]
  exact forward_and_backward_literal Table.coherent_standard quoting span.escapes even right

/-- In a document that has been highlighted with the C or the GN tables, the two searches run
between the ends of every literal that the scanner has found closed. -/
theorem search_of_closesLiteral (l : Language) (known : l ≠ .string) (k : KeywordSet) (d : Document)
    (reached : d.Reached) (tokens : List Token) (first last : Token)
    (member : tokens ∈ Token.lexemes (Highlighter.tokenize ⟨l.tables, k⟩ d))
    (begins : tokens.head? = some first) (ends : tokens.getLast? = some last)
    (closes : l.closesLiteral last.state = true) :
    let painted := (Highlighter.highlight ⟨l.tables, k⟩ d).2.cells
    forward .standard painted first.start = last.stop ∧
      backward .standard painted last.stop = first.start := by
  intro painted
  have same : painted = (Highlighter.highlight ⟨l.tables, k⟩ d.cells).2 :=
    reached.sound.cells_highlight _
  have listed : tokens ∈ l.tables.lexemesFrom 0 d.cells.codes := by
    rw [← Tables.lexemes_tokenize l.restarts]
    exact member
  obtain ⟨quote, before, inner, after, span⟩ :=
    Language.exists_span known k listed begins ends closes
  rw [same]
  exact search_of_span span

theorem search_of_adjacent_literal :
    let painted :=
      (Highlighter.highlight ⟨Language.c.tables, .empty⟩
        (Document.ofString "\"\"\"\\\"(\"")).2.cells
    forward .standard painted 2 = 7 ∧ backward .standard painted 7 = 2 :=
  search_of_closesLiteral .c (by decide) .empty (Document.ofString "\"\"\"\\\"(\"") (.ofString _)
    [⟨2, 3, 5, false⟩, ⟨3, 4, 6, true⟩, ⟨4, 6, 5, true⟩, ⟨6, 7, 7, true⟩]
    ⟨2, 3, 5, false⟩ ⟨6, 7, 7, true⟩ (by decide +kernel) rfl rfl (by decide +kernel)

end Bracket

end SyntaxPaint

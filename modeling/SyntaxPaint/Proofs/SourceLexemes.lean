import Mathlib.Data.List.Forall2
import SyntaxPaint.Proofs.Reading
import SyntaxPaint.Proofs.Words
import SyntaxPaint.Scan.Highlighter

/-!
The C tables implement the lexical grammar. The first character of a lexeme leads to a state that
reads as far as the grammar says and whose label is that of the lexeme's kind; lexeme by lexeme, the
tokens of a text therefore lie as the reference lexer says, and every character is painted for the
lexeme that it is in.
-/

namespace SyntaxPaint

open Text (Buffer tagAt?)
open Automaton (numColumns beyondAscii)
open Lexicon

def Token.extent? (lexeme : List Token) : Option (Nat × Nat) := do
  return ((← lexeme.head?).start, (← lexeme.getLast?).stop)

theorem Tables.labelled_of_borrowed {t : Tables} {token : Token} {later : List Token}
    {label : String} (own : t.label token.state = "") (some : later ≠ [])
    (joined : ∀ next ∈ later.head?, next.joined = true)
    (labels : t.labelled later = later.map fun next => (next, label)) :
    t.labelled (token :: later) = (token :: later).map fun next => (next, label) := by
  rw [labelled_cons, labels]
  cases later with
  | nil => contradiction
  | cons next rest =>
    have borrows := joined next rfl
    rw [List.map_cons, labelBefore, own, if_pos ⟨rfl, borrows⟩]
    rfl

def Lexicon.Kind.label : Kind → String
  | blank | symbol => ""
  | word => "identifier"
  | number => "number"
  | quoted => "string"
  | comment => "comment"

theorem Lexicon.Kind.label_ne_identifier {kind : Kind} (other : kind ≠ .word) :
    kind.label ≠ "identifier" := by
  cases kind with
  | word => contradiction
  | blank | number | quoted | comment | symbol => decide

theorem exists_of_forall₂ {α β : Type} {r : α → β → Prop} {xs : List α} {ys : List β} {x : α}
    (related : List.Forall₂ r xs ys) (member : x ∈ xs) : ∃ y ∈ ys, r x y := by
  induction related with
  | nil => contradiction
  | cons here _ ih =>
    cases List.mem_cons.1 member with
    | inl first => exact ⟨_, List.mem_cons_self, first ▸ here⟩
    | inr later =>
      obtain ⟨y, listed, found⟩ := ih later
      exact ⟨y, List.mem_cons_of_mem _ listed, found⟩

namespace Language

def entry (code : Nat) : Nat :=
  if isBlank code then white
  else if beginsWord code then identifier
  else if isDigit code then number
  else if code = '"'.toNat then doubleQuoted
  else if code = '\''.toNat then singleQuoted
  else if code = '/'.toNat then slash
  else punctuation

theorem step_ground (code : Nat) : c.tables.step ground code = entry code := by
  have edges : ∀ column < numColumns, c.edge ground column = entry column := by decide +kernel
  rw [step_tables, edges _ (Automaton.columnOf_lt code)]
  simp only [entry, byColumn_isBlank code, byColumn_beginsWord code, byColumn_isDigit code,
    columnOf_eq_iff (show '"'.toNat < beyondAscii by decide),
    columnOf_eq_iff (show '\''.toNat < beyondAscii by decide),
    columnOf_eq_iff (show '/'.toNat < beyondAscii by decide)]

theorem step_slash (code : Nat) :
    c.tables.step slash code =
      if code = '/'.toNat then lineComment
      else if code = '*'.toNat then blockComment
      else ground := by
  have edges : ∀ column < numColumns, c.edge slash column =
      if column = '/'.toNat then lineComment
      else if column = '*'.toNat then blockComment
      else ground := by
    decide +kernel
  rw [step_tables, edges _ (Automaton.columnOf_lt code)]
  simp only [columnOf_eq_iff (show '/'.toNat < beyondAscii by decide),
    columnOf_eq_iff (show '*'.toNat < beyondAscii by decide)]

/-- From a state, a lexeme reads `more` characters of the rest, and all of its tokens have the label
of its kind. A word is a single token. -/
structure Accords (state : Nat) (rest : List Nat) (kind : Kind) (more : Nat) : Prop where
  munch_eq : c.tables.munch state rest = more
  labels : ∀ offset, ∀ p ∈ c.tables.labelled
    (c.tables.growth offset false (offset + 1) state (rest.take more)), p.2 = kind.label
  whole : kind = .word → ∀ offset,
    c.tables.growth offset false (offset + 1) state (rest.take more) =
      [⟨offset, offset + 1 + more, state, false⟩]

variable {state body quote : Nat} {states : List Nat} {kind : Kind} {p : Nat → Bool}
variable {rest : List Nat}

theorem accords_of_family (family : c.Family kind.label states) (first : state ∈ states)
    (other : kind ≠ .word) (rest : List Nat) :
    Accords state rest kind (c.tables.munch state rest) where
  munch_eq := rfl
  labels offset p member := by
    rw [family.labelled_growth first, List.mem_map] at member
    obtain ⟨token, -, rfl⟩ := member
    rfl
  whole word := absurd word other

theorem accords_of_loops (loops : c.tables.Loops state p) (family : c.Family kind.label [state])
    (rest : List Nat) : Accords state rest kind (rest.takeWhile p).length where
  munch_eq := loops.munch_eq rest
  labels offset p member := by
    rw [← loops.munch_eq rest, family.labelled_growth List.mem_cons_self, List.mem_map] at member
    obtain ⟨token, -, rfl⟩ := member
    rfl
  whole _ offset := by
    rw [← loops.munch_eq rest]
    exact loops.growth_eq _ _ _ _

theorem accords_of_quotes (quotes : c.tables.Quotes quote body)
    (family : c.Family Kind.quoted.label [body, body + 1, body + 2]) (rest : List Nat) :
    Accords body rest .quoted (quotedRest quote rest) := by
  rw [← quotes.munch_eq]
  exact accords_of_family family List.mem_cons_self Kind.noConfusion rest

theorem accords_punctuation (rest : List Nat) : Accords punctuation rest .symbol 0 := by
  have family : c.Family Kind.symbol.label [punctuation] := by decide +kernel
  have accepts : c.tables.accepts punctuation = true := by decide +kernel
  rw [← Tables.munch_of_accepts accepts rest]
  exact accords_of_family family List.mem_cons_self Kind.noConfusion rest

theorem accords_comment {code : Nat} (goes : c.tables.step slash code = body)
    (inside : body ≠ ground) (other : body ≠ slash) (family : c.Family Kind.comment.label states)
    (first : body ∈ states) (rest : List Nat) :
    Accords slash (code :: rest) .comment (c.tables.munch body rest + 1) where
  munch_eq := by
    have rejects : c.tables.accepts slash = false := by decide +kernel
    exact Tables.munch_of_goes rejects goes inside rest
  labels offset p member := by
    have own : c.tables.label slash = "" := by decide +kernel
    have labels := family.labelled_growth first offset.succ true (offset + 1 + 1) rest
    obtain ⟨stop, later, grown, -⟩ :=
      c.tables.growth_eq_cons (offset + 1) true (offset + 1 + 1) body
      (rest.take (c.tables.munch body rest))
    rw [List.take_succ_cons, Tables.growth, goes, if_neg other, Tables.labelled_of_borrowed own
      (by rw [grown]; exact List.cons_ne_nil _ _) (by rw [grown]; rintro next ⟨⟩; rfl) labels,
      List.mem_map] at member
    obtain ⟨token, -, rfl⟩ := member
    rfl
  whole word := absurd word Kind.noConfusion

theorem accords_slash (rest : List Nat) :
    Accords slash rest (afterSlash rest).1 (afterSlash rest).2 := by
  have alone : c.tables.label slash = "" := by decide +kernel
  have symbol (rest : List Nat) (none : c.tables.munch slash rest = 0) :
      Accords slash rest .symbol 0 := by
    refine ⟨none, fun offset p member => ?_, fun word => absurd word Kind.noConfusion⟩
    have own : ∀ token ∈ [(⟨offset, offset + 1, slash, false⟩ : Token)],
        c.tables.label token.state = "" := by
      simpa using alone
    rw [List.take_zero, Tables.growth, Tables.labelled_of_forall own, List.map_singleton,
      List.mem_singleton] at member
    rw [member]
    rfl
  cases rest with
  | nil => exact symbol [] rfl
  | cons code rest =>
    have step := step_slash code
    rw [afterSlash]
    by_cases line : code = '/'.toNat
    · rw [if_pos line] at step ⊢
      rw [← loops_lineComment.munch_eq]
      have family : c.Family Kind.comment.label [lineComment] := by decide +kernel
      exact accords_comment step (by decide) (by decide) family List.mem_cons_self rest
    · rw [if_neg line] at step ⊢
      by_cases block : code = '*'.toNat
      · rw [if_pos block] at step ⊢
        rw [← (blocks_c.munch_eq rest).1]
        have family : c.Family Kind.comment.label
            [blockComment, blockComment + 1, blockComment + 2] := by
          decide +kernel
        exact accords_comment step (by decide) (by decide) family List.mem_cons_self rest
      · rw [if_neg block] at step ⊢
        exact symbol (code :: rest) (Tables.munch_of_back step rest)

theorem accords_lead (code : Nat) (rest : List Nat) :
    Accords (c.tables.step ground code) rest (lead code rest).1 (lead code rest).2 := by
  rw [step_ground]
  unfold entry lead
  by_cases blank : isBlank code = true
  · rw [if_pos blank, if_pos blank]
    have family : c.Family Kind.blank.label [white] := by decide +kernel
    exact accords_of_loops loops_white family rest
  rw [if_neg blank, if_neg blank]
  by_cases word : beginsWord code = true
  · rw [if_pos word, if_pos word]
    have family : c.Family Kind.word.label [identifier] := by decide +kernel
    exact accords_of_loops loops_identifier family rest
  rw [if_neg word, if_neg word]
  by_cases digit : isDigit code = true
  · rw [if_pos digit, if_pos digit]
    have family : c.Family Kind.number.label [number] := by decide +kernel
    exact accords_of_loops loops_number family rest
  rw [if_neg digit, if_neg digit]
  by_cases double : code = '"'.toNat
  · subst double
    have family : c.Family Kind.quoted.label
        [doubleQuoted, doubleQuoted + 1, doubleQuoted + 2] := by
      decide +kernel
    exact accords_of_quotes quotes_c_double family rest
  rw [if_neg double]
  by_cases single : code = '\''.toNat
  · subst single
    have family : c.Family Kind.quoted.label
        [singleQuoted, singleQuoted + 1, singleQuoted + 2] := by
      decide +kernel
    exact accords_of_quotes quotes_c_single family rest
  have plain : ¬isQuote code = true := by
    simp only [isQuote, isAnyOf, List.any_cons, List.any_nil, Bool.or_false, Bool.or_eq_true,
      beq_iff_eq]
    omega
  rw [if_neg single, if_neg plain]
  by_cases line : code = '/'.toNat
  · rw [if_pos line, if_pos line]
    exact accords_slash rest
  · rw [if_neg line, if_neg line]
    exact accords_punctuation rest

structure Reads (x : Lexeme) (tokens : List Token) : Prop where
  extent : Token.extent? tokens = some (x.start, x.stop)
  covers : Contiguous Token.start Token.stop x.start x.stop tokens
  labels : ∀ p ∈ c.tables.labelled tokens, p.2 = x.kind.label
  whole : x.kind = .word → ∃ token, tokens = [token]

theorem Accords.reads {code more : Nat}
    (accords : Accords (c.tables.step ground code) rest kind more) (offset : Nat) :
    Reads ⟨offset, offset + 1 + more, kind⟩
      (c.tables.growth offset false (offset + 1) (c.tables.step ground code) (rest.take more)) where
  extent := by
    have size : (rest.take more).length = more := by
      rw [List.length_take, ← accords.munch_eq]
      exact Nat.min_eq_left (c.tables.munch_le _ rest)
    obtain ⟨stop, later, grown, -⟩ := c.tables.growth_eq_cons offset false (offset + 1)
      (c.tables.step ground code) (rest.take more)
    obtain ⟨token, last, ends, -⟩ := c.tables.getLast?_growth offset false (offset + 1)
      (c.tables.step ground code) (rest.take more)
    rw [size] at ends
    rw [Token.extent?, last, grown, ← ends]
    rfl
  covers := by
    have covers := c.tables.contiguous_growth false (c.tables.step ground code) (rest.take more)
      (Nat.lt_succ_self offset)
    rw [List.length_take, ← accords.munch_eq, Nat.min_eq_left (c.tables.munch_le _ rest)] at covers
    rw [← accords.munch_eq]
    exact covers
  labels := accords.labels offset
  whole word := ⟨_, accords.whole word offset⟩

theorem forall₂_reads (offset : Nat) (codes : List Nat) :
    List.Forall₂ Reads (lexemes offset codes) (c.tables.lexemesFrom offset codes) := by
  induction offset, codes using lexemes.induct with
  | case1 offset =>
    rw [lexemes, Tables.lexemesFrom]
    exact .nil
  | case2 offset code rest kind more leads ih =>
    have accords := accords_lead code rest
    rw [leads] at accords
    rw [lexemes, leads, Tables.lexemesFrom, accords.munch_eq]
    exact .cons (accords.reads offset) ih

theorem Reads.tag {x : Lexeme} {tokens : List Token} (reads : Reads x tokens) {k : KeywordSet}
    {codes : Array Nat} {token : Token} {label : String} (inside : token.stop ≤ codes.size)
    (member : (token, label) ∈ c.tables.labelled tokens) :
    Painter.keywords k codes token label = x.tag k codes.toList := by
  have labelled : label = x.kind.label := reads.labels _ member
  have listed : token ∈ tokens := by
    rw [← c.tables.map_fst_labelled tokens]
    exact List.mem_map_of_mem member
  obtain ⟨start, stop, kind⟩ := x
  cases kind with
  | word =>
    obtain ⟨only, rfl⟩ := reads.whole rfl
    obtain rfl : token = only := List.mem_singleton.1 listed
    obtain ⟨first, -, last⟩ := reads.covers
    rw [labelled]
    refine (Painter.keywords_identifier inside).trans ?_
    rw [show token.start = start from first, show token.stop = stop from last]
    rfl
  | blank | number | quoted | comment | symbol =>
    rw [labelled]
    exact Painter.keywords_of_ne (Kind.label_ne_identifier Kind.noConfusion) _ _

end Language

/-- The lexemes of a scan with the C tables are those of the grammar, and the characters of each
have its tag, whatever the keywords are. -/
theorem lexemes_eq_and_tagAt?_eq {β : Type} [Buffer β] (k : KeywordSet) (b : β) :
    let h : Highlighter := ⟨Language.c.tables, k⟩
    let codes := (Buffer.cells b).codes
    (Token.lexemes (h.tokenize b)).map Token.extent? =
        (lexemes 0 codes).map (fun x => some (x.start, x.stop)) ∧
      ∀ x ∈ lexemes 0 codes, ∀ offset, x.start ≤ offset → offset < x.stop →
        tagAt? (h.classify b) offset = some (x.tag k codes) := by
  intro h codes
  have reads := Language.forall₂_reads 0 codes
  have found : Token.lexemes (h.tokenize b) = Language.c.tables.lexemesFrom 0 codes :=
    Tables.lexemes_tokenize Language.c.restarts codes
  constructor
  · rw [found]
    have extents := reads.imp fun _ _ lexeme => lexeme.extent.symm
    rw [← List.forall₂_map_right_iff, ← List.forall₂_map_left_iff, List.forall₂_eq_eq_eq] at extents
    exact extents.symm
  · intro x member offset after before
    obtain ⟨tokens, listed, lexeme⟩ := exists_of_forall₂ reads member
    obtain ⟨token, inside, afterToken, beforeToken⟩ := lexeme.covers.exists_mem after before
    rw [← Language.c.tables.map_fst_labelled tokens] at inside
    obtain ⟨⟨token, label⟩, labelled, rfl⟩ := List.mem_map.1 inside
    have whole := Tables.mem_labelled_tokenize Language.c.restarts listed labelled
    have painted : Painter.keywords k codes.toArray token label = x.tag k codes :=
      lexeme.tag (Tables.bounds_of_mem_labelled whole).2 labelled
    rw [← painted]
    exact Tables.tagAt?_classify whole afterToken beforeToken

theorem lexemes_of_open_comment :
    let h : Highlighter := ⟨Language.c.tables, .ofList ["if"]⟩
    let p : Text.Passage := .ofString "if/*/"
    (Token.lexemes (h.tokenize p)).map Token.extent? = [some (0, 2), some (2, 5)] ∧
      tagAt? (h.classify p) 1 = some "keyword" ∧ tagAt? (h.classify p) 2 = some "comment" := by
  intro h p
  have word : lead 105 [102, 47, 42, 47] = (.word, 1) := by decide
  have comment : lead 47 [42, 47] = (.comment, 2) := by decide
  have grammar : lexemes 0 p.codes = [⟨0, 2, .word⟩, ⟨2, 5, .comment⟩] := by
    rw [show p.codes = [105, 102, 47, 42, 47] by decide, lexemes, word]
    simp only [List.drop_succ_cons, List.drop_zero]
    rw [lexemes, comment]
    simp only [List.drop_succ_cons, List.drop_zero, lexemes]
  have keyword : (⟨0, 2, .word⟩ : Lexeme).tag (.ofList ["if"]) p.codes = "keyword" := by
    decide +kernel
  obtain ⟨extents, tags⟩ := lexemes_eq_and_tagAt?_eq (.ofList ["if"]) p
  have shown : (Buffer.cells p).codes = p.codes := rfl
  rw [shown, grammar] at extents tags
  refine ⟨extents, ?_, ?_⟩
  · rw [← keyword]
    exact tags _ (by simp) 1 (by decide) (by decide)
  · exact tags ⟨2, 5, .comment⟩ (by simp) 2 (by decide) (by decide)

end SyntaxPaint

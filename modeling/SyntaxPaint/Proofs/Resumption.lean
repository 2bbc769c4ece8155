import SyntaxPaint.Proofs.Edges
import SyntaxPaint.Scan.Highlighter

/-!
Scanning from the middle of a text. With the built-in languages a lexeme is read in the same way
wherever it stands, so the text from a token on that is not joined is scanned as a text of its own:
its tokens are moved, and its characters have the same tags.
-/

namespace SyntaxPaint

open Text (Buffer tagAt?)

def Token.shift (distance : Nat) (token : Token) : Token :=
  { token with start := distance + token.start, stop := distance + token.stop }

@[simp] theorem Token.length_shift (distance : Nat) (token : Token) :
    (token.shift distance).length = token.length := by
  simp only [Token.length, Token.shift]
  omega

namespace Tables

variable {t : Tables} {codes : List Nat} {token : Token} {i : Nat}

theorem growth_shift (t : Tables) (distance start : Nat) (joined : Bool) (offset state : Nat)
    (codes : List Nat) :
    t.growth (distance + start) joined (distance + offset) state codes =
      (t.growth start joined offset state codes).map (Token.shift distance) := by
  induction codes generalizing start joined offset state with
  | nil => rfl
  | cons code rest ih =>
    rw [growth, growth, Nat.add_assoc]
    by_cases stays : t.step state code = state
    · rw [if_pos stays, if_pos stays, ih]
    · rw [if_neg stays, if_neg stays, ih, List.map_cons]
      rfl

theorem lexemesFrom_shift (t : Tables) (distance offset : Nat) (codes : List Nat) :
    t.lexemesFrom (distance + offset) codes =
      (t.lexemesFrom offset codes).map (List.map (Token.shift distance)) := by
  induction offset, codes using lexemesFrom.induct t with
  | case1 offset =>
    rw [lexemesFrom, lexemesFrom]
    rfl
  | case2 offset code rest more ih =>
    have next : distance + offset + 1 + more = distance + (offset + 1 + more) := by omega
    rw [lexemesFrom, lexemesFrom, List.map_cons, ← growth_shift, ← ih, ← next]
    rfl

theorem drop_lexemesFrom {offset : Nat}
    (found : (t.lexemesFrom offset codes).flatten[i]? = some token)
    (unjoined : token.joined = false) :
    ∃ passed, token.start = offset + passed ∧
      (t.lexemesFrom offset codes).flatten.drop i =
        (t.lexemesFrom token.start (codes.drop passed)).flatten := by
  induction offset, codes using lexemesFrom.induct t generalizing i with
  | case1 offset =>
    rw [lexemesFrom] at found
    contradiction
  | @case2 offset code rest more ih =>
    obtain ⟨stop, later, grown, joined⟩ := t.growth_eq_cons offset false (offset + 1)
      (t.step ground code) (rest.take more)
    have split : (t.lexemesFrom offset (code :: rest)).flatten =
        (⟨offset, stop, t.step ground code, false⟩ :: later) ++
          (t.lexemesFrom (offset + 1 + more) (rest.drop more)).flatten := by
      rw [lexemesFrom, List.flatten_cons, ← grown]
    rw [split] at found ⊢
    by_cases inside : i < (⟨offset, stop, t.step ground code, false⟩ :: later).length
    · rw [List.getElem?_append_left inside] at found
      cases i with
      | zero =>
        cases found
        exact ⟨0, rfl, by rw [List.drop_zero, List.drop_zero, split]⟩
      | succ i =>
        have below : token ∈ later := List.mem_of_getElem? found
        rw [joined token below] at unjoined
        contradiction
    · have beyond := Nat.le_of_not_lt inside
      rw [List.getElem?_append_right beyond] at found
      obtain ⟨passed, start, follows⟩ := ih found
      refine ⟨1 + more + passed, by omega, ?_⟩
      rw [List.drop_append, List.drop_eq_nil_of_le beyond, List.nil_append, follows, List.drop_drop,
        Nat.add_assoc, Nat.add_comm 1, List.drop_succ_cons]

/-- From a token on that is not joined, the tokens of a text are those of its rest, moved to their
place. -/
theorem tokenize_drop (restarts : t.Restarts) (found : (t.tokenize codes)[i]? = some token)
    (unjoined : token.joined = false) :
    (t.tokenize (codes.drop token.start)).map (Token.shift token.start) =
      (t.tokenize codes).drop i := by
  rw [tokenize_eq restarts] at found
  obtain ⟨passed, start, follows⟩ := drop_lexemesFrom found unjoined
  rw [Nat.zero_add] at start
  rw [tokenize_eq restarts, tokenize_eq restarts, follows, ← start,
    List.map_flatten, ← lexemesFrom_shift, Nat.add_zero]

theorem labelled_shift (t : Tables) (distance : Nat) (tokens : List Token) :
    t.labelled (tokens.map (Token.shift distance)) =
      (t.labelled tokens).map fun p => (p.1.shift distance, p.2) := by
  induction tokens with
  | nil => rfl
  | cons token later ih =>
    rw [List.map_cons, labelled_cons, labelled_cons, ih]
    cases t.labelled later <;> rfl

theorem mem_labelled_shift (restarts : t.Restarts) (found : (t.tokenize codes)[i]? = some token)
    (unjoined : token.joined = false) {p : Token × String}
    (member : p ∈ t.labelled (t.tokenize (codes.drop token.start))) :
    (p.1.shift token.start, p.2) ∈ t.labelled (t.tokenize codes) := by
  have follows := tokenize_drop restarts found unjoined
  have apart : ∀ next ∈ ((t.tokenize codes).drop i).head?, next.joined = false := by
    intro next first
    rw [List.head?_drop, found] at first
    cases first
    exact unjoined
  rw [← List.take_append_drop i (t.tokenize codes), labelled_append apart, ← follows,
    labelled_shift]
  exact List.mem_append_right _ (List.mem_map_of_mem member)

end Tables

namespace Painter

theorem word?_shift (codes : List Nat) (distance : Nat) (token : Token) :
    word? codes.toArray (token.shift distance) = word? (codes.drop distance).toArray token := by
  have same : codes.extract (distance + token.start) (distance + token.stop) =
      (codes.drop distance).extract token.start token.stop := by
    rw [List.extract_eq_take_drop, List.extract_eq_take_drop, List.drop_drop, Nat.add_sub_add_left]
  rw [word?, word?, Array.toList_extract, Array.toList_extract]
  exact congrArg (fun codes => (codes.mapM char?).map String.ofList) same

theorem keywords_shift (k : KeywordSet) (codes : List Nat) (distance : Nat) (token : Token)
    (label : String) :
    keywords k codes.toArray (token.shift distance) label =
      keywords k (codes.drop distance).toArray token label := by
  rw [keywords, keywords, Token.length_shift, word?_shift]

end Painter

namespace Tables

variable {t : Tables} {codes : List Nat} {token : Token} {i : Nat}

theorem tagAt?_classify_drop (restarts : t.Restarts) (k : KeywordSet)
    (found : (t.tokenize codes)[i]? = some token) (unjoined : token.joined = false) (offset : Nat) :
    tagAt? (t.classify (.keywords k) (codes.drop token.start).toArray) offset =
      tagAt? (t.classify (.keywords k) codes.toArray) (token.start + offset) := by
  have size : (codes.drop token.start).length = codes.length - token.start := List.length_drop
  by_cases inside : offset < (codes.drop token.start).length
  · obtain ⟨other, scanned, after, before⟩ :=
      (t.tokenize_contiguous (codes.drop token.start)).exists_mem (Nat.zero_le offset) inside
    rw [← t.map_fst_labelled (t.tokenize (codes.drop token.start)), List.mem_map] at scanned
    obtain ⟨⟨other, label⟩, member, rfl⟩ := scanned
    have whole : tagAt? (t.classify (.keywords k) codes.toArray) (token.start + offset) =
        some (Painter.keywords k codes.toArray (other.shift token.start) label) :=
      tagAt?_classify (mem_labelled_shift restarts found unjoined member)
        (Nat.add_le_add_left after _)
        (Nat.add_lt_add_left before _)
    rw [whole, tagAt?_classify member after before, Painter.keywords_shift]
  · have outside := Nat.le_of_not_lt inside
    have beyond : codes.length ≤ token.start + offset := by omega
    rw [Text.tagAt?_eq_none_of_le (t.covers_classify _ _) outside,
      Text.tagAt?_eq_none_of_le (t.covers_classify _ _) beyond]

end Tables

/-- From a token on that is not joined, a text in a built-in language is scanned and painted as its
rest would be alone. Two texts with such a token before the same rest therefore agree on it. -/
theorem scan_resumes {β γ δ : Type} [Buffer β] [Buffer γ] [Buffer δ] (l : Language)
    (k : KeywordSet) (b : β) (other : δ) (rest : γ) (i : Nat) (token : Token) :
    let h : Highlighter := ⟨l.tables, k⟩
    (h.tokenize b)[i]? = some token → token.joined = false →
      (Buffer.cells rest).codes = (Buffer.cells b).codes.drop token.start →
      (h.tokenize rest).map (Token.shift token.start) = (h.tokenize b).drop i ∧
        (∀ offset, tagAt? (h.classify rest) offset = tagAt? (h.classify b) (token.start + offset)) ∧
        ∀ j next, (h.tokenize other)[j]? = some next → next.joined = false →
          (Buffer.cells other).codes.drop next.start = (Buffer.cells rest).codes →
          (h.tokenize rest).map (Token.shift next.start) = (h.tokenize other).drop j ∧
            ∀ offset, tagAt? (h.classify other) (next.start + offset) =
              tagAt? (h.classify b) (token.start + offset) := by
  intro h found unjoined same
  have tags (offset : Nat) : tagAt? (h.classify rest) offset =
      tagAt? (h.classify b) (token.start + offset) := by
    rw [Highlighter.classify, same]
    exact Tables.tagAt?_classify_drop l.restarts k found unjoined offset
  refine ⟨?_, tags, fun j next foundOther unjoinedOther sameOther => ⟨?_, fun offset => ?_⟩⟩
  · rw [Highlighter.tokenize, same]
    exact Tables.tokenize_drop l.restarts found unjoined
  · rw [Highlighter.tokenize, ← sameOther]
    exact Tables.tokenize_drop l.restarts foundOther unjoinedOther
  · rw [← tags, Highlighter.classify, Highlighter.classify, ← sameOther]
    exact (Tables.tagAt?_classify_drop l.restarts k foundOther unjoinedOther offset).symm

theorem scan_resumes_at_comment :
    let h : Highlighter := ⟨Language.c.tables, .ofList ["if"]⟩
    let word : Text.Passage := .ofString "if/**/"
    let literal : Text.Passage := .ofString "\"\"/**/"
    let comment : Text.Passage := .ofString "/**/"
    (h.tokenize word)[1]? = some ⟨2, 3, 11, false⟩ ∧
      (h.tokenize literal)[2]? = some ⟨2, 3, 11, false⟩ ∧
      (h.tokenize comment).map (Token.shift 2) = (h.tokenize word).drop 1 ∧
      (∀ offset, tagAt? (h.classify comment) offset = tagAt? (h.classify word) (2 + offset)) ∧
      (h.tokenize comment).map (Token.shift 2) = (h.tokenize literal).drop 2 := by
  intro h word literal comment
  have atWord : (h.tokenize word)[1]? = some ⟨2, 3, 11, false⟩ := by decide +kernel
  have atLiteral : (h.tokenize literal)[2]? = some ⟨2, 3, 11, false⟩ := by decide +kernel
  obtain ⟨tokens, tags, others⟩ := scan_resumes .c (.ofList ["if"]) word literal comment 1
    ⟨2, 3, 11, false⟩ atWord rfl (by decide)
  exact ⟨atWord, atLiteral, tokens, tags, (others 2 ⟨2, 3, 11, false⟩ atLiteral rfl (by decide)).1⟩

end SyntaxPaint

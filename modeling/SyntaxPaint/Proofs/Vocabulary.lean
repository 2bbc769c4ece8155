import Mathlib.Data.List.Basic
import SyntaxPaint.Proofs.Coverage
import SyntaxPaint.Proofs.Words
import SyntaxPaint.Scan.Highlighter

/-!
What a keyword does to a text. A word that is added to the keywords repaints the identifiers that
are spelled like it, and nothing else, and taking it away again undoes that. An identifier is
painted as a keyword exactly when it is spelled like one, if no keyword is too long to be one.
-/

namespace SyntaxPaint

open Text (Buffer tagAt?)

def Token.Spells (codes : List Nat) (token : Token) (word : String) : Prop :=
  codes.extract token.start token.stop = word.toList.map Char.toNat

instance (codes : List Nat) (token : Token) (word : String) : Decidable (token.Spells codes word) :=
  inferInstanceAs (Decidable (_ = _))

theorem Token.Spells.length_eq {codes : List Nat} {token : Token} {word : String}
    (spelled : token.Spells codes word) (inside : token.stop ≤ codes.length) :
    token.length = word.length := by
  have size : (codes.extract token.start token.stop).length = (word.toList.map Char.toNat).length :=
    congrArg List.length spelled
  rw [List.extract_eq_take_drop, List.length_take, List.length_drop, List.length_map,
    String.length_toList] at size
  rw [Token.length]
  omega

namespace KeywordSet

variable {k other : KeywordSet} {word : String}

theorem spells_word (k : KeywordSet) (word : String) :
    k.spells (word.toList.map Char.toNat) = k.contains word := by
  rw [Bool.eq_iff_iff, spells_iff]
  constructor
  · rintro ⟨same, listed, spelled⟩
    have chars : same.toList = word.toList :=
      List.map_injective_iff.2 (fun _ _ => Char.toNat_inj.1) spelled
    rwa [← String.toList_inj.1 chars]
  · intro listed
    exact ⟨word, listed, rfl⟩

theorem spells_insert_iff {text : List Nat} :
    (k.insert word).spells text = true ↔
      word.toList.map Char.toNat = text ∨ k.spells text = true := by
  simp only [spells_iff, contains_insert, Bool.or_eq_true, beq_iff_eq]
  constructor
  · rintro ⟨w, rfl | listed, spelled⟩
    · exact .inl spelled
    · exact .inr ⟨w, listed, spelled⟩
  · rintro (spelled | ⟨w, listed, spelled⟩)
    · exact ⟨word, .inl rfl, spelled⟩
    · exact ⟨w, .inr listed, spelled⟩

theorem contains_erase_insert (new : k.contains word = false) (w : String) :
    ((k.insert word).erase word).contains w = k.contains w := by
  rw [contains_erase, contains_insert]
  by_cases same : word = w
  · rw [← same, new, beq_self_eq_true]
    rfl
  · rw [beq_false_of_ne same]
    rfl

theorem spells_congr (same : ∀ w, k.contains w = other.contains w) (text : List Nat) :
    k.spells text = other.spells text := by
  rw [Bool.eq_iff_iff, spells_iff, spells_iff]
  simp only [same]

end KeywordSet

namespace Painter

variable {k other : KeywordSet} {codes : Array Nat} {token : Token} {word label : String}

theorem keywords_congr (same : ∀ w, k.contains w = other.contains w)
    (inside : token.stop ≤ codes.size) (label : String) :
    keywords k codes token label = keywords other codes token label := by
  by_cases identifier : label = "identifier"
  · rw [identifier, keywords_identifier inside, keywords_identifier inside]
    simp only [KeywordSet.spells_congr same]
  · rw [keywords_of_ne identifier, keywords_of_ne identifier]

theorem keywords_of_spells (k : KeywordSet) (inside : token.stop ≤ codes.size)
    (spelled : token.Spells codes.toList word) :
    keywords k codes token "identifier" =
      if k.contains word ∧ token.length ≤ 64 then "keyword" else "identifier" := by
  have size : token.length = word.length := spelled.length_eq inside
  rw [keywords_identifier inside]
  dsimp only
  rw [spelled, k.spells_word, List.length_map, String.length_toList, ← size]
  simp only [Bool.and_eq_true, decide_eq_true_eq]

theorem keywords_eq_keyword_iff (small : ∀ word, k.contains word = true → word.length ≤ 64)
    (inside : token.stop ≤ codes.size) :
    keywords k codes token "identifier" = "keyword" ↔
      ∃ word, k.contains word = true ∧ token.Spells codes.toList word := by
  constructor
  · intro painted
    rw [keywords_identifier inside] at painted
    by_cases spelled : k.spells (codes.toList.extract token.start token.stop) = true
    · obtain ⟨word, listed, same⟩ := KeywordSet.spells_iff.1 spelled
      exact ⟨word, listed, same.symm⟩
    · simp [spelled] at painted
  · rintro ⟨word, listed, spelled⟩
    have short : token.length ≤ 64 := by
      rw [spelled.length_eq inside]
      exact small word listed
    rw [keywords_of_spells k inside spelled, if_pos ⟨listed, short⟩]

theorem keywords_insert_of_not (inside : token.stop ≤ codes.size)
    (apart : ¬(label = "identifier" ∧ token.Spells codes.toList word ∧ token.length ≤ 64)) :
    keywords (k.insert word) codes token label = keywords k codes token label := by
  by_cases identifier : label = "identifier"
  · subst identifier
    by_cases spelled : token.Spells codes.toList word
    · have long : ¬token.length ≤ 64 := fun short => apart ⟨rfl, spelled, short⟩
      rw [keywords_of_spells _ inside spelled, keywords_of_spells _ inside spelled,
        if_neg fun both => long both.2, if_neg fun both => long both.2]
    · have same : (k.insert word).spells (codes.toList.extract token.start token.stop) =
          k.spells (codes.toList.extract token.start token.stop) := by
        rw [Bool.eq_iff_iff, KeywordSet.spells_insert_iff, or_iff_right]
        exact fun named => spelled named.symm
      rw [keywords_identifier inside, keywords_identifier inside]
      simp only [same]
  · rw [keywords_of_ne identifier, keywords_of_ne identifier]

end Painter

namespace Highlighter

variable {β : Type} [Buffer β] {h : Highlighter} {b : β}
variable {token : Token} {word label : String} {offset : Nat}

theorem tagAt?_classify (h : Highlighter) (b : β)
    (member : (token, label) ∈ h.tables.labelled (h.tokenize b)) (after : token.start ≤ offset)
    (before : offset < token.stop) :
    tagAt? (h.classify b) offset =
      some (Painter.keywords h.keywords (Buffer.cells b).codes.toArray token label) :=
  Tables.tagAt?_classify member after before

theorem tagAt?_classify_of_le (h : Highlighter) (b : β)
    (outside : (Buffer.cells b).codes.length ≤ offset) :
    tagAt? (h.classify b) offset = none :=
  Text.tagAt?_eq_none_of_le (h.tables.covers_classify _ _) outside

theorem stop_le_of_mem_labelled (member : (token, label) ∈ h.tables.labelled (h.tokenize b)) :
    token.stop ≤ (Buffer.cells b).codes.toArray.size :=
  (Tables.bounds_of_mem_labelled member).2

theorem tagAt?_addKeyword (new : h.keywords.contains word = false)
    (member : (token, "identifier") ∈ h.tables.labelled (h.tokenize b))
    (after : token.start ≤ offset) (before : offset < token.stop)
    (spelled : token.Spells (Buffer.cells b).codes word) (short : token.length ≤ 64) :
    tagAt? (h.classify b) offset = some "identifier" ∧
      tagAt? ((h.addKeyword word).classify b) offset = some "keyword" := by
  have inside := stop_le_of_mem_labelled member
  have added : (h.addKeyword word).keywords.contains word = true := by
    simp [addKeyword]
  have unlisted : ¬(h.keywords.contains word = true ∧ token.length ≤ 64) := by
    simp [new]
  rw [h.tagAt?_classify b member after before,
    (h.addKeyword word).tagAt?_classify b member after before,
    Painter.keywords_of_spells _ inside spelled, Painter.keywords_of_spells _ inside spelled,
    if_neg unlisted, if_pos ⟨added, short⟩]
  exact ⟨rfl, rfl⟩

theorem exists_of_tagAt?_ne
    (differ : tagAt? ((h.addKeyword word).classify b) offset ≠ tagAt? (h.classify b) offset) :
    ∃ token, (token, "identifier") ∈ h.tables.labelled (h.tokenize b) ∧ token.start ≤ offset ∧
      offset < token.stop ∧ token.Spells (Buffer.cells b).codes word ∧ token.length ≤ 64 := by
  by_cases inside : offset < (Buffer.cells b).codes.length
  · obtain ⟨token, label, member, after, before⟩ := h.tables.exists_mem_labelled inside
    by_cases named :
      label = "identifier" ∧ token.Spells (Buffer.cells b).codes word ∧ token.length ≤ 64
    · obtain ⟨rfl, spelled, short⟩ := named
      exact ⟨token, member, after, before, spelled, short⟩
    · refine absurd ?_ differ
      rw [h.tagAt?_classify b member after before,
        (h.addKeyword word).tagAt?_classify b member after before]
      exact congrArg some (Painter.keywords_insert_of_not (stop_le_of_mem_labelled member) named)
  · refine absurd ?_ differ
    have outside := Nat.le_of_not_lt inside
    rw [h.tagAt?_classify_of_le b outside, (h.addKeyword word).tagAt?_classify_of_le b outside]

theorem classify_removeKeyword_addKeyword (new : h.keywords.contains word = false) (b : β) :
    ((h.addKeyword word).removeKeyword word).classify b = h.classify b :=
  Tables.classify_congr rfl fun _ label member =>
    Painter.keywords_congr (KeywordSet.contains_erase_insert new)
      (Tables.bounds_of_mem_labelled member).2 label

end Highlighter

/-- A new keyword turns the identifiers that are spelled like it into keywords, if they are not too
long, and leaves the tags of all other characters as they are; taking it away again gives the
stretches from before. If no keyword is too long, then an identifier is painted as a keyword exactly
when it is spelled like one. -/
theorem keywords_repaint {β : Type} [Buffer β] (h : Highlighter) (b : β) :
    let codes := (Buffer.cells b).codes
    let labels := h.tables.labelled (h.tokenize b)
    (∀ word, h.keywords.contains word = false →
        (∀ offset, tagAt? ((h.addKeyword word).classify b) offset ≠ tagAt? (h.classify b) offset ↔
          ∃ token, (token, "identifier") ∈ labels ∧ token.start ≤ offset ∧ offset < token.stop ∧
            token.Spells codes word ∧ token.length ≤ 64) ∧
        (∀ offset, tagAt? ((h.addKeyword word).classify b) offset ≠ tagAt? (h.classify b) offset →
          tagAt? (h.classify b) offset = some "identifier" ∧
            tagAt? ((h.addKeyword word).classify b) offset = some "keyword") ∧
        ((h.addKeyword word).removeKeyword word).classify b = h.classify b) ∧
      ((∀ word, h.keywords.contains word = true → word.length ≤ 64) →
        ∀ token, (token, "identifier") ∈ labels →
          ∀ offset, token.start ≤ offset → offset < token.stop →
          (tagAt? (h.classify b) offset = some "keyword" ↔
            ∃ word, h.keywords.contains word = true ∧ token.Spells codes word)) := by
  intro codes labels
  constructor
  · intro word new
    refine ⟨fun offset => ⟨Highlighter.exists_of_tagAt?_ne, ?_⟩, fun offset differ => ?_,
      Highlighter.classify_removeKeyword_addKeyword new b⟩
    · rintro ⟨token, member, after, before, spelled, short⟩
      obtain ⟨left, right⟩ := Highlighter.tagAt?_addKeyword new member after before spelled short
      rw [left, right]
      decide
    · obtain ⟨token, member, after, before, spelled, short⟩ :=
        Highlighter.exists_of_tagAt?_ne differ
      exact Highlighter.tagAt?_addKeyword new member after before spelled short
  · intro small token member offset after before
    have inside := Highlighter.stop_le_of_mem_labelled member
    rw [h.tagAt?_classify b member after before, Option.some.injEq]
    exact Painter.keywords_eq_keyword_iff small inside

theorem keywords_repaint_name :
    let h : Highlighter := ⟨Language.c.tables, .ofList ["if"]⟩
    let b : Text.Passage := .ofString "λx if"
    tagAt? (h.classify b) 1 = some "identifier" ∧
      tagAt? ((h.addKeyword "λx").classify b) 1 = some "keyword" ∧
      ((h.addKeyword "λx").removeKeyword "λx").classify b = h.classify b ∧
      tagAt? (h.classify b) 3 = some "keyword" := by
  intro h b
  have new : h.keywords.contains "λx" = false := by decide +kernel
  have small (word : String) (listed : h.keywords.contains word = true) : word.length ≤ 64 := by
    have words : ∀ word ∈ ["if"], word.length ≤ 64 := by decide
    exact words word (List.contains_iff_mem.1 ((KeywordSet.contains_ofList _ _).symm.trans listed))
  have labels : h.tables.labelled (h.tokenize b) =
      [(⟨0, 2, 3, false⟩, "identifier"), (⟨2, 3, 2, false⟩, ""),
        (⟨3, 5, 3, false⟩, "identifier")] := by
    decide +kernel
  obtain ⟨edits, listed⟩ := keywords_repaint h b
  obtain ⟨differ, tags, restored⟩ := edits "λx" new
  have repainted := tags 1 ((differ 1).2
    ⟨⟨0, 2, 3, false⟩, by rw [labels]; decide, by decide, by decide, by decide +kernel, by decide⟩)
  have named := (listed small ⟨3, 5, 3, false⟩ (by rw [labels]; decide) 3 (by decide) (by decide)).2
    ⟨"if", by decide +kernel, by decide +kernel⟩
  exact ⟨repainted.1, repainted.2, restored, named⟩

end SyntaxPaint

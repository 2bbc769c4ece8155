import SyntaxPaint.Proofs.Lexicon
import SyntaxPaint.Scan.Painter

/-!
The keyword painter compares the characters of a token with the words of its set, one code with the
other.
-/

namespace SyntaxPaint

variable {k : KeywordSet} {text : List Nat}

theorem KeywordSet.spells_iff :
    k.spells text = true ↔ ∃ word, k.contains word = true ∧ word.toList.map Char.toNat = text := by
  simp only [spells, List.any_eq_true, beq_iff_eq, contains, toList, Std.TreeSet.mem_toList,
    Std.TreeSet.contains_iff_mem]

theorem KeywordSet.spells_eq_false_of_isEmpty (empty : k.isEmpty = true) (text : List Nat) :
    k.spells text = false := by
  rw [Bool.eq_false_iff, ne_eq, spells_iff]
  rintro ⟨word, listed, -⟩
  have none : k.words.contains word = false := Std.TreeSet.contains_of_isEmpty empty
  rw [contains, none] at listed
  contradiction

namespace Painter

theorem char?_eq_some_iff {code : Nat} {c : Char} : char? code = some c ↔ c.toNat = code := by
  unfold char?
  constructor
  · intro found
    split at found
    · next valid =>
      cases found
      rw [Char.ofNat, dif_pos valid]
      rfl
    · contradiction
  · rintro rfl
    have valid : c.toNat.isValidChar := c.valid
    rw [if_pos valid, Char.ofNat_toNat]

theorem mapM_char?_eq_some_iff {chars : List Char} :
    text.mapM char? = some chars ↔ chars.map Char.toNat = text := by
  induction text generalizing chars with
  | nil => simp [eq_comm]
  | cons code rest ih =>
    simp only [List.mapM_cons, Option.bind_eq_bind, Option.pure_def, Option.bind_eq_some_iff,
      Option.some.injEq, char?_eq_some_iff, ih]
    constructor
    · rintro ⟨c, rfl, chars, rfl, rfl⟩
      rfl
    · intro same
      obtain ⟨c, chars, rfl, head, tail⟩ := List.map_eq_cons_iff.1 same
      exact ⟨c, head, chars, tail, rfl⟩

theorem word?_eq_some_iff {codes : Array Nat} {token : Token} {word : String} :
    word? codes token = some word ↔
      word.toList.map Char.toNat = codes.toList.extract token.start token.stop := by
  rw [word?, Array.toList_extract, Option.map_eq_some_iff, ← mapM_char?_eq_some_iff]
  constructor
  · rintro ⟨chars, found, rfl⟩
    rw [String.toList_ofList]
    exact found
  · intro found
    exact ⟨word.toList, found, String.ofList_toList⟩

theorem exists_word?_iff {codes : Array Nat} {token : Token} :
    (∃ word, word? codes token = some word ∧ k.contains word = true) ↔
      k.spells (codes.toList.extract token.start token.stop) = true := by
  simp only [KeywordSet.spells_iff, word?_eq_some_iff, and_comm]

theorem keywords_of_ne {label : String} (other : label ≠ "identifier") (codes : Array Nat)
    (token : Token) :
    keywords k codes token label = label :=
  if_pos (.inl other)

theorem keywords_identifier {codes : Array Nat} {token : Token} (inside : token.stop ≤ codes.size) :
    keywords k codes token "identifier" =
      let text := codes.toList.extract token.start token.stop
      if k.spells text && decide (text.length ≤ 64) then "keyword" else "identifier" := by
  have size : (codes.toList.extract token.start token.stop).length = token.length := by
    rw [List.extract_eq_take_drop, List.length_take, List.length_drop, Array.length_toList,
      Token.length]
    omega
  dsimp only
  rw [size]
  unfold keywords
  by_cases long : longestKeyword < token.length
  · have short : ¬token.length ≤ 64 := Nat.not_le_of_lt long
    rw [if_pos (.inr (.inl long)), decide_eq_false short, Bool.and_false]
    rfl
  · have short : token.length ≤ 64 := Nat.le_of_not_lt long
    rw [decide_eq_true short, Bool.and_true]
    by_cases empty : k.isEmpty = true
    · rw [if_pos (.inr (.inr empty)), KeywordSet.spells_eq_false_of_isEmpty empty]
      rfl
    · have relevant : ¬("identifier" ≠ Tag.identifier.text ∨ longestKeyword < token.length ∨
          k.isEmpty = true) := by
        rintro (other | far | none)
        · exact other rfl
        · exact long far
        · exact empty none
      rw [if_neg relevant]
      cases found : word? codes token with
      | none =>
        have none : k.spells (codes.toList.extract token.start token.stop) ≠ true := by
          intro spelled
          obtain ⟨word, some, -⟩ := exists_word?_iff.2 spelled
          rw [found] at some
          contradiction
        rw [if_neg none]
      | some word =>
        have same : k.contains word = k.spells (codes.toList.extract token.start token.stop) := by
          rw [Bool.eq_iff_iff, ← exists_word?_iff]
          constructor
          · intro listed
            exact ⟨word, found, listed⟩
          · rintro ⟨other, some, listed⟩
            rw [found] at some
            cases some
            exact listed
        dsimp only
        rw [same]
        rfl

end Painter

end SyntaxPaint

import SyntaxPaint.Json.Text
import SyntaxPaint.Proofs.Taking

/-!
Texts between quotes. A character is written as an escape or as itself, and in both ways it is read
back: an escape stands for its character, and the bytes of any other character stand for themselves.
A text is then read back character by character, whatever characters it has.
-/

namespace SyntaxPaint.Json

open Text (Bytes)

def Plain (b : UInt8) : Prop :=
  0x20 ≤ b.toNat ∧ b.toNat ≠ '"'.toNat ∧ b.toNat ≠ '\\'.toNat

theorem toNat_ofNat_byte (b : UInt8) : (Char.ofNat b.toNat).toNat = b.toNat := by
  have small : b.toNat < 256 := b.toNat_lt
  have valid : b.toNat.isValidChar := Or.inl (by omega)
  rw [Char.ofNat, dif_pos valid]
  rfl

theorem toUInt8_ofNat (b : UInt8) : (Char.ofNat b.toNat).toUInt8 = b := by
  apply UInt8.toNat_inj.1
  have value : (Char.ofNat b.toNat).toUInt8.toNat = (Char.ofNat b.toNat).toNat % 2 ^ 8 :=
    UInt32.toNat_toUInt8 _
  rw [value, toNat_ofNat_byte, Nat.mod_eq_of_lt b.toNat_lt]

theorem forall_mem_utf8EncodeChar {c : Char} (beyond : 0x80 ≤ c.toNat) :
    ∀ b ∈ String.utf8EncodeChar c, 0x80 ≤ b.toNat := by
  have large : ¬c.val.toNat ≤ 0x7f := Nat.not_le_of_lt beyond
  unfold String.utf8EncodeChar
  dsimp only
  rw [if_neg large]
  repeat' split
  all_goals
    simp only [List.forall_mem_cons, UInt8.toNat_ofNat', List.not_mem_nil, false_implies,
      implies_true, and_true]
    omega

theorem plain_utf8 {c : Char} (quote : c ≠ '"') (backslash : c ≠ '\\') (visible : 0x20 ≤ c.toNat) :
    ∀ b ∈ utf8 [c], Plain b := by
  by_cases ascii : c.toNat < 0x80
  · have value := toNat_toUInt8 ascii
    have noQuote : c.toNat ≠ '"'.toNat := fun same => quote (Char.toNat_inj.1 same)
    have noBackslash : c.toNat ≠ '\\'.toNat := fun same => backslash (Char.toNat_inj.1 same)
    simpa [utf8_cons ascii, Plain, value] using ⟨visible, noQuote, noBackslash⟩
  · intro b listed
    have high : 0x80 ≤ b.toNat :=
      forall_mem_utf8EncodeChar (Nat.le_of_not_lt ascii) b (by simpa [utf8_eq_flatMap] using listed)
    refine ⟨by omega, ?_, ?_⟩
    all_goals
      intro same
      rw [same] at high
      exact absurd high (by decide)

namespace Reader

theorem takes_escape {letter c : Char} (ascii : letter.toNat < 0x80)
    (meant : unescape? letter = some c) (rest : List Char) :
    Takes escape (letter :: rest) c rest := by
  refine (takes_next ascii rest).bind ?_
  split
  · contradiction
  · next same =>
    cases same
    contradiction
  · next same =>
    cases same
    rw [meant]
    exact takes_pure c rest

theorem takes_unit {a b c d : Char} (ascii : ∀ x ∈ [a, b, c, d], x.toNat < 0x80) {n : Nat}
    (spelled : unit? ([a, b, c, d].map Char.toUInt8) = some n) (rest : List Char) :
    Takes unit (a :: b :: c :: d :: rest) n rest := by
  simp only [List.forall_mem_cons, List.not_mem_nil, false_implies, implies_true, and_true] at ascii
  obtain ⟨ha, hb, hc, hd⟩ := ascii
  unfold Takes unit
  simp only [utf8_cons ha, utf8_cons hb, utf8_cons hc, utf8_cons hd]
  simp only [List.map_cons, List.map_nil] at spelled
  rw [spelled]

theorem not_isFirstHalf_of_lt {n : Nat} (small : n < 0x20) : isFirstHalf n = false := by
  simp only [isFirstHalf, Bool.decide_and, Bool.and_eq_false_iff, decide_eq_false_iff_not]
  omega

theorem not_isSecondHalf_of_lt {n : Nat} (small : n < 0x20) : isSecondHalf n = false := by
  simp only [isSecondHalf, Bool.decide_and, Bool.and_eq_false_iff, decide_eq_false_iff_not]
  omega

theorem ascii_digitChar : ∀ d < 16, (Nat.digitChar d).toNat < 0x80 := by
  decide

/-- The number of a control character has two digits that are not always zero. -/
theorem unit?_control :
    ∀ n < 0x20,
      unit? (['0', '0', Nat.digitChar (n / 16), Nat.digitChar (n % 16)].map Char.toUInt8) =
        some n := by
  decide

theorem takes_escape_control {c : Char} (control : c.toNat < 0x20) (rest : List Char) :
    Takes escape
      ('u' :: '0' :: '0' :: Nat.digitChar (c.toNat / 16) :: Nat.digitChar (c.toNat % 16) :: rest)
      c rest := by
  have high := ascii_digitChar (c.toNat / 16) (by omega)
  have low := ascii_digitChar (c.toNat % 16) (by omega)
  have spelled := unit?_control c.toNat control
  refine (takes_next (by decide) _).bind ?_
  refine (takes_unit (by simp [high, low]) spelled rest).bind ?_
  simp only [not_isSecondHalf_of_lt control, not_isFirstHalf_of_lt control, Bool.false_eq_true,
    if_false]
  rw [Char.ofNat_toNat]
  exact takes_pure c rest

theorem spellChar_cases (c : Char) :
    (∃ letters, spellChar c = '\\' :: letters ∧ ∀ rest, Takes escape (letters ++ rest) c rest) ∨
      spellChar c = [c] ∧ ∀ b ∈ utf8 [c], Plain b := by
  unfold spellChar
  repeat' split
  all_goals try
    subst c
    exact .inl ⟨_, rfl, takes_escape (by decide) rfl⟩
  · next control => exact .inl ⟨_, rfl, takes_escape_control control⟩
  · next quote backslash _ _ _ _ _ visible =>
    exact .inr ⟨rfl, plain_utf8 quote backslash (Nat.le_of_not_lt visible)⟩

theorem takes_piece_escape {letters : List Char} {c : Char} {rest : List Char}
    (escaped : Takes escape letters c rest) (before : Bytes) :
    Takes (piece before) ('\\' :: letters) (.inl ((utf8 [c]).reverse ++ before)) rest := by
  refine (takes_peek (by decide) _).bind ?_
  refine (takes_skip (by decide) _).bind ?_
  refine escaped.bind ?_
  exact takes_pure _ rest

theorem piece_plain {b : UInt8} (plain : Plain b) (before rest : Bytes) :
    piece before (b :: rest) = .ok (.inl (b :: before), rest) := by
  obtain ⟨visible, quote, backslash⟩ := plain
  have value := toNat_ofNat_byte b
  have noQuote : Char.ofNat b.toNat ≠ '"' := fun same => quote (by rw [← same, value])
  have noBackslash : Char.ofNat b.toNat ≠ '\\' := fun same => backslash (by rw [← same, value])
  have shown : ¬Char.ofNat b.toNat < firstVisible := by
    rw [Char.lt_def, UInt32.lt_iff_toNat_lt]
    exact Nat.not_lt_of_le (Nat.le_trans visible (Nat.le_of_eq value.symm))
  have kept := toUInt8_ofNat b
  simp only [piece, bind, StateT.bind, Except.bind, peek, skip, List.head?_cons, Option.map_some,
    List.tail_cons, shown, kept, if_false]
  rfl

theorem iterate_piece_plain {bytes : Bytes} (plain : ∀ b ∈ bytes, Plain b) {before rest : Bytes}
    {result : String × Bytes} (others : iterate piece (bytes.reverse ++ before) rest = .ok result) :
    iterate piece before (bytes ++ rest) = .ok result := by
  induction bytes generalizing before with
  | nil => exact others
  | cons b bytes ih =>
    obtain ⟨here, below⟩ := List.forall_mem_cons.1 plain
    rw [List.reverse_cons, List.append_assoc] at others
    exact iterate_of_inl (piece_plain here before _) (Nat.lt_succ_self _) (ih below others)

theorem takes_spellChar (c : Char) {before : Bytes} {rest more : List Char} {s : String}
    (others : (iterate piece ((utf8 [c]).reverse ++ before)).Takes rest s more) :
    (iterate piece before).Takes (spellChar c ++ rest) s more := by
  rcases spellChar_cases c with ⟨letters, spelled, escaped⟩ | ⟨itself, plain⟩
  · rw [spelled]
    have step : Takes (piece before) ('\\' :: letters ++ rest)
        (.inl ((utf8 [c]).reverse ++ before)) rest :=
      takes_piece_escape (escaped rest) before
    exact step.iterate_next (List.cons_ne_nil _ _) others
  · rw [itself, Takes, utf8_append]
    exact iterate_piece_plain plain others

theorem takes_piece_quote (chars rest : List Char) :
    Takes (piece (utf8 chars).reverse) ('"' :: rest) (.inr (String.ofList chars)) rest := by
  have spelled : Takes (spelled (utf8 chars).reverse) ('"' :: rest) (String.ofList chars)
      ('"' :: rest) := by
    rw [Takes, Reader.spelled, List.reverse_reverse, utf8, Bytes.decode?_ofString]
  refine (takes_peek (by decide) _).bind ?_
  refine spelled.bind ?_
  exact (takes_skip (by decide) rest).bind (takes_pure _ rest)

theorem takes_pieces (before chars rest : List Char) :
    (iterate piece (utf8 before).reverse).Takes (chars.flatMap spellChar ++ '"' :: rest)
      (String.ofList (before ++ chars)) rest := by
  induction chars generalizing before with
  | nil =>
    rw [List.append_nil]
    exact (takes_piece_quote before rest).iterate_last
  | cons c chars ih =>
    have later := ih (before ++ [c])
    rw [utf8_append, List.reverse_append, List.append_assoc] at later
    rw [List.flatMap_cons, List.append_assoc]
    exact takes_spellChar c later

theorem takes_text (s : String) (rest : List Char) :
    text.Takes (s.toList.flatMap spellChar ++ '"' :: rest) s rest := by
  have pieces := takes_pieces [] s.toList rest
  rwa [List.nil_append, String.ofList_toList] at pieces

end Reader

end SyntaxPaint.Json

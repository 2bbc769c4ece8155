import SyntaxPaint.Json.Value
import SyntaxPaint.Proofs.SpelledTexts

/-!
Values that are written on one line: texts, numbers and truth values. Each is read back from what is
written for it, after white space and before the comma or the end of its line (`Reader.Spells`).
-/

namespace SyntaxPaint.Json

/-- What follows a value: a comma, or the end of its line. -/
def Ends (more : List Char) : Prop :=
  ∃ c rest, more = c :: rest ∧ (c = ',' ∨ c = '\n')

theorem toNat_of_isDigit {c : Char} (digit : c.isDigit = true) :
    '0'.toNat ≤ c.toNat ∧ c.toNat ≤ '9'.toNat := by
  simpa [Char.isDigit, UInt32.le_iff_toNat_le] using digit

theorem ascii_of_isDigit {c : Char} (digit : c.isDigit = true) : c.toNat < 0x80 :=
  Nat.lt_of_le_of_lt (toNat_of_isDigit digit).2 (by decide)

theorem printable_of_isDigit {c : Char} (digit : c.isDigit = true) : Printable c :=
  ⟨Nat.lt_of_lt_of_le (by decide) (toNat_of_isDigit digit).1, ascii_of_isDigit digit⟩

theorem isDigit_natural (n : Nat) : ∀ c ∈ Printer.natural n, c.isDigit = true := fun _ listed =>
  Nat.isDigit_of_mem_toDigits (by decide) (by decide) listed

theorem exists_natural_eq_cons (n : Nat) :
    ∃ c others, Printer.natural n = c :: others ∧ c.isDigit = true := by
  obtain ⟨c, others, written⟩ :=
    List.exists_cons_of_ne_nil (l := Printer.natural n) Nat.toDigits_ne_nil
  exact ⟨c, others, written, isDigit_natural n c (written ▸ List.mem_cons_self)⟩

theorem digit?_toUInt8 {c : Char} (digit : c.isDigit = true) :
    digit? c.toUInt8 = some (c.toNat - '0'.toNat) := by
  have value := toNat_toUInt8 (ascii_of_isDigit digit)
  have inside : '0'.toUInt8 ≤ c.toUInt8 ∧ c.toUInt8 ≤ '9'.toUInt8 := by
    rw [UInt8.le_iff_toNat_le, UInt8.le_iff_toNat_le, value]
    exact toNat_of_isDigit digit
  rw [digit?, if_pos inside, value]
  rfl

theorem Ends.exists_utf8 {more : List Char} (ends : Ends more) :
    ∃ b rest, utf8 more = b :: rest ∧ digit? b = none := by
  obtain ⟨c, rest, rfl, rfl | rfl⟩ := ends
  all_goals exact ⟨_, _, utf8_cons (by decide) rest, by decide⟩

theorem le_ofDigitChars (chars : List Char) (n : Nat) : n ≤ Nat.ofDigitChars 10 chars n := by
  induction chars generalizing n with
  | nil => exact Nat.le_of_eq Nat.ofDigitChars_nil.symm
  | cons c chars ih =>
    rw [Nat.ofDigitChars_cons]
    exact Nat.le_trans (by omega) (ih _)

theorem appendDigits_utf8 {chars : List Char} (digits : ∀ c ∈ chars, c.isDigit = true) {n : Nat}
    (fits : Nat.ofDigitChars 10 chars n ≤ maxNatural) (count : Nat) {more : List Char}
    (ends : Ends more) :
    appendDigits n count (utf8 (chars ++ more)) =
      ((Nat.ofDigitChars 10 chars n, count + chars.length), utf8 more) := by
  induction chars generalizing n count with
  | nil =>
    obtain ⟨b, rest, written, other⟩ := ends.exists_utf8
    rw [List.nil_append, written, appendDigits, other]
    rfl
  | cons c chars ih =>
    obtain ⟨here, below⟩ := List.forall_mem_cons.1 digits
    have value : 10 * n + (c.toNat - '0'.toNat) = n * 10 + (c.toNat - '0'.toNat) := by omega
    rw [Nat.ofDigitChars_cons, value] at fits ⊢
    have small := Nat.le_trans (le_ofDigitChars chars _) fits
    rw [List.cons_append, utf8_cons (ascii_of_isDigit here), appendDigits, digit?_toUInt8 here]
    dsimp only
    rw [if_pos small, ih below fits, List.length_cons, Nat.add_assoc, Nat.add_comm 1]

theorem eq_nil_of_toDigits_eq_cons_zero {n : Nat} {others : List Char}
    (written : Nat.toDigits 10 n = '0' :: others) : others = [] := by
  induction n using Nat.strongRecOn generalizing others with
  | ind n ih =>
    rw [Nat.toDigits_eq_if (by decide)] at written
    split at written
    · exact (List.cons.inj written).2.symm
    · next large =>
      cases front : Nat.toDigits 10 (n / 10) with
      | nil => exact absurd front Nat.toDigits_ne_nil
      | cons c chars =>
        rw [front, List.cons_append] at written
        obtain ⟨rfl, -⟩ := List.cons.inj written
        have alone : chars = [] := ih (n / 10) (by omega) front
        have value := Nat.ofDigitChars_ten_toDigits (n := n / 10)
        rw [front, alone, Nat.ofDigitChars_cons, Nat.ofDigitChars_nil] at value
        have zero : n / 10 = 0 := value.symm
        omega

namespace Reader

theorem takes_digit {c : Char} (digit : c.isDigit = true) (rest : List Char) :
    Takes Reader.digit (c :: rest) (c.toNat - '0'.toNat) rest := by
  rw [Takes, utf8_cons (ascii_of_isDigit digit), Reader.digit, digit?_toUInt8 digit]

theorem takes_digitNext {more : List Char} (ends : Ends more) :
    Takes digitNext more false more := by
  obtain ⟨b, rest, written, other⟩ := ends.exists_utf8
  rw [Takes, written, digitNext]
  simp [isDigit, other]

theorem takes_skipDigits {more : List Char} (ends : Ends more) : Takes skipDigits more 0 more := by
  obtain ⟨b, rest, written, other⟩ := ends.exists_utf8
  rw [Takes, written, skipDigits]
  simp [isDigit, other]

theorem whole_natural (n : Nat) : whole false n 0 = pure (.integer n) := by
  simp [whole]

theorem takes_rest_of_number (n : Nat) {more : List Char} (ends : Ends more) :
    Takes
      (do
        let count ← skipDigits
        match ← peek with
        | some '.' => fraction false n count
        | some 'e' | some 'E' => exponent false n count
        | _ => whole false n count)
      more (.integer n) more := by
  refine (takes_skipDigits ends).bind ?_
  obtain ⟨c, rest, rfl, rfl | rfl⟩ := ends
  all_goals
    refine (takes_peek (by decide) rest).bind ?_
    exact whole_natural n ▸ takes_pure _ _

theorem takes_number {n : Nat} (fits : n ≤ maxNatural) {more : List Char} (ends : Ends more) :
    Takes number (Printer.natural n ++ more) (.integer n) more := by
  have digits := isDigit_natural n
  have value : Nat.ofDigitChars 10 (Printer.natural n) 0 = n := Nat.ofDigitChars_ten_toDigits
  obtain ⟨c, others, written, here⟩ := exists_natural_eq_cons n
  rw [written] at digits value ⊢
  rw [Nat.ofDigitChars_cons, Nat.mul_zero, Nat.zero_add] at value
  have below := (List.forall_mem_cons.1 digits).2
  have unsigned : some c ≠ some '-' := by
    rintro ⟨⟩
    contradiction
  have later : Takes (fun rest => .ok (appendDigits (c.toNat - '0'.toNat) 0 rest)) (others ++ more)
      (n, 0 + others.length) more := by
    rw [Takes, appendDigits_utf8 below (value.symm ▸ fits) 0 ends, value]
  refine (takes_peek (ascii_of_isDigit here) _).bind ?_
  simp only [unsigned, if_false, decide_false]
  refine (takes_digit here _).bind ?_
  -- A zero in front has to be the only digit; the reader looks for another one before it goes on.
  split
  · next zero =>
    have alone : others = [] := by
      have low := (toNat_of_isDigit here).1
      have first : c = '0' := Char.toNat_inj.1 (by omega)
      exact eq_nil_of_toDigits_eq_cons_zero (first ▸ written)
    subst alone
    refine (takes_digitNext ends).bind ?_
    simp only [Bool.false_eq_true, if_false]
    refine later.bind ?_
    exact takes_rest_of_number n ends
  · refine later.bind ?_
    exact takes_rest_of_number n ends

/-- A reader takes a line for a value, after white space and before what a value ends before. -/
structure Spells {α : Type} (r : Reader α) (line : List Char) (a : α) : Prop where
  begins : ∃ c rest, line = c :: rest ∧ Printable c ∧ c ≠ ']'
  whole : ∀ blanks, (∀ b ∈ blanks, Blank b) → ∀ more, Ends more →
    r.Takes (blanks ++ (line ++ more)) a more

theorem Spells.bind {α β : Type} {r : Reader α} {next : α → Reader β} {line : List Char}
    {a : α} {b : β} (first : r.Spells line a) (second : ∀ more, (next a).Takes more b more) :
    (r >>= next).Spells line b where
  begins := first.begins
  whole blanks blank more ends := (first.whole blanks blank more ends).bind (second more)

theorem spells_seen_text (s : String) : seen.Spells (spell s) (.text s) where
  begins := ⟨'"', _, rfl, by decide⟩
  whole blanks blank more _ := by
    rw [spell, List.cons_append, List.append_assoc, List.singleton_append]
    refine (takes_token_after blank (by decide) _).bind ?_
    refine (takes_skip (by decide) _).bind ?_
    exact (takes_text s more).bind (takes_pure _ more)

theorem spells_seen_bool (b : Bool) : seen.Spells (Printer.bool b) (.bool b) where
  begins := by cases b <;> exact ⟨_, _, rfl, by decide⟩
  whole blanks blank more _ := by
    cases b
    all_goals
      refine (takes_token_after blank (by decide) _).bind ?_
      exact (takes_word (by simp) (by decide) more).bind (takes_pure _ more)

theorem spells_seen_natural {n : Nat} (fits : n ≤ maxNatural) :
    seen.Spells (Printer.natural n) (.integer n) where
  begins := by
    obtain ⟨c, others, written, digit⟩ := exists_natural_eq_cons n
    exact ⟨c, others, written, printable_of_isDigit digit, fun same => by cases same; contradiction⟩
  whole blanks blank more ends := by
    have taken := takes_number fits ends
    obtain ⟨c, others, written, digit⟩ := exists_natural_eq_cons n
    rw [written, List.cons_append] at taken ⊢
    refine (takes_token_after blank (printable_of_isDigit digit) _).bind ?_
    have inside : c = '-' ∨ '0' ≤ c ∧ c ≤ '9' := .inr (toNat_of_isDigit digit)
    -- No word, text, array or object begins with a digit.
    split
    case h_7 same =>
      cases same
      rw [if_pos inside]
      exact taken
    case h_8 => contradiction
    all_goals
      next same =>
        cases same
        contradiction

theorem spells_asText (s : String) : asText.Spells (spell s) s :=
  (spells_seen_text s).bind (takes_pure s)

theorem spells_asBool (b : Bool) : asBool.Spells (Printer.bool b) b :=
  (spells_seen_bool b).bind (takes_pure b)

theorem spells_asWord (n : Word) : asWord.Spells (Printer.natural n) n := by
  have fits : n.val ≤ maxNatural := Nat.le_trans (Nat.le_of_lt n.property) (by decide)
  refine (spells_seen_natural fits).bind fun more => ?_
  simpa [n.property] using takes_pure n more

end Reader

end SyntaxPaint.Json

import SyntaxPaint.Json.Reader
import SyntaxPaint.Json.Printer

/-!
Reading of written characters. A reader takes the first characters of a text for a value and leaves
the others (`Reader.Takes`). One rule for each reader says what it takes; a reader after another
takes the characters of both.
-/

namespace SyntaxPaint.Json

open Text (Bytes)

def utf8 (chars : List Char) : Bytes :=
  Bytes.ofString (String.ofList chars)

theorem utf8_eq_flatMap (chars : List Char) : utf8 chars = chars.flatMap String.utf8EncodeChar := by
  simp [utf8, Bytes.ofString, List.utf8Encode]

@[simp] theorem utf8_nil : utf8 [] = [] := by
  simp [utf8_eq_flatMap]

@[simp] theorem utf8_append (chars others : List Char) :
    utf8 (chars ++ others) = utf8 chars ++ utf8 others := by
  simp [utf8_eq_flatMap]

def Printable (c : Char) : Prop :=
  0x20 < c.toNat ∧ c.toNat < 0x80

instance (c : Char) : Decidable (Printable c) :=
  inferInstanceAs (Decidable (_ ∧ _))

def Blank (c : Char) : Prop :=
  c = ' ' ∨ c = '\n'

theorem blank_nil : ∀ b ∈ ([] : List Char), Blank b := by
  simp

theorem toNat_toUInt8 {c : Char} (ascii : c.toNat < 0x80) : c.toUInt8.toNat = c.toNat := by
  have small : c.toNat < 2 ^ 8 := Nat.lt_trans ascii (by decide)
  exact (UInt32.toNat_toUInt8 c.val).trans (Nat.mod_eq_of_lt small)

theorem ofNat_toUInt8 {c : Char} (ascii : c.toNat < 0x80) : Char.ofNat c.toUInt8.toNat = c := by
  rw [toNat_toUInt8 ascii, Char.ofNat_toNat]

theorem utf8_cons {c : Char} (ascii : c.toNat < 0x80) (rest : List Char) :
    utf8 (c :: rest) = c.toUInt8 :: utf8 rest := by
  have size : c.utf8Size = 1 := Char.utf8Size_eq_one_iff.2 (by
    rw [UInt32.le_iff_toNat_le]
    exact Nat.le_of_lt_succ ascii)
  rw [utf8_eq_flatMap, List.flatMap_cons,
    String.utf8EncodeChar_eq_singleton size, ← utf8_eq_flatMap]
  rfl

namespace Reader

variable {α β σ : Type}

/-- A reader takes the first characters of a text for a value, and leaves `more`. -/
def Takes (r : Reader α) (chars : List Char) (a : α) (more : List Char) : Prop :=
  r (utf8 chars) = .ok (a, utf8 more)

theorem takes_pure (a : α) (chars : List Char) : Takes (pure a) chars a chars := rfl

theorem Takes.bind {r : Reader α} {next : α → Reader β} {chars middle more : List Char}
    {a : α} {b : β} (first : r.Takes chars a middle) (second : (next a).Takes middle b more) :
    Takes (r >>= next) chars b more := by
  show (r (utf8 chars) >>= fun p => next p.1 p.2) = _
  rw [first]
  exact second

theorem takes_peek {c : Char} (ascii : c.toNat < 0x80) (rest : List Char) :
    Takes peek (c :: rest) (some c) (c :: rest) := by
  unfold Takes peek
  rw [utf8_cons ascii, List.head?_cons, Option.map_some, ofNat_toUInt8 ascii]

theorem takes_skip {c : Char} (ascii : c.toNat < 0x80) (rest : List Char) :
    Takes skip (c :: rest) () rest := by
  unfold Takes skip
  rw [utf8_cons ascii, List.tail_cons]

theorem takes_next {c : Char} (ascii : c.toNat < 0x80) (rest : List Char) :
    Takes next (c :: rest) (some c) rest :=
  (takes_peek ascii rest).bind ((takes_skip ascii rest).bind (takes_pure _ _))

theorem toNat_le_of_isBlank {b : UInt8} (blank : isBlank b = true) : b.toNat ≤ 0x20 := by
  simp only [isBlank, decide_eq_true_eq] at blank
  rcases blank with rfl | rfl | rfl | rfl
  all_goals decide

theorem not_isBlank_of_printable {c : Char} (printable : Printable c) :
    ¬isBlank c.toUInt8 = true := by
  intro blank
  have low := toNat_le_of_isBlank blank
  rw [toNat_toUInt8 printable.2] at low
  exact Nat.not_le_of_lt printable.1 low

theorem takes_skipBlanks {blanks : List Char} (blank : ∀ b ∈ blanks, Blank b) {c : Char}
    (printable : Printable c) (rest : List Char) :
    Takes skipBlanks (blanks ++ c :: rest) () (c :: rest) := by
  unfold Takes skipBlanks
  have dropped : (utf8 (blanks ++ c :: rest)).dropWhile isBlank = utf8 (c :: rest) := by
    induction blanks with
    | nil =>
      rw [List.nil_append, utf8_cons printable.2,
        List.dropWhile_cons_of_neg (not_isBlank_of_printable printable)]
    | cons b blanks ih =>
      obtain ⟨here, below⟩ := List.forall_mem_cons.1 blank
      rw [List.cons_append]
      rcases here with rfl | rfl
      all_goals rw [utf8_cons (by decide), List.dropWhile_cons_of_pos (by decide)]; exact ih below
  rw [dropped]

theorem takes_token_after {blanks : List Char} (blank : ∀ b ∈ blanks, Blank b) {c : Char}
    (printable : Printable c) (rest : List Char) :
    Takes token (blanks ++ c :: rest) (some c) (c :: rest) :=
  (takes_skipBlanks blank printable rest).bind (takes_peek printable.2 rest)

theorem takes_token {c : Char} (printable : Printable c) (rest : List Char) :
    Takes token (c :: rest) (some c) (c :: rest) :=
  takes_token_after blank_nil printable rest

theorem takes_token_nil : Takes token [] none [] := by
  simp [Takes, token, skipBlanks, peek, bind, StateT.bind, Except.bind]

theorem takes_letters {letters : List Char} (ascii : ∀ c ∈ letters, c.toNat < 0x80)
    (rest : List Char) :
    Takes (Reader.letters letters) (letters ++ rest) () rest := by
  induction letters with
  | nil => exact takes_pure () rest
  | cons c letters ih =>
    obtain ⟨here, below⟩ := List.forall_mem_cons.1 ascii
    refine (takes_next here _).bind ?_
    dsimp only
    rw [if_pos rfl]
    exact ih below

theorem takes_word {letters : List Char} (ascii : ∀ c ∈ letters, c.toNat < 0x80) {first : Char}
    (here : first.toNat < 0x80) (rest : List Char) :
    Takes (word letters) (first :: (letters ++ rest)) () rest :=
  (takes_skip here _).bind (takes_letters ascii rest)

theorem takes_colon (rest : List Char) : Takes colon (':' :: rest) () rest :=
  (takes_token (by decide) rest).bind (takes_skip (by decide) rest)

theorem Takes.iterate_last {step : σ → Reader (σ ⊕ α)} {s : σ} {chars more : List Char} {a : α}
    (last : (step s).Takes chars (.inr a) more) : (iterate step s).Takes chars a more :=
  iterate_of_inr last

theorem Takes.iterate_next {step : σ → Reader (σ ⊕ α)} {s s' : σ}
    {part rest more : List Char} {a : α} (first : (step s).Takes (part ++ rest) (.inl s') rest)
    (some : part ≠ []) (others : (iterate step s').Takes rest a more) :
    (iterate step s).Takes (part ++ rest) a more := by
  refine iterate_of_inl first ?_ others
  obtain ⟨c, chars, rfl⟩ := List.exists_cons_of_ne_nil some
  have written : 0 < (utf8 (c :: chars)).length := by
    simp [utf8_eq_flatMap, Nat.add_pos_left (Char.utf8Size_pos c)]
  rw [utf8_append, List.length_append]
  exact Nat.lt_add_of_pos_left written

theorem takes_finish : Takes finish [] () [] :=
  takes_token_nil.bind (takes_pure () [])

theorem Takes.document {r : Reader α} {chars : List Char} {a : α} (whole : r.Takes chars a []) :
    r.document (utf8 chars) = .ok a := by
  have taken : Takes (do let a ← r; finish; return a : Reader α) chars a [] :=
    whole.bind (takes_finish.bind (takes_pure a []))
  unfold Reader.document
  rw [taken]

end Reader

end SyntaxPaint.Json

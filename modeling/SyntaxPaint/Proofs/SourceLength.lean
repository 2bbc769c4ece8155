import Mathlib.Data.Bool.AllAny
import Mathlib.Tactic.SplitIfs
import SyntaxPaint.Proofs.Drawings
import SyntaxPaint.Random.SplitMix

/-!
How long source specimens are. Each kind of piece has a least and a greatest length in bytes; no
piece is empty, so that the filling of a text comes to an end, and none is longer than a block
comment can be, so that the text ends soon after it has reached its target.
-/

namespace SyntaxPaint.Specimen

open SyntaxPaint.Random SyntaxPaint.Random.Drawing

def Sized (least most : Nat) (text : List Char) : Prop :=
  least ≤ byteCount text ∧ byteCount text ≤ most

instance (least most : Nat) : DecidablePred (Sized least most) :=
  fun text => inferInstanceAs (Decidable (least ≤ byteCount text ∧ byteCount text ≤ most))

namespace Sized

variable {least most low high : Nat} {text more : List Char}

theorem widen (sized : Sized least most text) (low_le : low ≤ least) (le_high : most ≤ high) :
    Sized low high text :=
  ⟨Nat.le_trans low_le sized.1, Nat.le_trans sized.2 le_high⟩

theorem append (first : Sized least most text) (second : Sized low high more) :
    Sized (least + low) (most + high) (text ++ more) := by
  simp only [Sized, byteCount_append] at first second ⊢
  omega

theorem optional (sized : Sized least most text) (present : Bool) :
    Sized 0 most (if present then text else []) := by
  cases present with
  | false => exact ⟨Nat.le_refl 0, Nat.zero_le most⟩
  | true => exact sized.widen (Nat.zero_le least) (Nat.le_refl most)

theorem flatten {pieces : List (List Char)} (each : ∀ piece ∈ pieces, Sized least most piece) :
    Sized (pieces.length * least) (pieces.length * most) pieces.flatten := by
  induction pieces with
  | nil => simp [Sized]
  | cons piece pieces ih =>
    obtain ⟨here, others⟩ := List.forall_mem_cons.1 each
    rw [List.length_cons, Nat.succ_mul, Nat.succ_mul, Nat.add_comm, Nat.add_comm _ most]
    exact here.append (ih others)

end Sized

theorem utf8ByteSize_ofList (chars : List Char) :
    (String.ofList chars).utf8ByteSize = byteCount chars := by
  induction chars with
  | nil => rfl
  | cons c chars ih =>
    have split : String.ofList (c :: chars) = String.singleton c ++ String.ofList chars := by
      rw [String.singleton_eq_ofList, ← String.ofList_append]
      rfl
    rw [split, String.utf8ByteSize_append, String.utf8ByteSize_singleton, ih, byteCount_cons]

theorem byteCount_flatten_reverse (pieces : List (List Char)) :
    byteCount pieces.reverse.flatten = byteCount pieces.flatten := by
  induction pieces with
  | nil => rfl
  | cons piece pieces ih => simp [ih, Nat.add_comm]

section Kinds

variable {σ : Type} {least most low high : Nat}

theorem yields_widen {piece : Drawing σ (List Char)} (yields : Yields piece (Sized least most))
    (low_le : low ≤ least) (le_high : most ≤ high) : Yields piece (Sized low high) :=
  yields.mono fun _ sized => sized.widen low_le le_high

theorem yields_times_sized {piece : Drawing σ (List Char)} (each : Yields piece (Sized least most))
    (count : Nat) : Yields (times count piece) (Sized (count * least) (count * most)) := by
  refine (yields_times each count).mono ?_
  rintro _ ⟨pieces, rfl, all, rfl⟩
  exact .flatten all

variable [Source σ] [LawfulSource σ]

theorem yields_oneOf_sized {chars : String} (nonempty : chars.toList ≠ [])
    (sizes : chars.toList.all fun c => Sized least most [c]) :
    Yields (oneOf chars : Drawing σ (List Char)) (Sized least most) := by
  refine (yields_oneOf nonempty).mono ?_
  rintro _ ⟨c, among, rfl⟩
  exact List.all_iff_forall_prop.1 sizes c among

theorem yields_times_oneOf {chars : String} (nonempty : chars.toList ≠ [])
    (ascii : chars.toList.all fun c => Sized 1 1 [c]) {count : Nat} (least_le : least ≤ count)
    (le_most : count ≤ most) :
    Yields (times count (oneOf chars) : Drawing σ (List Char)) (Sized least most) :=
  yields_widen (yields_times_sized (yields_oneOf_sized nonempty ascii) count) (by omega) (by omega)

theorem yields_letter : Yields (letter : Drawing σ (List Char)) (Sized 1 1) :=
  yields_oneOf_sized (by decide) (by decide)

theorem yields_digit : Yields (digit : Drawing σ (List Char)) (Sized 1 1) :=
  yields_oneOf_sized (by decide) (by decide)

theorem yields_identifier : Yields (identifier : Drawing σ (List Char)) (Sized 1 10) := by
  refine (yields_between (by decide)).bind fun length bounds => ?_
  refine yields_letter.bind fun first one => ?_
  refine (yields_times_sized (yields_ite_chance yields_letter yields_digit) (length - 1)).map ?_
  exact fun rest others => (one.append others).widen (by omega) (by omega)

theorem yields_number : Yields (number : Drawing σ (List Char)) (Sized 1 6) :=
  (yields_between (by decide)).bind fun _ bounds =>
    yields_times_oneOf (by decide) (by decide) bounds.1 bounds.2

theorem yields_blanks : Yields (blanks : Drawing σ (List Char)) (Sized 1 4) :=
  (yields_between (by decide)).bind fun _ bounds =>
    yields_times_oneOf (by decide) (by decide) bounds.1 bounds.2

theorem yields_literal : Yields (literal : Drawing σ (List Char)) (Sized 1 14) := by
  refine (yields_chance .fourFifths).bind fun double _ => ?_
  refine (yields_below (by decide)).bind fun length bound => ?_
  refine (yields_times_oneOf (by decide) (by decide) (Nat.zero_le _) (Nat.le_of_lt_succ bound)).bind
    fun body inner => ?_
  refine (yields_chance .nineTenths).map fun closed _ => ?_
  have quote : Sized 1 1 [if double then '"' else '\''] := by cases double <;> decide
  exact (quote.append inner).append (quote.optional closed)

theorem yields_lineComment : Yields (lineComment : Drawing σ (List Char)) (Sized 3 27) := by
  refine (yields_below (by decide)).bind fun length bound => ?_
  refine (yields_times_oneOf (by decide) (by decide) (Nat.zero_le _) (Nat.le_of_lt_succ bound)).map
    fun body inner => ?_
  have start : Sized 2 2 ['/', '/'] := by decide
  have lineBreak : Sized 1 1 ['\n'] := by decide
  exact (start.append inner).append lineBreak

theorem yields_commentPart : Yields (commentPart : Drawing σ (List Char)) (Sized 1 7) := by
  refine (yields_between (by decide)).bind fun length bounds => ?_
  refine (yields_times_oneOf (by decide) (by decide) bounds.1 bounds.2).bind fun words inner => ?_
  have star : Sized 1 1 ['*'] := by decide
  exact (yields_chance .fifth).map fun starred _ => inner.append (star.optional starred)

/-- The longest of all pieces: seven bytes for each of six parts, and four more. -/
theorem yields_blockComment : Yields (blockComment : Drawing σ (List Char)) (Sized 2 46) := by
  refine (yields_below (by decide)).bind fun count bound => ?_
  refine (yields_times_sized yields_commentPart count).bind fun body inner => ?_
  refine (yields_chance .nineTenths).map fun closed _ => ?_
  have start : Sized 2 2 ['/', '*'] := by decide
  have stop : Sized 2 2 ['*', '/'] := by decide
  exact ((start.append inner).append (stop.optional closed)).widen (by omega) (by omega)

theorem yields_beyondAscii : Yields (beyondAscii : Drawing σ (List Char)) (Sized 2 3) :=
  yields_oneOf_sized (by decide) (by decide)

theorem yields_punctuation : Yields (punctuation : Drawing σ (List Char)) (Sized 1 3) := by
  have sizes : ∀ operator ∈ operators, Sized 1 2 operator.toList := by decide
  refine (yields_pick (by decide)).bind fun operator among => ?_
  have space : Sized 1 1 [' '] := by decide
  exact (yields_chance .quarter).map fun spaced _ =>
    (sizes operator among).append (space.optional spaced)

theorem yields_piece : Yields (piece : Drawing σ (List Char)) (Sized 1 46) := by
  refine (yields_below (by decide)).bind fun roll bound => ?_
  split_ifs
  · exact yields_widen yields_identifier (by decide) (by decide)
  · exact yields_widen yields_number (by decide) (by decide)
  · exact yields_widen yields_blanks (by decide) (by decide)
  · exact yields_widen yields_literal (by decide) (by decide)
  · exact yields_widen yields_lineComment (by decide) (by decide)
  · exact yields_widen yields_blockComment (by decide) (by decide)
  · exact yields_widen yields_beyondAscii (by decide) (by decide)
  · exact yields_widen yields_punctuation (by decide) (by decide)

end Kinds

section Filling

variable {σ : Type} [Source σ] {target bytes : Nat}

theorem fill_of_le {rounds more : Nat} (le : rounds ≤ more) {pieces : List (List Char)} {s : σ}
    {filled : List (List Char) × σ} (made : fill target rounds bytes pieces s = some filled) :
    fill target more bytes pieces s = some filled := by
  induction rounds generalizing more bytes pieces s with
  | zero =>
    by_cases short : bytes < target
    · simp [fill, short] at made
    · cases more <;> simpa [fill, short] using made
  | succ rounds ih =>
    obtain ⟨more, rfl⟩ := Nat.exists_eq_add_of_le' (Nat.le_of_add_left_le le)
    by_cases short : bytes < target
    · rw [fill, if_pos short] at made ⊢
      obtain ⟨added, s', drawn, rest⟩ := bind_eq_some_iff.1 made
      exact bind_eq_some_iff.2 ⟨added, s', drawn, ih (Nat.le_of_succ_le_succ le) rest⟩
    · simpa [fill, short] using made

structure Fills (target bytes : Nat) (added : List (List Char)) : Prop where
  sized : ∀ piece ∈ added, Sized 1 46 piece
  length_le : added.length ≤ target - bytes
  reaches : target ≤ bytes + byteCount added.flatten
  stops : bytes + byteCount added.flatten ≤ max bytes (target + 45)

theorem fills_nil (full : target ≤ bytes) : Fills target bytes [] where
  sized := List.forall_mem_nil _
  length_le := Nat.zero_le _
  reaches := full
  stops := Nat.le_max_left _ _

theorem Fills.concat {piece : List Char} {added : List (List Char)} (sized : Sized 1 46 piece)
    (short : bytes < target) (fills : Fills target (bytes + byteCount piece) added) :
    Fills target bytes (added ++ [piece]) := by
  obtain ⟨least, most⟩ := id sized
  have total : byteCount (added ++ [piece]).flatten =
      byteCount piece + byteCount added.flatten := by
    simp [Nat.add_comm]
  have size := fills.length_le
  have reaches := fills.reaches
  have stops := fills.stops
  refine ⟨List.forall_mem_append.2 ⟨fills.sized, ?_⟩, ?_, by omega, by omega⟩
  · simpa using sized
  · rw [List.length_append, List.length_singleton]
    omega

variable [LawfulSource σ]

theorem yields_fill {rounds : Nat} (enough : target - bytes ≤ rounds) (pieces : List (List Char)) :
    Yields (fill target rounds bytes pieces : Drawing σ (List (List Char))) fun filled =>
      ∃ added, filled = added ++ pieces ∧ Fills target bytes added := by
  induction rounds generalizing bytes pieces with
  | zero =>
    have full : target ≤ bytes := by omega
    rw [fill, if_neg (Nat.not_lt_of_le full)]
    exact yields_pure ⟨[], rfl, fills_nil full⟩
  | succ rounds ih =>
    rw [fill]
    split_ifs with short
    · refine yields_piece.bind fun piece sized => ?_
      have nearer : target - (bytes + byteCount piece) ≤ rounds := by
        have least := sized.1
        omega
      refine (ih nearer (piece :: pieces)).mono ?_
      rintro _ ⟨added, rfl, fills⟩
      exact ⟨added ++ [piece], by simp, fills.concat sized short⟩
    · exact yields_pure ⟨[], rfl, fills_nil (Nat.le_of_not_lt short)⟩

/-- A piece can be made from every state of a source, and always has between 1 and 46 bytes. So at
most as many pieces as the target has bytes fill a text, which is empty for the target 0 and
otherwise exceeds its target by 45 bytes at most. -/
theorem source_near_target (target : Nat) (s : σ) :
    (∀ s : σ, ∃ added s', piece s = some (added, s') ∧ 1 ≤ byteCount added ∧ byteCount added ≤ 46) ∧
      ∃ pieces s', (∀ rounds, target ≤ rounds → fill target rounds 0 [] s = some (pieces, s')) ∧
        pieces.length ≤ target ∧
        (∀ added ∈ pieces, 1 ≤ byteCount added ∧ byteCount added ≤ 46) ∧
        let text := String.ofList pieces.reverse.flatten
        (target = 0 → text = "") ∧
          (0 < target → target ≤ text.utf8ByteSize ∧ text.utf8ByteSize ≤ target + 45) ∧
          (fits target → sourceText target s = some (text, s')) := by
  refine ⟨yields_piece, ?_⟩
  obtain ⟨_, s', filled, pieces, rfl, fills⟩ := yields_fill (Nat.sub_le target 0) [] s
  rw [List.append_nil] at filled
  refine ⟨pieces, s', fun rounds enough => fill_of_le enough filled, fills.length_le,
    fills.sized, ?_⟩
  intro text
  have size : text.utf8ByteSize = byteCount pieces.flatten := by
    rw [utf8ByteSize_ofList, byteCount_flatten_reverse]
  have reaches := fills.reaches
  have stops := fills.stops
  refine ⟨?_, ?_, ?_⟩
  · rintro rfl
    obtain rfl : pieces = [] := List.eq_nil_of_length_eq_zero (Nat.le_zero.1 fills.length_le)
    rfl
  · intro positive
    omega
  · intro fitting
    rw [sourceText, if_pos fitting]
    exact bind_eq_some_iff.2 ⟨pieces, s', filled, rfl⟩

theorem source_near_hundred :
    LawfulSource SplitMix ∧ fits 100 = true ∧
      ∃ text s', sourceText 100 (⟨7⟩ : SplitMix) = some (text, s') ∧ 100 ≤ text.utf8ByteSize ∧
        text.utf8ByteSize ≤ 145 := by
  obtain ⟨-, pieces, s', -, -, -, -, near, made⟩ := source_near_target 100 (⟨7⟩ : SplitMix)
  exact ⟨inferInstance, rfl, _, s', made rfl, near (by decide)⟩

end Filling

end SyntaxPaint.Specimen

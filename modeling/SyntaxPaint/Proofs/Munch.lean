import SyntaxPaint.Proofs.Edges
import SyntaxPaint.Proofs.Lexicon

/-!
How far a lexeme reads: states that loop take a run of characters, the states of a literal take what
`quotedRest` says, and those of a block comment take what `blockRest` says.
-/

namespace SyntaxPaint

open Automaton (columnOf numColumns)
open Lexicon

namespace Lexicon

theorem quotedRest_cons (quote code : Nat) (rest : List Nat) :
    quotedRest quote (code :: rest) =
      if code = quote then 1
      else if code = '\n'.toNat then 0
      else if code = '\\'.toNat then
        match rest with
        | [] => 1
        | _ :: rest => quotedRest quote rest + 2
      else quotedRest quote rest + 1 :=
  quotedRest.eq_def quote (code :: rest)

end Lexicon

namespace Tables

variable {t : Tables} {state quote body : Nat} {p : Nat → Bool}

structure Loops (t : Tables) (state : Nat) (p : Nat → Bool) : Prop where
  inside : state ≠ ground
  rejects : t.accepts state = false
  step : ∀ code, t.step state code = if p code then state else ground

/-- States `body`, `body + 1` after a backslash and `body + 2` at the end of a literal. -/
structure Quotes (t : Tables) (quote body : Nat) : Prop where
  inside : body ≠ ground
  rejects_body : t.accepts body = false
  rejects_escape : t.accepts (body + 1) = false
  accepts_close : t.accepts (body + 2) = true
  step_body : ∀ code, t.step body code =
    if code = quote then body + 2
    else if code = '\n'.toNat then ground
    else if code = '\\'.toNat then body + 1
    else body
  step_escape : ∀ code, t.step (body + 1) code = body

/-- States `body`, `body + 1` after a star and `body + 2` at the end of a block comment. -/
structure Blocks (t : Tables) (body : Nat) : Prop where
  inside : body ≠ ground
  rejects_body : t.accepts body = false
  rejects_star : t.accepts (body + 1) = false
  accepts_close : t.accepts (body + 2) = true
  step_body : ∀ code, t.step body code = if code = '*'.toNat then body + 1 else body
  step_star : ∀ code, t.step (body + 1) code =
    if code = '/'.toNat then body + 2 else if code = '*'.toNat then body + 1 else body

theorem munch_of_accepts (accepts : t.accepts state = true) (codes : List Nat) :
    t.munch state codes = 0 := by
  cases codes with
  | nil => rfl
  | cons code rest => rw [munch, if_pos (.inl accepts)]

theorem munch_of_back {code : Nat} (back : t.step state code = ground) (rest : List Nat) :
    t.munch state (code :: rest) = 0 := by
  rw [munch, if_pos (.inr back)]

theorem munch_of_goes {code next : Nat} (rejects : t.accepts state = false)
    (goes : t.step state code = next) (inside : next ≠ ground) (rest : List Nat) :
    t.munch state (code :: rest) = t.munch next rest + 1 := by
  rw [munch, goes, if_neg]
  rintro (accepts | back)
  · rw [rejects] at accepts
    contradiction
  · exact inside back

theorem Loops.munch_eq (loops : t.Loops state p) (codes : List Nat) :
    t.munch state codes = (codes.takeWhile p).length := by
  induction codes with
  | nil => rfl
  | cons code rest ih =>
    cases reads : p code with
    | true =>
      have goes : t.step state code = state := by rw [loops.step, reads, if_pos rfl]
      rw [munch_of_goes loops.rejects goes loops.inside, ih, List.takeWhile_cons_of_pos reads,
        List.length_cons]
    | false =>
      have back : t.step state code = ground := by rw [loops.step, reads, if_neg Bool.false_ne_true]
      rw [munch_of_back back, List.takeWhile_cons_of_neg (by rw [reads]; exact Bool.false_ne_true)]
      rfl

theorem Loops.growth_eq (loops : t.Loops state p) (start : Nat) (joined : Bool) (offset : Nat)
    (codes : List Nat) :
    t.growth start joined offset state (codes.take (t.munch state codes)) =
      [⟨start, offset + t.munch state codes, state, joined⟩] := by
  induction codes generalizing offset with
  | nil => rfl
  | cons code rest ih =>
    cases reads : p code with
    | true =>
      have goes : t.step state code = state := by rw [loops.step, reads, if_pos rfl]
      rw [munch_of_goes loops.rejects goes loops.inside, List.take_succ_cons, growth,
        if_pos goes, ih, Nat.add_right_comm, Nat.add_assoc]
    | false =>
      have back : t.step state code = ground := by rw [loops.step, reads, if_neg Bool.false_ne_true]
      rw [munch_of_back back]
      rfl

theorem Quotes.step_quote (quotes : t.Quotes quote body) : t.step body quote = body + 2 := by
  rw [quotes.step_body, if_pos rfl]

theorem Quotes.step_lineBreak (quotes : t.Quotes quote body) (other : '\n'.toNat ≠ quote) :
    t.step body '\n'.toNat = ground := by
  rw [quotes.step_body, if_neg other, if_pos rfl]

theorem Quotes.step_backslash (quotes : t.Quotes quote body) (other : '\\'.toNat ≠ quote) :
    t.step body '\\'.toNat = body + 1 := by
  rw [quotes.step_body, if_neg other, if_neg (by decide), if_pos rfl]

theorem Quotes.step_plain (quotes : t.Quotes quote body) {code : Nat} (other : code ≠ quote)
    (inLine : code ≠ '\n'.toNat) (plain : code ≠ '\\'.toNat) : t.step body code = body := by
  rw [quotes.step_body, if_neg other, if_neg inLine, if_neg plain]

theorem Quotes.munch_eq (quotes : t.Quotes quote body) (codes : List Nat) :
    t.munch body codes = quotedRest quote codes := by
  induction codes using quotedRest.induct quote with
  | case1 => rfl
  | case2 rest =>
    rw [munch_of_goes quotes.rejects_body quotes.step_quote (Nat.succ_ne_zero _),
      munch_of_accepts quotes.accepts_close, quotedRest_cons, if_pos rfl]
  | case3 rest other =>
    rw [munch_of_back (quotes.step_lineBreak other), quotedRest_cons, if_neg other, if_pos rfl]
  | case4 other inLine =>
    rw [munch_of_goes quotes.rejects_body (quotes.step_backslash other) (Nat.succ_ne_zero _),
      quotedRest_cons, if_neg other, if_neg inLine, if_pos rfl]
    rfl
  | case5 code rest other inLine ih =>
    rw [munch_of_goes quotes.rejects_body (quotes.step_backslash other) (Nat.succ_ne_zero _),
      munch_of_goes quotes.rejects_escape (quotes.step_escape code) quotes.inside, ih,
      quotedRest_cons, if_neg other, if_neg inLine, if_pos rfl]
  | case6 code rest other inLine plain ih =>
    rw [munch_of_goes quotes.rejects_body (quotes.step_plain other inLine plain) quotes.inside, ih,
      quotedRest_cons, if_neg other, if_neg inLine, if_neg plain]

theorem Blocks.munch_eq (blocks : t.Blocks body) (codes : List Nat) :
    t.munch body codes = blockRest codes ∧
      t.munch (body + 1) codes = if codes.head? = some '/'.toNat then 1 else blockRest codes := by
  induction codes with
  | nil => exact ⟨rfl, rfl⟩
  | cons code rest ih =>
    have star (source : Nat) (rejects : t.accepts source = false)
        (goes : t.step source code = body + 1) (here : code = '*'.toNat) :
        t.munch source (code :: rest) = blockRest (code :: rest) := by
      rw [munch_of_goes rejects goes (Nat.succ_ne_zero _), ih.2, blockRest]
      by_cases ends : rest.head? = some '/'.toNat
      · rw [if_pos ends, if_pos ⟨here, ends⟩]
      · rw [if_neg ends, if_neg fun both => ends both.2]
    have other (source : Nat) (rejects : t.accepts source = false)
        (goes : t.step source code = body) (plain : code ≠ '*'.toNat) :
        t.munch source (code :: rest) = blockRest (code :: rest) := by
      rw [munch_of_goes rejects goes blocks.inside, ih.1, blockRest,
        if_neg fun both => plain both.1]
    constructor
    · by_cases here : code = '*'.toNat
      · exact star body blocks.rejects_body (by rw [blocks.step_body, if_pos here]) here
      · exact other body blocks.rejects_body (by rw [blocks.step_body, if_neg here]) here
    · rw [List.head?_cons]
      by_cases ends : code = '/'.toNat
      · have goes : t.step (body + 1) code = body + 2 := by rw [blocks.step_star, if_pos ends]
        rw [munch_of_goes blocks.rejects_star goes (Nat.succ_ne_zero _),
          munch_of_accepts blocks.accepts_close, if_pos (congrArg some ends)]
      · rw [if_neg fun same => ends (Option.some.inj same)]
        by_cases here : code = '*'.toNat
        · exact star (body + 1) blocks.rejects_star
            (by rw [blocks.step_star, if_neg ends, if_pos here]) here
        · exact other (body + 1) blocks.rejects_star
            (by rw [blocks.step_star, if_neg ends, if_neg here]) here

end Tables

end SyntaxPaint

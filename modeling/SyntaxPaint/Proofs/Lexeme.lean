import Mathlib.Data.List.SplitBy
import SyntaxPaint.Scan.Token

/-!
A lexeme is a token that is not joined to the one before it, with the tokens that are joined to it.
With tables that restart, the lexemes of a text follow one another from the left: each begins in the
ground state and reads on until a state accepts or the next character would lead back to the ground
state.
-/

namespace SyntaxPaint

/-- Tokens in groups, each of which begins where a token is not joined. -/
def Token.lexemes (tokens : List Token) : List (List Token) :=
  tokens.splitBy fun _ next => next.joined

/-- Tables with which a lexeme begins as it would at the start of a text. -/
structure Tables.Restarts (t : Tables) : Prop where
  leaves_ground : ∀ code, t.step ground code ≠ ground
  no_return : ∀ state code, t.accepts state = false → t.step state code = ground →
    t.step ground code ≠ state
  after_lineBreak : ∀ code, t.advance (t.step ground Scan.lineBreak) code = t.step ground code

namespace Tables

def munch (t : Tables) : (state : Nat) → List Nat → Nat
  | _, [] => 0
  | state, code :: rest =>
    if t.accepts state ∨ t.step state code = ground then 0 else t.munch (t.step state code) rest + 1

/-- The token that has come from `start` to `offset`, and those that the characters of its lexeme
which are still to be read join to it. -/
def growth (t : Tables) (start : Nat) (joined : Bool) : (offset state : Nat) → List Nat → List Token
  | offset, state, [] => [⟨start, offset, state, joined⟩]
  | offset, state, code :: rest =>
    if t.step state code = state then t.growth start joined (offset + 1) state rest
    else
      ⟨start, offset, state, joined⟩ :: t.growth offset true (offset + 1) (t.step state code) rest

theorem munch_le (t : Tables) (state : Nat) (codes : List Nat) :
    t.munch state codes ≤ codes.length := by
  induction codes generalizing state with
  | nil => exact Nat.le_refl 0
  | cons code rest ih =>
    rw [munch]
    split
    · exact Nat.zero_le _
    · exact Nat.succ_le_succ (ih _)

def lexemesFrom (t : Tables) (offset : Nat) : List Nat → List (List Token)
  | [] => []
  | code :: rest =>
    let more := t.munch (t.step ground code) rest
    t.growth offset false (offset + 1) (t.step ground code) (rest.take more) ::
      t.lexemesFrom (offset + 1 + more) (rest.drop more)
termination_by codes => codes.length
decreasing_by
  simp only [List.length_drop, List.length_cons]
  omega

end Tables

namespace Scan

inductive Fresh (t : Tables) (s : Scan) (code : Nat) : Prop
  | start (none : s.onsets = []) (state : s.state = t.step ground lineBreak)
  | accepted (state : s.state = ground)
  | ended (rejects : t.accepts s.state = false) (back : t.step s.state code = ground)

theorem step_fresh {t : Tables} (restarts : t.Restarts) {s : Scan} {code : Nat}
    (fresh : s.Fresh t code) :
    s.step t code =
      ⟨s.offset + 1, if t.accepts (t.step ground code) then ground else t.step ground code,
        ⟨s.offset, s.state, code, t.step ground code, false⟩ :: s.onsets⟩ := by
  have leaves := restarts.leaves_ground code
  have after : t.advance s.state code = t.step ground code := by
    cases fresh with
    | start _ state => rw [state, restarts.after_lineBreak]
    | accepted state => rw [state, Tables.advance, if_neg leaves]
    | ended _ back => rw [Tables.advance, if_pos back]
  have moves : ¬(t.step ground code = s.state ∧ s.onsets ≠ []) := by
    rintro ⟨stays, some⟩
    cases fresh with
    | start none _ => exact some none
    | accepted state => exact leaves (stays.trans state)
    | ended rejects back => exact restarts.no_return _ _ rejects back stays
  have apart : (!s.onsets.isEmpty && s.state != ground &&
      t.step s.state code == t.step ground code) = false := by
    cases fresh with
    | start none _ => simp [none]
    | accepted state => simp [state]
    | ended _ back => simp [back, leaves.symm]
  unfold step onset
  rw [after]
  dsimp only
  rw [if_neg moves, apart]

theorem step_inside {t : Tables} {s : Scan} {code : Nat} (some : s.onsets ≠ [])
    (inside : s.state ≠ ground) (goes : t.step s.state code ≠ ground) :
    s.step t code =
      if t.step s.state code = s.state then { s with offset := s.offset + 1 }
      else
        ⟨s.offset + 1, if t.accepts (t.step s.state code) then ground else t.step s.state code,
          ⟨s.offset, s.state, code, t.step s.state code, true⟩ :: s.onsets⟩ := by
  have after : t.advance s.state code = t.step s.state code := if_neg goes
  have joined : (!s.onsets.isEmpty && s.state != ground &&
      t.step s.state code == t.step s.state code) = true := by
    simp [some, inside]
  unfold step onset
  rw [after]
  dsimp only
  rw [joined]
  simp only [some, ne_eq, not_false_eq_true, and_true]

theorem close_cons (stop : Nat) (o : Onset) (before : List Onset) :
    close stop (o :: before) [] =
      close o.start before [] ++ [⟨o.start, stop, o.state, o.joined⟩] := by
  rw [close, close_append]

/-- A scan at the beginning of a lexeme goes on with the lexemes of what is left. -/
def Begins (t : Tables) (codes : List Nat) : Prop :=
  ∀ s : Scan, (∀ code ∈ codes.head?, s.Fresh t code) →
    (s.run t codes).tokens = s.tokens ++ (t.lexemesFrom s.offset codes).flatten

/-- A scan inside a lexeme first takes what belongs to it. -/
def Continues (t : Tables) (codes : List Nat) : Prop :=
  ∀ (s : Scan) (o : Onset) (before : List Onset), s.onsets = o :: before → s.state = o.state →
    o.state ≠ ground → t.accepts o.state = false →
      let more := t.munch o.state codes
      (s.run t codes).tokens = close o.start before [] ++
        (t.growth o.start o.joined s.offset o.state (codes.take more) ++
          (t.lexemesFrom (s.offset + more) (codes.drop more)).flatten)

section Steps

variable {t : Tables} {code : Nat} {rest : List Nat}

theorem tokens_run_onset (begins : Begins t rest) (continues : Continues t rest) {s : Scan}
    {o : Onset} {before : List Onset} (onsets : s.onsets = o :: before) (leaves : o.state ≠ ground)
    (state : s.state = if t.accepts o.state then ground else o.state) :
    let more := t.munch o.state rest
    (s.run t rest).tokens = close o.start before [] ++
      (t.growth o.start o.joined s.offset o.state (rest.take more) ++
        (t.lexemesFrom (s.offset + more) (rest.drop more)).flatten) := by
  cases accepts : t.accepts o.state with
  | false =>
    rw [accepts, if_neg Bool.false_ne_true] at state
    exact continues s o before onsets state leaves accepts
  | true =>
    rw [accepts, if_pos rfl] at state
    have none : t.munch o.state rest = 0 := by cases rest <;> simp [Tables.munch, accepts]
    dsimp only
    rw [begins s fun _ _ => .accepted state, tokens, onsets, close_cons, none, List.append_assoc]
    rfl

theorem begins_cons (restarts : t.Restarts) (begins : Begins t rest)
    (continues : Continues t rest) :
    Begins t (code :: rest) := by
  intro s fresh
  have step := step_fresh restarts (fresh code rfl)
  rw [run_cons, step, tokens_run_onset begins continues rfl (restarts.leaves_ground code) rfl,
    Tables.lexemesFrom, List.flatten_cons]
  rfl

theorem continues_cons (begins : Begins t (code :: rest)) (beginsRest : Begins t rest)
    (continues : Continues t rest) : Continues t (code :: rest) := by
  intro s o before onsets state inside rejects
  have some : s.onsets ≠ [] := by
    rw [onsets]
    exact List.cons_ne_nil _ _
  rw [← state] at inside rejects ⊢
  -- Here the lexeme ends before `code`, which the scan takes a second time from the ground state.
  by_cases back : t.step s.state code = ground
  · have none : t.munch s.state (code :: rest) = 0 := by rw [Tables.munch, if_pos (.inr back)]
    have fresh : ∀ c ∈ (code :: rest).head?, s.Fresh t c := by
      intro c first
      cases first
      exact .ended rejects back
    rw [begins s fresh, tokens, onsets, close_cons, none, List.append_assoc, ← state]
    rfl
  · have step := step_inside some inside back
    have more : t.munch s.state (code :: rest) = t.munch (t.step s.state code) rest + 1 := by
      rw [Tables.munch, if_neg (by simp [rejects, back])]
    dsimp only
    rw [run_cons, more, List.take_succ_cons, List.drop_succ_cons, Tables.growth, step]
    by_cases stays : t.step s.state code = s.state
    · rw [if_pos stays, if_pos stays, stays]
      rw [continues { s with offset := s.offset + 1 } o before onsets state (state ▸ inside)
        (state ▸ rejects), ← state, Nat.add_right_comm, Nat.add_assoc s.offset]
    · rw [if_neg stays, if_neg stays, tokens_run_onset beginsRest continues rfl back rfl, onsets,
        close_cons, ← state, Nat.add_right_comm, Nat.add_assoc s.offset, List.append_assoc]
      rfl

theorem begins_and_continues (restarts : t.Restarts) (codes : List Nat) :
    Begins t codes ∧ Continues t codes := by
  -- A scan at the ground state enters a lexeme and one inside a lexeme falls back to the ground
  -- state, so neither half carries an induction alone.
  induction codes with
  | nil =>
    constructor
    · intro s _
      rw [Tables.lexemesFrom, List.flatten_nil, List.append_nil]
      rfl
    · intro s o before onsets _ _ _
      dsimp only
      rw [run_nil, tokens, onsets, close_cons, Tables.munch, List.drop_nil, Tables.lexemesFrom]
      rfl
  | cons code rest ih =>
    have begins : Begins t (code :: rest) := begins_cons restarts ih.1 ih.2
    exact ⟨begins, continues_cons begins ih.1 ih.2⟩

end Steps

end Scan

namespace Tables

variable {t : Tables}

theorem tokenize_eq (restarts : t.Restarts) (codes : List Nat) :
    t.tokenize codes = (t.lexemesFrom 0 codes).flatten :=
  (Scan.begins_and_continues restarts codes).1 (Scan.start t) fun _ _ => .start rfl rfl

end Tables

end SyntaxPaint

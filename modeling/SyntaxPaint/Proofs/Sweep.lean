import SyntaxPaint.Scan.Token

/-!
A scan that hands out each token when it has ended, and holds on to the one at hand alone. Where the
characters end, that one is the last token. `Tables.tokenize_eq_flush` says that the tokens handed
out are those of `Tables.tokenize`, which has all of their beginnings in one list.
-/

namespace SyntaxPaint

structure Sweep where
  offset : Nat
  state : Nat
  ended : Array Token
  /-- The token at hand: its start and its state, and whether it is joined. -/
  opened : Option (Nat × Nat × Bool)

namespace Sweep

def start (t : Tables) : Sweep :=
  ⟨0, t.step ground Scan.lineBreak, #[], none⟩

/-- All tokens, if the one at hand ends here. -/
def flush (s : Sweep) : Array Token :=
  match s.opened with
  | none => s.ended
  | some (start, state, joined) => s.ended.push ⟨start, s.offset, state, joined⟩

def step (t : Tables) (s : Sweep) (code : Nat) : Sweep :=
  let after := t.advance s.state code
  if after = s.state ∧ s.opened.isSome then { s with offset := s.offset + 1 }
  else
    let straight := s.opened.isSome && s.state != ground && t.next s.state (t.classOf code) == after
    { offset := s.offset + 1
      state := if t.accepts after then ground else after
      ended := s.flush
      opened := some (s.offset, after, straight) }

def run (t : Tables) (s : Sweep) (codes : List Nat) : Sweep :=
  codes.foldl (step t) s

end Sweep

namespace Scan

/-- The scan with the token at hand apart from those that have ended. -/
def sweep (s : Scan) : Sweep where
  offset := s.offset
  state := s.state
  ended := (s.onsets.head?.elim [] fun o => close o.start s.onsets.tail []).toArray
  opened := s.onsets.head?.map fun o => (o.start, o.state, o.joined)

theorem isSome_opened_sweep (s : Scan) : s.sweep.opened.isSome = !s.onsets.isEmpty := by
  unfold sweep
  cases s.onsets <;> rfl

theorem flush_sweep (s : Scan) : s.sweep.flush = s.tokens.toArray := by
  unfold tokens Sweep.flush sweep
  cases s.onsets with
  | nil => rfl
  | cons o before =>
    rw [close, close_append, ← List.append_toArray]
    rfl

/-- A scan takes its next character in both forms alike. -/
theorem sweep_step (t : Tables) (s : Scan) (code : Nat) :
    (s.step t code).sweep = s.sweep.step t code := by
  have state : s.sweep.state = s.state := rfl
  have offset : s.sweep.offset = s.offset := rfl
  rw [Sweep.step, isSome_opened_sweep, flush_sweep, state, offset, step]
  by_cases stays : t.advance s.state code = s.state ∧ s.onsets ≠ []
  · have listed : t.advance s.state code = s.state ∧ (!s.onsets.isEmpty) = true := by
      simpa using stays
    rw [if_pos stays, if_pos listed]
    rfl
  · have listed : ¬(t.advance s.state code = s.state ∧ (!s.onsets.isEmpty) = true) := by
      simpa using stays
    rw [if_neg stays, if_neg listed]
    rfl

theorem sweep_run (t : Tables) (s : Scan) (codes : List Nat) :
    (s.run t codes).sweep = s.sweep.run t codes := by
  induction codes generalizing s with
  | nil => rfl
  | cons code codes ih =>
    rw [run_cons, ih, sweep_step]
    rfl

end Scan

namespace Tables

theorem tokenize_eq_flush (t : Tables) (codes : List Nat) :
    (t.tokenize codes).toArray = ((Sweep.start t).run t codes).flush :=
  calc (t.tokenize codes).toArray = (t.scan codes).sweep.flush := (t.scan codes).flush_sweep.symm
    _ = ((Sweep.start t).run t codes).flush := by
      rw [scan, Scan.sweep_run]
      rfl

end Tables

end SyntaxPaint

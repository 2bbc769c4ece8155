import SyntaxPaint.Tables.Basic

/-!
Scanning splits text into tokens, the stretches that the machine spends in one state. The machine
starts as if a line had just ended, and starts anew after a state that accepts. A token is joined to
the one before it when its first character led straight from that one's state to its own.
-/

namespace SyntaxPaint

/-- The characters from `start` up to `stop`, all read in one state. -/
structure Token where
  start : Nat
  stop : Nat
  state : Nat
  joined : Bool
deriving DecidableEq, Repr

namespace Token

def length (t : Token) : Nat :=
  t.stop - t.start

end Token

structure Onset where
  start : Nat
  /-- The state that the machine was in before it. -/
  source : Nat
  code : Nat
  state : Nat
  joined : Bool
deriving DecidableEq, Repr

structure Scan where
  offset : Nat
  state : Nat
  /-- The tokens so far, last first; the last one may still grow. -/
  onsets : List Onset
deriving DecidableEq, Repr

namespace Scan

/-- The code of the line break that every text is read after. -/
def lineBreak : Nat := 10

def start (t : Tables) : Scan :=
  ⟨0, t.step ground lineBreak, []⟩

def onset (t : Tables) (s : Scan) (code after : Nat) : Onset where
  start := s.offset
  source := s.state
  code := code
  state := after
  joined := !s.onsets.isEmpty && s.state != ground && t.step s.state code == after

def step (t : Tables) (s : Scan) (code : Nat) : Scan :=
  let after := t.advance s.state code
  if after = s.state ∧ s.onsets ≠ [] then { s with offset := s.offset + 1 }
  else
    { offset := s.offset + 1
      state := if t.accepts after then ground else after
      onsets := s.onset t code after :: s.onsets }

def run (t : Tables) (s : Scan) (codes : List Nat) : Scan :=
  codes.foldl (step t) s

@[simp] theorem run_nil (t : Tables) (s : Scan) : s.run t [] = s := rfl

@[simp] theorem run_cons (t : Tables) (s : Scan) (code : Nat) (codes : List Nat) :
    s.run t (code :: codes) = (s.step t code).run t codes := rfl

theorem run_append (t : Tables) (s : Scan) (a b : List Nat) :
    s.run t (a ++ b) = (s.run t a).run t b := by
  simp [run]

@[simp] theorem offset_step (t : Tables) (s : Scan) (code : Nat) :
    (s.step t code).offset = s.offset + 1 := by
  unfold step
  dsimp only
  split <;> rfl

@[simp] theorem offset_run (t : Tables) (s : Scan) (codes : List Nat) :
    (s.run t codes).offset = s.offset + codes.length := by
  induction codes generalizing s with
  | nil => rfl
  | cons code codes ih => rw [run_cons, ih, offset_step, List.length_cons]; omega

/-- Ends each token where the one after it begins; the last one ends at `stop`. -/
def close (stop : Nat) : List Onset → List Token → List Token
  | [], later => later
  | o :: before, later => close o.start before (⟨o.start, stop, o.state, o.joined⟩ :: later)

theorem close_append (stop : Nat) (onsets : List Onset) (later : List Token) :
    close stop onsets later = close stop onsets [] ++ later := by
  induction onsets generalizing stop later with
  | nil => rfl
  | cons o before ih =>
    rw [close, close, ih, ih o.start [_], List.append_assoc]
    rfl

def tokens (s : Scan) : List Token :=
  close s.offset s.onsets []

end Scan

namespace Tables

def scan (t : Tables) (codes : List Nat) : Scan :=
  (Scan.start t).run t codes

def tokenize (t : Tables) (codes : List Nat) : List Token :=
  (t.scan codes).tokens

end Tables

end SyntaxPaint

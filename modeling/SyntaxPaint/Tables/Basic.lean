import SyntaxPaint.Tables.Layout

/-!
Scanner tables: a layout that has been checked. States, classes and character codes are numbers;
every look-up is total, and `Tables.next_lt` says that the successor of any state is a state.
-/

namespace SyntaxPaint

/-- The state in which scanning starts; a step that leads to it says that a token has ended before
the character at hand. -/
def ground : Nat := 0

/-- Codes from here on all have class 0. -/
def asciiLimit : Nat := 128

structure Tables extends Layout where
  valid : toLayout.Valid
deriving DecidableEq

def Layout.check (l : Layout) : Except Error Tables :=
  match none : l.fault? with
  | none => .ok ⟨l, l.fault?_eq_none_iff.1 none⟩
  | some fault => fail (.layout l.name fault)

theorem Layout.toLayout_of_check {l : Layout} {t : Tables} (made : l.check = .ok t) :
    t.toLayout = l := by
  unfold Layout.check at made
  split at made
  · cases made
    rfl
  · contradiction

theorem Layout.exists_check_iff (l : Layout) : (∃ t, l.check = .ok t) ↔ l.Valid := by
  constructor
  · rintro ⟨t, made⟩
    have same : t.toLayout = l := Layout.toLayout_of_check made
    exact same ▸ t.valid
  · intro valid
    have none := l.fault?_eq_none_iff.2 valid
    unfold Layout.check
    split
    · exact ⟨_, rfl⟩
    · next fault found =>
      rw [none] at found
      contradiction

namespace Tables

def classOf (t : Tables) (code : Nat) : Nat :=
  if code < asciiLimit then t.classes.toArray.getD code 0 else 0

def next (t : Tables) (state cls : Nat) : Nat :=
  t.transitions.getD (state * t.numClasses + cls) ground

def accepts (t : Tables) (state : Nat) : Bool :=
  t.accept.getD state false

def label (t : Tables) (state : Nat) : String :=
  t.labels.getD state ""

def step (t : Tables) (state code : Nat) : Nat :=
  t.next state (t.classOf code)

/-- A step that reads the code again from the ground state if the first reading only ended a
token. -/
def advance (t : Tables) (state code : Nat) : Nat :=
  let after := t.step state code
  if after = ground then t.step ground code else after

theorem classOf_of_le (t : Tables) {code : Nat} (beyond : asciiLimit ≤ code) : t.classOf code = 0 :=
  if_neg (Nat.not_lt_of_le beyond)

theorem classOf_lt (t : Tables) (code : Nat) : t.classOf code < t.numClasses := by
  unfold classOf
  split
  · rw [Array.getD_eq_getD_getElem?]
    cases found : t.classes.toArray[code]? with
    | none => exact t.valid.classes_pos
    | some cls => exact t.valid.class_lt cls (Array.mem_of_getElem? found)
  · exact t.valid.classes_pos

theorem next_lt (t : Tables) (state cls : Nat) : t.next state cls < t.numStates := by
  unfold next
  rw [Array.getD_eq_getD_getElem?]
  cases found : t.transitions[state * t.numClasses + cls]? with
  | none => exact t.valid.states_pos
  | some after => exact t.valid.target_lt after (Array.mem_of_getElem? found)

theorem step_lt (t : Tables) (state code : Nat) : t.step state code < t.numStates :=
  t.next_lt _ _

theorem advance_lt (t : Tables) (state code : Nat) : t.advance state code < t.numStates := by
  unfold advance
  dsimp only
  split
  · exact t.step_lt _ _
  · exact t.step_lt _ _

end Tables

end SyntaxPaint

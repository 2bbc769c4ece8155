import SyntaxPaint.Tables.Basic

/-!
A machine is a state of some tables. The look-ups here ask for a state or a class by number and have
no answer for a number that names none.
-/

namespace SyntaxPaint

structure Machine where
  tables : Tables
  state : Nat

namespace Machine

def new (tables : Tables) : Machine :=
  ⟨tables, ground⟩

def update (m : Machine) (code : Nat) : Machine :=
  { m with state := m.tables.step m.state code }

/-- Reads a character, and reads it again if the first reading only ended a token. -/
def advance (m : Machine) (code : Nat) : Machine :=
  { m with state := m.tables.advance m.state code }

def reset? (m : Machine) (state : Nat) : Option Machine :=
  if state < m.tables.numStates then some { m with state } else none

def accepts? (m : Machine) (state : Nat) : Option Bool :=
  m.tables.accept[state]?

def label? (m : Machine) (state : Nat) : Option String :=
  m.tables.labels[state]?

def next? (m : Machine) (state cls : Nat) : Option Nat :=
  if state < m.tables.numStates ∧ cls < m.tables.numClasses then some (m.tables.next state cls)
  else none

def feed (m : Machine) : List Nat → List Nat × Machine
  | [] => ([], m)
  | code :: rest =>
    let m := m.advance code
    let later := m.feed rest
    (m.state :: later.1, later.2)

def description (m : Machine) : String :=
  s!"TokenStateMachine({m.tables.name}, state: {m.state})"

end Machine

end SyntaxPaint

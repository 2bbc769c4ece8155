import SyntaxPaint.Tables.Basic

/-!
An automaton is described state by state and edge by edge, and an edge that is never set leads to
the ground state. Codes of 128 and above share one column of edges, so a state has 129 edges.
`Automaton.tables` gives equal columns one class; classes are numbered in the order in which their
columns first appear, the column of codes from 128 on before the others.
-/

namespace SyntaxPaint

namespace Automaton

def beyondAscii : Nat := 128

def numColumns : Nat := 129

def columnOf (code : Nat) : Nat :=
  min code beyondAscii

structure State where
  comment : String
  label : String
  accept : Bool
  successor : Nat → Nat

def State.new (comment label : String) (accept : Bool) : State :=
  ⟨comment, label, accept, fun _ => ground⟩

inductive Columns
  | codes (listed : List Nat)
  | range (first last : Nat)
  | beyond
  | allExcept (listed : List Nat)
deriving DecidableEq, Repr

namespace Columns

def contains : Columns → Nat → Bool
  | .codes listed, column => listed.contains column
  | .range first last, column => decide (first ≤ column ∧ column ≤ last)
  | .beyond, column => column == beyondAscii
  | .allExcept listed, column => !listed.contains column

/-- Whether every column that is named exists; a list of codes names ASCII codes only. -/
def exist : Columns → Bool
  | .codes listed => listed.all (· < beyondAscii)
  | .range first last => decide (last < first ∨ last < numColumns)
  | .beyond => true
  | .allExcept listed => listed.all (· < numColumns)

/-- Whether no column is named, so that no state is looked at either. -/
def isEmpty : Columns → Bool
  | .codes listed => listed.isEmpty
  | .range first last => decide (last < first)
  | .beyond | .allExcept _ => false

end Columns

inductive Edit
  | state (comment label : String) (accept : Bool)
  | edges (source : Nat) (columns : Columns) (target : Nat)
deriving DecidableEq, Repr

end Automaton

structure Automaton where
  name : String
  states : Array Automaton.State

namespace Automaton

def new (name groundLabel : String) : Automaton :=
  ⟨name, #[.new "ground" groundLabel false]⟩

def State.lead (s : State) (columns : Columns) (target : Nat) : State :=
  { s with successor := fun c => if columns.contains c then target else s.successor c }

def edit? (a : Automaton) : Edit → Option Automaton
  | .state comment label accept =>
    some { a with states := a.states.push (.new comment label accept) }
  | .edges source columns target =>
    if columns.exist && (columns.isEmpty || decide (source < a.states.size)) then
      some { a with states := a.states.modify source (·.lead columns target) }
    else none

def edits? (a : Automaton) (edits : List Edit) : Option Automaton :=
  edits.foldlM edit? a

/-- The number that the next state will have; numbers have sixteen bits. -/
def nextId (a : Automaton) : Nat :=
  a.states.size % 65536

def column (a : Automaton) (c : Nat) : List Nat :=
  a.states.toList.map (·.successor c)

/-- The different columns, in the order in which they first appear. -/
def classColumns (a : Automaton) : List (List Nat) :=
  ((beyondAscii :: List.range beyondAscii).map a.column).eraseDups

theorem length_eraseDups_le {α : Type} [BEq α] (l : List α) : l.eraseDups.length ≤ l.length := by
  match l with
  | [] => exact Nat.le_refl _
  | x :: rest =>
    have shorter : (rest.filter fun y => !y == x).length < rest.length + 1 :=
      Nat.lt_succ_of_le (List.length_filter_le _ rest)
    have ih := length_eraseDups_le (rest.filter fun y => !y == x)
    rw [List.eraseDups_cons, List.length_cons, List.length_cons]
    omega
termination_by l.length

theorem length_classColumns_le (a : Automaton) : a.classColumns.length ≤ numColumns :=
  Nat.le_trans (length_eraseDups_le _) (by simp [beyondAscii, numColumns])

/-- The first entry of every column, then the second of every column, and so on. -/
def transposed (height : Nat) (columns : List (Array Nat)) : Array Nat :=
  ((List.range height).flatMap fun i => columns.map (·.getD i ground)).toArray

def layout (a : Automaton) (few : a.states.size < 65536) : Layout :=
  let columns := a.classColumns
  { name := a.name
    numStates := a.states.size
    numClasses := columns.length
    classes :=
      Layout.classMap ((List.range beyondAscii).map fun code => columns.idxOf (a.column code))
    accept := (a.states.toList.map State.accept).toArray
    labels := (a.states.toList.map State.label).toArray
    transitions := transposed a.states.size (columns.map List.toArray)
    numStates_lt := few
    numClasses_lt := Nat.lt_of_le_of_lt a.length_classColumns_le (by decide) }

def tables (a : Automaton) : Except Error Tables :=
  if few : a.states.size < 65536 then (a.layout few).check
  else fail (.stateCount a.name a.states.size)

end Automaton

end SyntaxPaint

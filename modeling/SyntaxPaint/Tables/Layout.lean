import SyntaxPaint.Error

/-!
A layout is everything that scanner tables consist of, before any of it has been checked: the class
of each character code below 256, and for each state its label, whether it accepts, and its
successor on each class. `Layout.fault?` names the first condition that a layout breaks, and finds
none exactly when the layout is valid.
-/

namespace SyntaxPaint

structure Layout where
  name : String
  numStates : Nat
  numClasses : Nat
  /-- The class of each character code below 256. -/
  classes : Vector Nat 256
  accept : Array Bool
  labels : Array String
  /-- The successors of state 0 on each class, then those of state 1, and so on. -/
  transitions : Array Nat
  numStates_lt : numStates < 65536
  numClasses_lt : numClasses < 65536
deriving DecidableEq

namespace Layout

/-- The class map that lists these classes in order; codes past the end of the list have class 0. -/
def classMap (listed : List Nat) : Vector Nat 256 :=
  ⟨(listed.take 256 ++ List.replicate (256 - listed.length) 0).toArray, by
    simp only [List.size_toArray, List.length_append, List.length_take, List.length_replicate]
    omega⟩

theorem classMap_toList (listed : List Nat) (full : listed.length = 256) :
    (classMap listed).toArray.toList = listed := by
  simp [classMap, ← full]

theorem index_lt {height width row column : Nat} (inside : row < height) (known : column < width) :
    row * width + column < height * width :=
  calc row * width + column < row * width + width := Nat.add_lt_add_left known _
    _ = (row + 1) * width := (Nat.succ_mul row width).symm
    _ ≤ height * width := Nat.mul_le_mul_right width inside

structure Valid (l : Layout) : Prop where
  states_pos : 0 < l.numStates
  classes_pos : 0 < l.numClasses
  accept_size : l.accept.size = l.numStates
  labels_size : l.labels.size = l.numStates
  transitions_size : l.transitions.size = l.numStates * l.numClasses
  class_lt : ∀ c ∈ l.classes.toArray, c < l.numClasses
  target_lt : ∀ s ∈ l.transitions, s < l.numStates

def classFault? (l : Layout) : Option LayoutFault :=
  (l.classes.toArray.toList.findIdx? (l.numClasses ≤ ·)).map fun code =>
    .classRange code (l.classes.toArray.getD code 0) l.numClasses

def targetFault? (l : Layout) : Option LayoutFault :=
  (l.transitions.toList.findIdx? (l.numStates ≤ ·)).map fun i =>
    .targetRange (i / l.numClasses) (i % l.numClasses) (l.transitions.getD i 0) l.numStates

/-- The first condition that the layout breaks: counts come before lengths, lengths before
entries. -/
def fault? (l : Layout) : Option LayoutFault :=
  if l.numStates = 0 then some .noState
  else if l.numClasses = 0 then some .noClass
  else if l.accept.size ≠ l.numStates then some (.acceptCount l.accept.size l.numStates)
  else if l.labels.size ≠ l.numStates then some (.labelCount l.labels.size l.numStates)
  else if l.transitions.size ≠ l.numStates * l.numClasses then
    some (.transitionCount l.transitions.size (l.numStates * l.numClasses))
  else l.classFault?.or l.targetFault?

theorem classFault?_eq_none_iff (l : Layout) :
    l.classFault? = none ↔ ∀ c ∈ l.classes.toArray, c < l.numClasses := by
  simp only [classFault?, Option.map_eq_none_iff, List.findIdx?_eq_none_iff, Array.mem_toList_iff,
    decide_eq_false_iff_not, Nat.not_le]

theorem targetFault?_eq_none_iff (l : Layout) :
    l.targetFault? = none ↔ ∀ s ∈ l.transitions, s < l.numStates := by
  simp only [targetFault?, Option.map_eq_none_iff, List.findIdx?_eq_none_iff, Array.mem_toList_iff,
    decide_eq_false_iff_not, Nat.not_le]

theorem fault?_eq_none_iff (l : Layout) : l.fault? = none ↔ l.Valid := by
  unfold fault?
  constructor
  · intro none
    repeat' split at none
    all_goals try contradiction
    next states classes accept labels transitions =>
      rw [Option.or_eq_none_iff, classFault?_eq_none_iff, targetFault?_eq_none_iff] at none
      exact ⟨Nat.pos_of_ne_zero states, Nat.pos_of_ne_zero classes, Decidable.not_not.1 accept,
        Decidable.not_not.1 labels, Decidable.not_not.1 transitions, none.1, none.2⟩
  · intro valid
    rw [if_neg (Nat.ne_of_gt valid.states_pos), if_neg (Nat.ne_of_gt valid.classes_pos),
      if_neg (by simp [valid.accept_size]), if_neg (by simp [valid.labels_size]),
      if_neg (by simp [valid.transitions_size]), Option.or_eq_none_iff,
      classFault?_eq_none_iff, targetFault?_eq_none_iff]
    exact ⟨valid.class_lt, valid.target_lt⟩

end Layout

end SyntaxPaint

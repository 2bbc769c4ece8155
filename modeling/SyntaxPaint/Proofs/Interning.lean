import Std.Data.HashMap
import Mathlib.Data.List.Basic
import SyntaxPaint.Tables.Automaton

/-!
The classes of an automaton, found by one pass over the codes. A column that has been seen before is
looked up, and any other one gets the next number. `Automaton.layout_eq_run` says that the pass
numbers the columns as `Automaton.layout` does, which compares each of them with all that come
before it.
-/

namespace SyntaxPaint

theorem Layout.classMap_concat {listed : List Nat} (room : listed.length < 256) (cls : Nat) :
    classMap (listed ++ [cls]) = (classMap listed).setIfInBounds listed.length cls := by
  apply Vector.toArray_inj.1
  apply Array.toList_inj.1
  have size : 256 - listed.length = 255 - listed.length + 1 := by omega
  have whole : (listed ++ [cls]).take 256 = listed ++ [cls] :=
    List.take_of_length_le (by rw [List.length_append, List.length_singleton]; omega)
  simp [classMap, whole, size, List.take_of_length_le (Nat.le_of_lt room), List.replicate_succ]

namespace Automaton

theorem eraseDups_concat {α : Type} [BEq α] [LawfulBEq α] (l : List α) (x : α) :
    (l ++ [x]).eraseDups = if x ∈ l then l.eraseDups else l.eraseDups ++ [x] := by
  rw [List.eraseDups_append, List.removeAll]
  by_cases listed : x ∈ l
  · simp [listed]
  · simp [listed, List.eraseDups_cons]

/-- What a pass over codes has come to. -/
structure Interning where
  columns : Array (List Nat)
  /-- The place of each column that has been seen. -/
  numbers : Std.HashMap (List Nat) Nat
  classes : Vector Nat 256

namespace Interning

/-- The column of the codes beyond ASCII goes first, so that their class is 0. -/
def start (a : Automaton) : Interning where
  columns := #[a.column beyondAscii]
  numbers := (∅ : Std.HashMap (List Nat) Nat).insert (a.column beyondAscii) 0
  classes := Vector.replicate 256 0

def step (a : Automaton) (s : Interning) (code : Nat) : Interning :=
  match s.numbers[a.column code]? with
  | some cls => { s with classes := s.classes.setIfInBounds code cls }
  | none =>
    { columns := s.columns.push (a.column code)
      numbers := s.numbers.insert (a.column code) s.columns.size
      classes := s.classes.setIfInBounds code s.columns.size }

def run (a : Automaton) (codes : List Nat) : Interning :=
  codes.foldl (step a) (start a)

end Interning

/-- The columns of the codes before `stop`, after the one of the codes beyond ASCII. -/
def seen (a : Automaton) (stop : Nat) : List (List Nat) :=
  (beyondAscii :: List.range stop).map a.column

theorem seen_succ (a : Automaton) (code : Nat) :
    a.seen (code + 1) = a.seen code ++ [a.column code] := by
  rw [seen, List.range_succ, ← List.cons_append, List.map_append, List.map_singleton, seen]

namespace Interning

/-- What holds of a pass that has come to a code. -/
structure Reaches (a : Automaton) (code : Nat) (s : Interning) : Prop where
  columns_eq : s.columns.toList = (a.seen code).eraseDups
  numbers_eq : ∀ column, s.numbers[column]? =
    if column ∈ a.seen code then some ((a.seen code).eraseDups.idxOf column) else none
  classes_eq : s.classes =
    Layout.classMap ((List.range code).map fun c => (a.seen code).eraseDups.idxOf (a.column c))

variable {a : Automaton} {s : Interning} {code stop : Nat}

theorem reaches_start (a : Automaton) : (start a).Reaches a 0 where
  columns_eq := rfl
  numbers_eq column := by
    rw [start, Std.HashMap.getElem?_insert]
    by_cases same : a.column beyondAscii = column
    · subst same
      simp [seen, List.eraseDups_cons]
    · simp [same, Ne.symm same, seen]
  classes_eq := rfl

/-- A column keeps its number when more columns have been seen. -/
theorem idxOf_seen_succ {column : List Nat} (listed : column ∈ a.seen code) :
    (a.seen (code + 1)).eraseDups.idxOf column = (a.seen code).eraseDups.idxOf column := by
  rw [seen_succ, eraseDups_concat]
  split
  · rfl
  · rw [List.idxOf_append, if_pos (List.mem_eraseDups.2 listed)]

/-- The class map of a pass is kept up by writing one more class. -/
theorem Reaches.classes_step (reaches : s.Reaches a code) (room : code < 256) {cls : Nat}
    (number : (a.seen (code + 1)).eraseDups.idxOf (a.column code) = cls) :
    s.classes.setIfInBounds code cls = Layout.classMap
      ((List.range (code + 1)).map fun c => (a.seen (code + 1)).eraseDups.idxOf (a.column c)) := by
  have same : (List.range code).map (fun c => (a.seen (code + 1)).eraseDups.idxOf (a.column c)) =
      (List.range code).map fun c => (a.seen code).eraseDups.idxOf (a.column c) :=
    List.map_congr_left fun c before =>
      idxOf_seen_succ (List.mem_map_of_mem (List.mem_cons_of_mem _ before))
  have place : ((List.range code).map fun c => (a.seen code).eraseDups.idxOf (a.column c)).length =
      code := by
    rw [List.length_map, List.length_range]
  rw [List.range_succ, List.map_append, List.map_singleton, same, number,
    Layout.classMap_concat (by rwa [place]), place, reaches.classes_eq]

/-- A code whose column has been seen has the class of that column. -/
theorem Reaches.step_of_seen (reaches : s.Reaches a code) (room : code < 256)
    (listed : a.column code ∈ a.seen code) : (s.step a code).Reaches a (code + 1) := by
  have distinct : (a.seen (code + 1)).eraseDups = (a.seen code).eraseDups := by
    rw [seen_succ, eraseDups_concat, if_pos listed]
  have number : s.numbers[a.column code]? =
      some ((a.seen code).eraseDups.idxOf (a.column code)) := by
    rw [reaches.numbers_eq, if_pos listed]
  rw [Interning.step, number]
  exact
    { columns_eq := reaches.columns_eq.trans distinct.symm
      numbers_eq column := by
        have members : column ∈ a.seen (code + 1) ↔ column ∈ a.seen code := by
          rw [← List.mem_eraseDups, distinct, List.mem_eraseDups]
        simp only [reaches.numbers_eq, members, distinct]
      classes_eq := reaches.classes_step room (by rw [distinct]) }

/-- A code with a column of its own has the next class. -/
theorem Reaches.step_of_new (reaches : s.Reaches a code) (room : code < 256)
    (new : a.column code ∉ a.seen code) : (s.step a code).Reaches a (code + 1) := by
  have distinct : (a.seen (code + 1)).eraseDups = (a.seen code).eraseDups ++ [a.column code] := by
    rw [seen_succ, eraseDups_concat, if_neg new]
  have fresh : s.numbers[a.column code]? = none := by rw [reaches.numbers_eq, if_neg new]
  have size : s.columns.size = (a.seen code).eraseDups.length := by
    rw [← Array.length_toList, reaches.columns_eq]
  have last : (a.seen (code + 1)).eraseDups.idxOf (a.column code) = s.columns.size := by
    rw [distinct, List.idxOf_append, if_neg (mt List.mem_eraseDups.1 new), List.idxOf_cons_self,
      Nat.zero_add, size]
  rw [Interning.step, fresh]
  exact
    { columns_eq := by rw [Array.toList_push, reaches.columns_eq, distinct]
      numbers_eq column := by
        rw [Std.HashMap.getElem?_insert, reaches.numbers_eq]
        by_cases same : a.column code = column
        · subst same
          simp [seen_succ, ← last]
        · have members : column ∈ a.seen (code + 1) ↔ column ∈ a.seen code := by
            simp [seen_succ, Ne.symm same]
          by_cases before : column ∈ a.seen code
          · simp [same, members, before, idxOf_seen_succ before]
          · simp [same, members, before]
      classes_eq := reaches.classes_step room last }

theorem Reaches.step (reaches : s.Reaches a code) (room : code < 256) :
    (s.step a code).Reaches a (code + 1) := by
  by_cases listed : a.column code ∈ a.seen code
  · exact reaches.step_of_seen room listed
  · exact reaches.step_of_new room listed

theorem reaches_run (small : stop ≤ 256) : (run a (List.range stop)).Reaches a stop := by
  induction stop with
  | zero => exact reaches_start a
  | succ stop ih =>
    rw [run, List.range_succ, List.foldl_append, List.foldl_cons, List.foldl_nil]
    exact (ih (Nat.le_of_succ_le small)).step small

end Interning

/-- One pass over the ASCII codes finds the columns of a layout and the class of each code. -/
theorem layout_eq_run (a : Automaton) (few : a.states.size < 65536) :
    let found := Interning.run a (List.range beyondAscii)
    found.columns.toList = a.classColumns ∧ found.columns.size = (a.layout few).numClasses ∧
      found.classes = (a.layout few).classes := by
  intro found
  have reaches : found.Reaches a beyondAscii := Interning.reaches_run (by decide)
  refine ⟨reaches.columns_eq, ?_, reaches.classes_eq⟩
  rw [← Array.length_toList, reaches.columns_eq]
  rfl

end Automaton

end SyntaxPaint

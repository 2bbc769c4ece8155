import SyntaxPaint.Tables.Automaton

/-!
Scanner tables step as the automaton does that they are made from: giving equal columns one class
loses no edge.
-/

namespace SyntaxPaint

theorem getElem?_flatMap_range {β : Type} {f : Nat → List β} {height width i k : Nat}
    (uniform : ∀ j, (f j).length = width) (row : i < height) (column : k < width) :
    ((List.range height).flatMap f)[i * width + k]? = (f i)[k]? := by
  induction height with
  | zero => contradiction
  | succ height ih =>
    have size : ((List.range height).flatMap f).length = height * width := by
      simp only [List.length_flatMap, uniform, List.map_const', List.sum_replicate_nat,
        List.length_range]
    rw [List.range_succ, List.flatMap_append, List.flatMap_singleton]
    by_cases last : i = height
    · subst last
      rw [List.getElem?_append_right (by omega), size, Nat.add_sub_cancel_left]
    · have before : i < height := by omega
      have inside : i * width + k < height * width := Layout.index_lt before column
      rw [List.getElem?_append_left (by omega), ih before]

namespace Automaton

variable {a : Automaton} {code : Nat}

theorem getD_transposed {columns : List (Array Nat)} {entries : Array Nat} {height i k : Nat}
    (row : i < height) (found : columns[k]? = some entries) :
    (transposed height columns).getD (i * columns.length + k) ground = entries.getD i ground := by
  have column : k < columns.length := (List.getElem?_eq_some_iff.1 found).1
  rw [Array.getD_eq_getD_getElem?, transposed, List.getElem?_toArray,
    getElem?_flatMap_range (fun _ => List.length_map _) row column, List.getElem?_map, found]
  rfl

theorem column_mem_classColumns (a : Automaton) (code : Nat) :
    a.column (columnOf code) ∈ a.classColumns := by
  rw [classColumns, List.mem_eraseDups, List.mem_map]
  refine ⟨columnOf code, ?_, rfl⟩
  rw [List.mem_cons, List.mem_range, columnOf]
  omega

theorem classOf_layout {few : a.states.size < 65536} {t : Tables} (same : t.toLayout = a.layout few)
    (code : Nat) : t.classOf code = a.classColumns.idxOf (a.column (columnOf code)) := by
  unfold Tables.classOf
  rw [same]
  by_cases ascii : code < asciiLimit
  · have column : columnOf code = code := Nat.min_eq_left (Nat.le_of_lt ascii)
    rw [if_pos ascii, column]
    have listed : code < (List.range beyondAscii).length := by
      rw [List.length_range]
      exact ascii
    have room : code < 256 := Nat.lt_trans ascii (by decide)
    have kept : code < (((List.range beyondAscii).map fun c =>
        a.classColumns.idxOf (a.column c)).take 256).length := by
      rw [List.length_take, List.length_map]
      exact Nat.lt_min.2 ⟨room, listed⟩
    rw [Array.getD_eq_getD_getElem?, layout, Layout.classMap, List.getElem?_toArray,
      List.getElem?_append_left kept, List.getElem?_take, if_pos room, List.getElem?_map,
      List.getElem?_eq_getElem listed, List.getElem_range]
    rfl
  · have column : columnOf code = beyondAscii := Nat.min_eq_right (Nat.le_of_not_lt ascii)
    rw [if_neg ascii, column, classColumns, List.map_cons, List.eraseDups_cons,
      List.idxOf_cons_self]

theorem step_layout {few : a.states.size < 65536} {t : Tables} (same : t.toLayout = a.layout few)
    {state : Nat} (inside : state < a.states.size) (code : Nat) :
    t.step state code = a.states[state].successor (columnOf code) := by
  have member := a.column_mem_classColumns code
  have place : a.classColumns.idxOf (a.column (columnOf code)) < a.classColumns.length :=
    List.idxOf_lt_length_iff.2 member
  have found : (a.classColumns.map List.toArray)[a.classColumns.idxOf (a.column (columnOf code))]? =
      some (a.column (columnOf code)).toArray := by
    rw [List.getElem?_map, List.getElem?_eq_getElem place, List.getElem_idxOf]
    rfl
  have entry := getD_transposed inside found
  rw [List.length_map] at entry
  unfold Tables.step Tables.next
  rw [classOf_layout same, same]
  refine entry.trans ?_
  rw [Array.getD_eq_getD_getElem?, List.getElem?_toArray, column, List.getElem?_map,
    Array.getElem?_toList, Array.getElem?_eq_getElem inside]
  rfl

end Automaton

end SyntaxPaint

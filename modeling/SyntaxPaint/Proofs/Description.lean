import Mathlib.Tactic.SplitIfs
import SyntaxPaint.Proofs.Compression

/-!
What a description says of an automaton, whatever its edits overwrite: an edge leads where the last
edit about it leads it, and to the ground state if there is none. Tables can be made if sixteen bits
number the states and every edge leads to one of them, and then they do what the description says.
-/

namespace SyntaxPaint

namespace Automaton

def Edit.target? (state column : Nat) : Edit → Option Nat
  | .state .. => none
  | .edges source columns target =>
    if source = state ∧ columns.contains column then some target else none

/-- Where the last edit about a column of a state leads it. -/
def lastTarget (edits : List Edit) (state column : Nat) : Nat :=
  (edits.reverse.findSome? (Edit.target? state column)).getD ground

def Edit.added? : Edit → Option (String × Bool)
  | .state _ label accept => some (label, accept)
  | .edges .. => none

def described (groundLabel : String) (edits : List Edit) : List (String × Bool) :=
  (groundLabel, false) :: edits.filterMap Edit.added?

def State.kind (s : State) : String × Bool :=
  (s.label, s.accept)

def kinds (a : Automaton) : List (String × Bool) :=
  a.states.toList.map State.kind

/-- The successor of a state on a column; a state that does not exist has the ground state. -/
def successor (a : Automaton) (state column : Nat) : Nat :=
  (a.states[state]?.map (·.successor column)).getD ground

@[simp] theorem length_kinds (a : Automaton) : a.kinds.length = a.states.size := by
  simp [kinds]

theorem Columns.contains_of_isEmpty {columns : Columns} (empty : columns.isEmpty = true)
    (column : Nat) :
    columns.contains column = false := by
  cases columns with
  | codes listed => simp_all [isEmpty, contains]
  | range first last =>
    simp only [isEmpty, contains, decide_eq_true_eq, decide_eq_false_iff_not] at empty ⊢
    omega
  | beyond | allExcept => contradiction

section Edits

variable {a b c : Automaton} {e : Edit} {before edits : List Edit}

theorem edit?_edges {source target : Nat} {columns : Columns}
    (made : a.edit? (.edges source columns target) = some b) :
    (columns.isEmpty = true ∨ source < a.states.size) ∧
      b = { a with states := a.states.modify source (·.lead columns target) } := by
  simp only [edit?] at made
  split_ifs at made with known
  simp only [Bool.and_eq_true, Bool.or_eq_true, decide_eq_true_eq] at known
  exact ⟨known.2, (Option.some.inj made).symm⟩

theorem successor_edit? (made : a.edit? e = some b) (state column : Nat) :
    b.successor state column = (e.target? state column).getD (a.successor state column) := by
  cases e with
  | state comment label accept =>
    cases made
    simp only [successor, Edit.target?, Array.getElem?_push]
    split_ifs with last
    · subst last
      simp [State.new]
    · rfl
  | edges source columns target =>
    obtain ⟨known, rfl⟩ := edit?_edges made
    simp only [successor, Edit.target?, Array.getElem?_modify]
    by_cases here : source = state
    · subst here
      cases covered : columns.contains column with
      | false => cases a.states[source]? <;> simp [State.lead, covered]
      | true =>
        have inside : source < a.states.size := by
          refine known.resolve_left fun empty => ?_
          rw [Columns.contains_of_isEmpty empty] at covered
          contradiction
        simp [State.lead, covered, inside]
    · simp [here]

theorem kinds_edit? (made : a.edit? e = some b) : b.kinds = a.kinds ++ e.added?.toList := by
  cases e with
  | state comment label accept =>
    cases made
    simp [kinds, Edit.added?, State.kind, State.new]
  | edges source columns target =>
    obtain ⟨-, rfl⟩ := edit?_edges made
    apply List.ext_getElem?
    intro i
    simp only [kinds, Edit.added?, Option.toList_none, List.append_nil, List.getElem?_map,
      Array.getElem?_toList, Array.getElem?_modify]
    split_ifs
    · cases a.states[i]? <;> rfl
    · rfl

theorem name_edit? (made : a.edit? e = some b) : b.name = a.name := by
  cases e with
  | state comment label accept =>
    cases made
    rfl
  | edges source columns target =>
    obtain ⟨-, rfl⟩ := edit?_edges made
    rfl

structure Follows (a : Automaton) (edits : List Edit) (b : Automaton) : Prop where
  name_eq : b.name = a.name
  kinds_eq : b.kinds = a.kinds ++ edits.filterMap Edit.added?
  successor_eq : ∀ state column, b.successor state column =
    (edits.reverse.findSome? (Edit.target? state column)).getD (a.successor state column)

theorem Follows.nil (a : Automaton) : Follows a [] a where
  name_eq := rfl
  kinds_eq := (List.append_nil _).symm
  successor_eq _ _ := rfl

theorem Follows.edit (follows : Follows a edits b) (made : b.edit? e = some c) :
    Follows a (edits ++ [e]) c where
  name_eq := (name_edit? made).trans follows.name_eq
  kinds_eq := by
    rw [kinds_edit? made, follows.kinds_eq, List.filterMap_append, List.append_assoc]
    cases e <;> rfl
  successor_eq state column := by
    rw [successor_edit? made, follows.successor_eq, List.reverse_append, List.reverse_singleton,
      List.findSome?_append, List.findSome?_singleton, Option.getD_or]

theorem Follows.run (follows : Follows a before b) (made : b.edits? edits = some c) :
    Follows a (before ++ edits) c := by
  induction edits generalizing before b with
  | nil =>
    cases made
    rwa [List.append_nil]
  | cons e edits ih =>
    obtain ⟨middle, first, later⟩ := Option.bind_eq_some_iff.1 made
    rw [List.append_cons]
    exact ih (follows.edit first) later

end Edits

section Layout

variable {a : Automaton} {few : a.states.size < 65536}

theorem mem_columns_iff {column : Nat} :
    column ∈ beyondAscii :: List.range beyondAscii ↔ column < numColumns := by
  simp only [List.mem_cons, List.mem_range, beyondAscii, numColumns]
  omega

theorem mem_classColumns_iff {entries : List Nat} :
    entries ∈ a.classColumns ↔ ∃ column < numColumns, a.column column = entries := by
  simp only [classColumns, List.mem_eraseDups, List.mem_map, mem_columns_iff]

theorem getD_column (a : Automaton) (state column : Nat) :
    (a.column column).toArray.getD state ground = a.successor state column := by
  simp [Array.getD_eq_getD_getElem?, Automaton.column, successor]

theorem mem_transitions_iff {target : Nat} :
    target ∈ (a.layout few).transitions ↔
      ∃ state < a.states.size, ∃ column < numColumns, a.successor state column = target := by
  simp only [layout, transposed, List.mem_toArray, List.mem_flatMap, List.mem_range, List.map_map,
    List.mem_map, Function.comp_apply]
  constructor
  · rintro ⟨state, inside, entries, listed, rfl⟩
    obtain ⟨column, known, rfl⟩ := mem_classColumns_iff.1 listed
    exact ⟨state, inside, column, known, (getD_column a state column).symm⟩
  · rintro ⟨state, inside, column, known, rfl⟩
    exact ⟨state, inside, a.column column, mem_classColumns_iff.2 ⟨column, known, rfl⟩,
      getD_column a state column⟩

theorem class_lt {cls : Nat} (listed : cls ∈ (a.layout few).classes.toArray) :
    cls < a.classColumns.length := by
  have some : 0 < a.classColumns.length :=
    List.length_pos_of_mem (a.column_mem_classColumns beyondAscii)
  simp only [layout, Layout.classMap, List.mem_toArray, List.mem_append,
    List.mem_replicate] at listed
  cases listed with
  | inl mapped =>
    obtain ⟨code, ascii, rfl⟩ := List.mem_map.1 (List.mem_of_mem_take mapped)
    refine List.idxOf_lt_length_iff.2 (mem_classColumns_iff.2 ⟨code, ?_, rfl⟩)
    exact Nat.lt_succ_of_lt (List.mem_range.1 ascii)
  | inr filled => exact filled.2 ▸ some

theorem valid_layout_iff (some : 0 < a.states.size) :
    (a.layout few).Valid ↔
      ∀ state < a.states.size, ∀ column < numColumns, a.successor state column < a.states.size := by
  constructor
  · intro valid state inside column known
    exact valid.target_lt _ (mem_transitions_iff.2 ⟨state, inside, column, known, rfl⟩)
  · intro inside
    refine ⟨some, ?_, ?_, ?_, ?_, fun cls => class_lt, fun target listed => ?_⟩
    · exact List.length_pos_of_mem (a.column_mem_classColumns beyondAscii)
    · simp [layout]
    · simp [layout]
    · simp only [layout, transposed, List.size_toArray, List.length_flatMap, List.length_map,
        List.map_const', List.length_range, List.sum_replicate_nat]
    · obtain ⟨state, member, column, known, rfl⟩ := mem_transitions_iff.1 listed
      exact inside state member column known

theorem exists_tables_iff (some : 0 < a.states.size) :
    (∃ t, a.tables = .ok t) ↔ a.states.size < 65536 ∧
      ∀ state < a.states.size, ∀ column < numColumns, a.successor state column < a.states.size := by
  unfold tables
  by_cases few : a.states.size < 65536
  · rw [dif_pos few, Layout.exists_check_iff, valid_layout_iff some, and_iff_right few]
  · simp [few, fail]

theorem toLayout_of_tables {t : Tables} (made : a.tables = .ok t) :
    ∃ few, t.toLayout = a.layout few := by
  unfold tables at made
  split at made
  · next few => exact ⟨few, Layout.toLayout_of_check made⟩
  · contradiction

end Layout

/-- Tables can be made from a description exactly when it has no more than 65535 states and none of
its edges leads anywhere else. They have the states that are described, in order, and step from one
to the other as the last edit about an edge says. -/
theorem tables_of_edits (name groundLabel : String) (edits : List Edit) (a : Automaton)
    (made : (new name groundLabel).edits? edits = some a) :
    let states := described groundLabel edits
    ((∃ t, a.tables = .ok t) ↔ states.length ≤ 65535 ∧
        ∀ state < states.length, ∀ column < numColumns,
          lastTarget edits state column < states.length) ∧
      ∀ t, a.tables = .ok t →
        t.name = name ∧ t.numStates = states.length ∧ t.labels.toList = states.map Prod.fst ∧
          t.accept.toList = states.map Prod.snd ∧
          ∀ state < states.length, ∀ code,
            t.next state (t.classOf code) = lastTarget edits state (columnOf code) := by
  intro states
  have follows : Follows (new name groundLabel) edits a := (Follows.nil _).run made
  have kinds : a.kinds = states := follows.kinds_eq
  have size : a.states.size = states.length := by rw [← length_kinds, kinds]
  have successor (state column : Nat) :
      a.successor state column = lastTarget edits state column := by
    rw [follows.successor_eq, lastTarget]
    congr 1
    cases state <;> rfl
  have some : 0 < a.states.size := by
    rw [size]
    exact Nat.succ_pos _
  constructor
  · simp only [exists_tables_iff some, size, successor, Nat.lt_succ_iff]
  · intro t built
    obtain ⟨few, same⟩ := toLayout_of_tables built
    refine ⟨?_, ?_, ?_, ?_, fun state inside code => ?_⟩
    · rw [same]
      exact follows.name_eq
    · rw [same]
      exact size
    · rw [same, ← kinds]
      simp [layout, Automaton.kinds, State.kind, Function.comp_def]
    · rw [same, ← kinds]
      simp [layout, Automaton.kinds, State.kind, Function.comp_def]
    · have listed : state < a.states.size := size ▸ inside
      rw [← successor]
      refine (step_layout same listed code).trans ?_
      simp [Automaton.successor, listed]

/-- Some of these edits overwrite others; the first of them leads to a state that does not exist. -/
def overlapping : List Edit :=
  [.state "letter" "word" false, .edges 0 (.codes [98]) 7, .edges 0 (.allExcept [97]) 1,
    .edges 0 (.range 97 98) 0, .edges 1 .beyond 1, .state "point" "stop" true,
    .edges 1 (.codes [46, 46]) 2]

theorem tables_of_overlapping :
    ∃ a t, (new "words" "").edits? overlapping = some a ∧ a.tables = .ok t ∧
      t.labels.toList = ["", "word", "stop"] ∧ t.accept.toList = [false, false, true] ∧
      t.next 0 (t.classOf 98) = 0 ∧ t.next 0 (t.classOf 99) = 1 ∧ t.next 1 (t.classOf 955) = 1 ∧
      t.next 1 (t.classOf 46) = 2 := by
  obtain ⟨a, made⟩ : ∃ a, (new "words" "").edits? overlapping = some a :=
    Option.isSome_iff_exists.1 (by decide +kernel)
  obtain ⟨built, same⟩ := tables_of_edits "words" "" overlapping a made
  obtain ⟨t, ready⟩ := built.2 (by decide +kernel)
  obtain ⟨-, -, labels, accept, next⟩ := same t ready
  refine ⟨a, t, made, ready, labels.trans (by decide), accept.trans (by decide), ?_, ?_, ?_, ?_⟩
  · exact (next 0 (by decide) 98).trans (by decide)
  · exact (next 0 (by decide) 99).trans (by decide)
  · exact (next 1 (by decide) 955).trans (by decide)
  · exact (next 1 (by decide) 46).trans (by decide)

end Automaton

end SyntaxPaint

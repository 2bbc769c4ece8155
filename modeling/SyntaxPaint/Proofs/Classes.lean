import Mathlib.Data.Finset.Card
import Mathlib.Data.Finset.Image
import SyntaxPaint.Proofs.Description

/-!
The classes of character codes are as few as the edges allow. Two codes share a class exactly when
no state tells them apart, and the classes are numbered in the order in which they first appear, so
that tables depend on what a description says and not on the order of its edits.
-/

namespace SyntaxPaint

section Duplicates

variable {α β : Type} [BEq α] [LawfulBEq α] [BEq β] [LawfulBEq β]

theorem nodup_eraseDups (l : List α) : l.eraseDups.Nodup := by
  match l with
  | [] => exact List.nodup_nil
  | x :: rest =>
    have shorter : (rest.filter fun y => !y == x).length < rest.length + 1 :=
      Nat.lt_succ_of_le (List.length_filter_le _ rest)
    have ih := nodup_eraseDups (rest.filter fun y => !y == x)
    rw [List.eraseDups_cons, List.nodup_cons, List.mem_eraseDups, List.mem_filter]
    exact ⟨by simp, ih⟩
termination_by l.length

theorem eraseDups_map {f : α → β} (l : List α) (injective : ∀ x ∈ l, ∀ y ∈ l, f x = f y → x = y) :
    (l.map f).eraseDups = l.eraseDups.map f := by
  match l with
  | [] => rfl
  | x :: rest =>
    have shorter : (rest.filter fun y => !y == x).length < rest.length + 1 :=
      Nat.lt_succ_of_le (List.length_filter_le _ rest)
    have ih := eraseDups_map (rest.filter fun y => !y == x) fun y left z right =>
      injective y (List.mem_cons_of_mem _ (List.mem_of_mem_filter left)) z
        (List.mem_cons_of_mem _ (List.mem_of_mem_filter right))
    have alike (y : α) (member : y ∈ rest) : (f y == f x) = (y == x) := by
      rw [Bool.eq_iff_iff, beq_iff_eq, beq_iff_eq]
      exact ⟨injective y (List.mem_cons_of_mem _ member) x List.mem_cons_self, congrArg f⟩
    have same (y : α) (member : y ∈ rest) : ((fun z => !z == f x) ∘ f) y = !y == x :=
      congrArg not (alike y member)
    rw [List.map_cons, List.eraseDups_cons, List.filter_map, List.filter_congr same, ih,
      List.eraseDups_cons, List.map_cons]
termination_by l.length

theorem map_idxOf_of_nodup {l : List α} (nodup : l.Nodup) :
    l.map l.idxOf = List.range l.length := by
  apply List.ext_getElem
  · rw [List.length_map, List.length_range]
  · intro i inside _
    rw [List.getElem_map, List.getElem_range, nodup.idxOf_getElem]

/-- Entries that are numbered as they first appear have the numbers from 0 on, in order. -/
theorem eraseDups_map_idxOf (l : List α) :
    (l.map l.eraseDups.idxOf).eraseDups = List.range l.eraseDups.length := by
  rw [eraseDups_map l, map_idxOf_of_nodup (nodup_eraseDups l)]
  intro x left y right same
  exact (List.idxOf_inj (List.mem_eraseDups.2 left)).1 same

end Duplicates

namespace Automaton

variable {a b : Automaton} {t : Tables} {few : a.states.size < 65536}

section Edits

variable {name groundLabel : String} {edits : List Edit}

theorem name_of_edits (made : (new name groundLabel).edits? edits = some a) : a.name = name :=
  ((Follows.nil _).run made).name_eq

theorem kinds_of_edits (made : (new name groundLabel).edits? edits = some a) :
    a.kinds = described groundLabel edits :=
  ((Follows.nil _).run made).kinds_eq

theorem size_of_edits (made : (new name groundLabel).edits? edits = some a) :
    a.states.size = (described groundLabel edits).length := by
  rw [← length_kinds, kinds_of_edits made]

theorem successor_of_edits (made : (new name groundLabel).edits? edits = some a)
    (state column : Nat) :
    a.successor state column = lastTarget edits state column := by
  have nowhere : (new name groundLabel).successor state column = ground := by
    cases state <;> rfl
  rw [((Follows.nil _).run made).successor_eq, nowhere]
  rfl

end Edits

theorem column_eq_map_successor (a : Automaton) (column : Nat) :
    a.column column = (List.range a.states.size).map fun state => a.successor state column := by
  apply List.ext_getElem
  · simp [Automaton.column]
  · intro i inside listed
    have state : i < a.states.size := by simpa using listed
    simp [Automaton.column, successor, state]

theorem column_eq_iff {column other : Nat} : a.column column = a.column other ↔
    ∀ state < a.states.size, a.successor state column = a.successor state other := by
  simp only [column_eq_map_successor, List.map_inj_left, List.mem_range]

theorem classOf_eq_iff (same : t.toLayout = a.layout few) (code other : Nat) :
    t.classOf code = t.classOf other ↔ a.column (columnOf code) = a.column (columnOf other) := by
  rw [classOf_layout same, classOf_layout same]
  exact List.idxOf_inj (a.column_mem_classColumns code)

theorem numClasses_eq_length (same : t.toLayout = a.layout few) :
    t.numClasses = a.classColumns.length := by
  rw [same]
  rfl

theorem eraseDups_map_classOf (same : t.toLayout = a.layout few) :
    ((beyondAscii :: List.range beyondAscii).map t.classOf).eraseDups =
      List.range t.numClasses := by
  -- The codes are listed in the order in which `classColumns` lists their columns.
  have classes : (beyondAscii :: List.range beyondAscii).map t.classOf =
      ((beyondAscii :: List.range beyondAscii).map a.column).map a.classColumns.idxOf := by
    rw [List.map_map]
    refine List.map_congr_left fun code listed => ?_
    have inside : code ≤ beyondAscii := Nat.lt_succ_iff.1 (mem_columns_iff.1 listed)
    rw [classOf_layout same, columnOf, Nat.min_eq_left inside, Function.comp_apply]
  rw [classes, numClasses_eq_length same]
  exact eraseDups_map_idxOf _

theorem numClasses_eq_card (same : t.toLayout = a.layout few) :
    t.numClasses = ((Finset.range numColumns).image a.column).card := by
  have distinct : (Finset.range numColumns).image a.column = a.classColumns.toFinset := by
    ext entries
    simp only [Finset.mem_image, Finset.mem_range, List.mem_toFinset, mem_classColumns_iff]
  have nodup : a.classColumns.Nodup := nodup_eraseDups _
  rw [numClasses_eq_length same, distinct, List.toFinset_card_of_nodup nodup]

theorem classColumns_congr (columns : ∀ c < numColumns, a.column c = b.column c) :
    a.classColumns = b.classColumns := by
  have same : (beyondAscii :: List.range beyondAscii).map a.column =
      (beyondAscii :: List.range beyondAscii).map b.column :=
    List.map_congr_left fun c listed => columns c (mem_columns_iff.1 listed)
  rw [classColumns, same, ← classColumns]

theorem tables_congr (name : a.name = b.name) (kinds : a.kinds = b.kinds)
    (columns : ∀ c < numColumns, a.column c = b.column c) : a.tables = b.tables := by
  have size : a.states.size = b.states.size := by rw [← length_kinds, kinds, length_kinds]
  have classes : (List.range beyondAscii).map (fun code => b.classColumns.idxOf (a.column code)) =
      (List.range beyondAscii).map fun code => b.classColumns.idxOf (b.column code) :=
    List.map_congr_left fun code listed => by
      rw [columns code (Nat.lt_succ_of_lt (List.mem_range.1 listed))]
  have accept : a.states.toList.map State.accept = b.states.toList.map State.accept := by
    simpa [Automaton.kinds, State.kind, Function.comp_def] using congrArg (List.map Prod.snd) kinds
  have labels : a.states.toList.map State.label = b.states.toList.map State.label := by
    simpa [Automaton.kinds, State.kind, Function.comp_def] using congrArg (List.map Prod.fst) kinds
  unfold tables
  by_cases few : a.states.size < 65536
  · have fewOther : b.states.size < 65536 := size ▸ few
    have same : a.layout few = b.layout fewOther := by
      simp only [layout, name, size, classColumns_congr columns, classes, accept, labels]
    rw [dif_pos few, dif_pos fewOther, same]
  · have many : ¬b.states.size < 65536 := size ▸ few
    rw [dif_neg few, dif_neg many, name, size]

/-- What a description says decides the classes. Codes share one exactly when they lead every state
to the same target; the codes from 128 on have the first, and the others follow in the order in
which they appear, as many as there are different columns. Whatever describes the same states and
edges makes the same tables. -/
theorem classes_of_edits (name groundLabel : String) (edits : List Edit) (a : Automaton)
    (t : Tables) (made : (new name groundLabel).edits? edits = some a) (built : a.tables = .ok t) :
    let states := described groundLabel edits
    (∀ code other, t.classOf code = t.classOf other ↔
        ∀ state < states.length, lastTarget edits state (columnOf code) =
          lastTarget edits state (columnOf other)) ∧
      (∀ code, beyondAscii ≤ code → t.classOf code = 0) ∧
      ((beyondAscii :: List.range beyondAscii).map t.classOf).eraseDups = List.range t.numClasses ∧
      t.numClasses = ((Finset.range numColumns).image fun column =>
        (List.range states.length).map fun state => lastTarget edits state column).card ∧
      ∀ otherLabel otherEdits b, (new name otherLabel).edits? otherEdits = some b →
        described otherLabel otherEdits = states →
        (∀ state < states.length, ∀ column < numColumns,
          lastTarget otherEdits state column = lastTarget edits state column) →
        b.tables = .ok t := by
  intro states
  obtain ⟨few, same⟩ := toLayout_of_tables built
  have size : a.states.size = states.length := size_of_edits made
  refine ⟨fun code other => ?_, fun code => t.classOf_of_le, eraseDups_map_classOf same, ?_, ?_⟩
  · simp only [classOf_eq_iff same, column_eq_iff, size, successor_of_edits made]
  · have columns : a.column = fun column =>
        (List.range states.length).map fun state => lastTarget edits state column := by
      funext column
      simp only [column_eq_map_successor, size, successor_of_edits made]
    rw [numClasses_eq_card same, columns]
  · intro otherLabel otherEdits b madeOther kinds targets
    have alike : b.kinds = a.kinds := by rw [kinds_of_edits madeOther, kinds, kinds_of_edits made]
    have sizeOther : b.states.size = states.length := by rw [size_of_edits madeOther, kinds]
    have columns (column : Nat) (known : column < numColumns) :
        b.column column = a.column column := by
      simp only [column_eq_map_successor, sizeOther, size, successor_of_edits madeOther,
        successor_of_edits made, List.map_inj_left, List.mem_range]
      exact fun state inside => targets state inside column known
    have names : b.name = a.name := by rw [name_of_edits madeOther, name_of_edits made]
    rw [tables_congr names alike columns, built]

def reordered : List Edit :=
  [.state "sign" "word" false, .state "stop" "stop" true, .edges 1 (.codes [46]) 2,
    .edges 1 .beyond 1, .edges 0 (.allExcept [97, 98]) 1]

theorem classes_of_overlapping :
    ∃ a b t, (new "words" "").edits? overlapping = some a ∧
      (new "words" "").edits? reordered = some b ∧
      a.tables = .ok t ∧ b.tables = .ok t ∧ t.numClasses = 4 ∧ t.classOf 97 = t.classOf 98 ∧
      t.classOf 45 ≠ t.classOf 46 ∧ t.classOf 955 = 0 := by
  obtain ⟨b, madeOther⟩ : ∃ b, (new "words" "").edits? reordered = some b :=
    Option.isSome_iff_exists.1 (by decide +kernel)
  obtain ⟨a, made⟩ : ∃ a, (new "words" "").edits? overlapping = some a :=
    Option.isSome_iff_exists.1 (by decide +kernel)
  have some : 0 < a.states.size := by
    rw [size_of_edits made]
    exact Nat.succ_pos _
  obtain ⟨t, built⟩ : ∃ t, a.tables = .ok t := by
    simp only [exists_tables_iff some, size_of_edits made, successor_of_edits made]
    decide +kernel
  obtain ⟨shared, beyond, -, number, again⟩ :=
    classes_of_edits "words" "" overlapping a t made built
  refine ⟨a, b, t, made, madeOther, built, ?_, number.trans (by decide +kernel), ?_, ?_,
    beyond 955 (by decide)⟩
  · exact again "" reordered b madeOther (by decide) (by decide +kernel)
  · exact (shared 97 98).2 (by decide +kernel)
  · exact fun same => absurd ((shared 45 46).1 same) (by decide +kernel)

end Automaton

end SyntaxPaint

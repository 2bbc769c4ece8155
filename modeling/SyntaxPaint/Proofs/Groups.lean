import Mathlib.Data.Set.Defs
import SyntaxPaint.Proofs.Meeting

/-!
Balanced groups of brackets under one tag, as trees. A group is an opening bracket of the standard
table, any number of groups and fillers, and the partner of the opening bracket. Read from left to
right, the marks of a group are its brackets, whatever the fillers are; seen from either end they
pair up in the same way.
-/

namespace SyntaxPaint.Bracket

open Text (Cell Passage comparable)

inductive Pair
  | round
  | square
  | curly
deriving DecidableEq, Repr

namespace Pair

def opener : Pair → Nat
  | round => '('.toNat
  | square => '['.toNat
  | curly => '{'.toNat

def closer : Pair → Nat
  | round => ')'.toNat
  | square => ']'.toNat
  | curly => '}'.toNat

def left (pair : Pair) (offset : Nat) : Mark :=
  ⟨offset, pair.opener, .left, pair.closer⟩

def right (pair : Pair) (offset : Nat) : Mark :=
  ⟨offset, pair.closer, .right, pair.opener⟩

theorem find?_opener (pair : Pair) :
    Table.standard.find? pair.opener = some (.bracket .left pair.closer) := by
  cases pair <;> decide

theorem find?_closer (pair : Pair) :
    Table.standard.find? pair.closer = some (.bracket .right pair.opener) := by
  cases pair <;> decide

theorem opener_ne_closer (pair : Pair) : pair.opener ≠ pair.closer := by
  cases pair <;> decide

end Pair

/-- A cell that is no delimiter, or one that is foreign to the cells under `tag`. -/
def Filler (tag : String) (c : Cell) : Prop :=
  Table.standard.find? c.code = none ∨ (c.tag ≠ tag ∧ c.tag ≠ Text.normalTag ∧ tag ≠ Text.normalTag)

/-- Groups and fillers in a row, with all brackets of the groups under one tag. -/
inductive Groups (tag : String)
  | nil
  | filler (c : Cell) (passed : Filler tag c) (rest : Groups tag)
  | group (pair : Pair) (inner rest : Groups tag)

namespace Groups

variable {tag : String}

def cells : Groups tag → Passage
  | nil => []
  | filler c _ rest => c :: rest.cells
  | group pair inner rest => ⟨pair.opener, tag⟩ :: (inner.cells ++ ⟨pair.closer, tag⟩ :: rest.cells)

def depth : Groups tag → Nat
  | nil => 0
  | filler _ _ rest => rest.depth
  | group _ inner rest => max (inner.depth + 1) rest.depth

/-- All brackets in order, each with the depth of its group: that of the outermost groups is
`level`. The first cell is at `start`. -/
def brackets (level start : Nat) : Groups tag → List (Nat × Mark)
  | nil => []
  | filler _ _ rest => rest.brackets level (start + 1)
  | group pair inner rest =>
    let stop := start + 1 + inner.cells.length
    (level, pair.left start) ::
      (inner.brackets (level + 1) (start + 1) ++
        (level, pair.right stop) :: rest.brackets level (stop + 1))

def fillers : Groups tag → Passage
  | nil => []
  | filler c _ rest => c :: rest.fillers
  | group _ inner rest => inner.fillers ++ rest.fillers

def append : Groups tag → Groups tag → Groups tag
  | nil, more => more
  | filler c passed rest, more => .filler c passed (rest.append more)
  | group pair inner rest, more => .group pair inner (rest.append more)

@[simp] theorem cells_append (row more : Groups tag) :
    (row.append more).cells = row.cells ++ more.cells := by
  induction row with
  | nil => rfl
  | filler c passed rest ih => simp [append, cells, ih]
  | group pair inner rest _ ih => simp [append, cells, ih]

@[simp] theorem depth_append (row more : Groups tag) :
    (row.append more).depth = max row.depth more.depth := by
  induction row with
  | nil => simp [append, depth]
  | filler c passed rest ih => simp [append, depth, ih]
  | group pair inner rest _ ih => simp [append, depth, ih, Nat.max_assoc]

@[simp] theorem fillers_append (row more : Groups tag) :
    (row.append more).fillers = row.fillers ++ more.fillers := by
  induction row with
  | nil => rfl
  | filler c passed rest ih => simp [append, fillers, ih]
  | group pair inner rest _ ih => simp [append, fillers, ih]

end Groups

structure Group (tag : String) where
  pair : Pair
  inner : Groups tag

namespace Group

variable {tag : String}

def toGroups (g : Group tag) : Groups tag :=
  .group g.pair g.inner .nil

def cells (g : Group tag) : Passage :=
  g.toGroups.cells

def depth (g : Group tag) : Nat :=
  g.toGroups.depth

def stop (g : Group tag) (start : Nat) : Nat :=
  start + 1 + g.inner.cells.length

def bracketsAt (g : Group tag) (start depth : Nat) (side : Side) : Set Nat :=
  {i | ∃ m, (depth, m) ∈ g.toGroups.brackets 1 start ∧ m.side = side ∧ m.offset = i}

theorem cells_eq (g : Group tag) :
    g.cells = ⟨g.pair.opener, tag⟩ :: (g.inner.cells ++ [⟨g.pair.closer, tag⟩]) := rfl

theorem depth_eq (g : Group tag) : g.depth = g.inner.depth + 1 :=
  Nat.max_eq_left (Nat.zero_le _)

theorem length_cells (g : Group tag) (start : Nat) : start + g.cells.length = g.stop start + 1 := by
  simp only [cells_eq, stop, List.length_cons, List.length_append, List.length_nil]
  omega

theorem brackets_toGroups (g : Group tag) (start : Nat) :
    g.toGroups.brackets 1 start =
      (1, g.pair.left start) :: (g.inner.brackets 2 (start + 1) ++
        [(1, g.pair.right (g.stop start))]) := rfl

end Group

section Marks

variable {tag : String} {before : Passage} {c : Cell}

theorem Filler.escapesIn_eq_false (passed : Filler tag c) : escapesIn .standard tag c = false := by
  rcases passed with unlisted | foreign
  · simp [escapesIn, unlisted]
  · simp [escapesIn, comparable, foreign]

theorem Filler.mark?_eq_none (passed : Filler tag c) (before : Passage) (offset : Nat) :
    mark? .standard tag before offset c = none := by
  rcases passed with unlisted | foreign
  · simp [mark?, unlisted]
  · exact mark?_eq_none_of_not_comparable (by simp [comparable, foreign]) before offset

theorem mark?_of_bracket {code partner : Nat} {side : Side}
    (listed : Table.standard.find? code = some (.bracket side partner))
    (even : Backward.escaped .standard tag before = false) (offset : Nat) :
    mark? .standard tag before offset ⟨code, tag⟩ = some ⟨offset, code, side, partner⟩ := by
  simp [mark?, listed, even]

theorem Pair.escapesIn_opener (pair : Pair) (tag : String) :
    escapesIn .standard tag ⟨pair.opener, tag⟩ = false :=
  escapesIn_eq_false_of_bracket pair.find?_opener

theorem Pair.escapesIn_closer (pair : Pair) (tag : String) :
    escapesIn .standard tag ⟨pair.closer, tag⟩ = false :=
  escapesIn_eq_false_of_bracket pair.find?_closer

theorem Groups.marks_cells (gs : Groups tag) (even : Backward.escaped .standard tag before = false)
    (level start : Nat) :
    marks .standard tag before start gs.cells = (gs.brackets level start).map Prod.snd ∧
      Backward.escaped .standard tag (gs.cells.reverse ++ before) = false := by
  induction gs generalizing before level start with
  | nil => exact ⟨rfl, even⟩
  | filler c passed rest ih =>
    obtain ⟨seen, behind⟩ :=
      ih (escaped_cons_of_not_escape passed.escapesIn_eq_false before) level (start + 1)
    rw [cells, brackets, marks, passed.mark?_eq_none, seen, List.reverse_cons, List.append_assoc]
    exact ⟨rfl, behind⟩
  | group pair inner rest ihInner ihRest =>
    obtain ⟨seenInner, behindInner⟩ :=
      ihInner (escaped_cons_of_not_escape (pair.escapesIn_opener tag) before)
        (level + 1) (start + 1)
    obtain ⟨seenRest, behindRest⟩ :=
      ihRest (escaped_cons_of_not_escape (pair.escapesIn_closer tag)
          (inner.cells.reverse ++ ⟨pair.opener, tag⟩ :: before))
        level (start + 1 + inner.cells.length + 1)
    constructor
    · rw [cells, brackets, marks, marks_append, marks, mark?_of_bracket pair.find?_opener even,
        mark?_of_bracket pair.find?_closer behindInner, seenInner, seenRest, List.map_cons,
        List.map_append]
      rfl
    · rw [cells, List.reverse_cons, List.reverse_append, List.reverse_cons]
      simpa only [List.append_assoc, List.cons_append, List.nil_append] using behindRest

/-- Whether a group's first bracket is a mark depends on what stands before it; the other ones are
marks. -/
theorem Group.marks_cells (g : Group tag) (before : Passage) (start : Nat) :
    marks .standard tag before start g.cells =
      (mark? .standard tag before start ⟨g.pair.opener, tag⟩).toList ++
        ((g.inner.brackets 2 (start + 1)).map Prod.snd ++ [g.pair.right (g.stop start)]) := by
  obtain ⟨seen, behind⟩ :=
    g.inner.marks_cells (escaped_cons_of_not_escape (g.pair.escapesIn_opener tag) before) 2
      (start + 1)
  rw [cells_eq, marks, marks_append, seen, marks, mark?_of_bracket g.pair.find?_closer behind]
  rfl

theorem Groups.pairwise_brackets (gs : Groups tag) (level start : Nat) :
    (gs.brackets level start).Pairwise fun v w => v.2.offset < w.2.offset := by
  have even : Backward.escaped .standard tag [] = false := rfl
  have sorted := pairwise_marks .standard tag [] start gs.cells
  rwa [(gs.marks_cells even level start).1, List.pairwise_map] at sorted

theorem Groups.forall_level_le_iff (gs : Groups tag) (level start bound : Nat) :
    (∀ w ∈ gs.brackets level start, w.1 ≤ bound) ↔ gs.depth = 0 ∨ gs.depth + level ≤ bound + 1 := by
  induction gs generalizing level start with
  | nil => simp [brackets, depth]
  | filler c passed rest ih => exact ih level (start + 1)
  | group pair inner rest ihInner ihRest =>
    simp only [brackets, depth, List.forall_mem_cons, List.forall_mem_append, ihInner, ihRest]
    omega

end Marks

end SyntaxPaint.Bracket

import Mathlib.Data.Set.Operations
import Mathlib.Order.Bounds.Defs
import SyntaxPaint.Proofs.Groups

/-!
The search over a balanced group, in either direction. A group that is nested no deeper than the
search follows is matched from both ends; in a deeper one the search stops at the first bracket that
opens a group below that depth. Both come from one run over brackets that pair up.
-/

namespace SyntaxPaint.Bracket

open Text (Cell Passage comparable)

@[simp] theorem Direction.flip_flip (direction : Direction) : direction.flip.flip = direction := by
  cases direction <;> rfl

structure Partners (direction : Direction) (o c : Mark) : Prop where
  opens : o.side = direction.opener
  closes : c.side = direction.flip.opener
  waits : o.partner = c.code
  answers : c.partner = o.code
  distinct : o.code ≠ c.code

/-- Brackets that pair up when they are read in a direction, each with its depth. -/
inductive Nested (direction : Direction) : Nat → List (Nat × Mark) → Prop
  | nil {level : Nat} : Nested direction level []
  | pair {level : Nat} {o c : Mark} {inner rest : List (Nat × Mark)}
      (partners : Partners direction o c)
      (inside : Nested direction (level + 1) inner) (after : Nested direction level rest) :
      Nested direction level ((level, o) :: (inner ++ (level, c) :: rest))

def FirstTooDeep (direction : Direction) (ws : List (Nat × Mark)) (m : Mark) : Prop :=
  ∃ before after, ws = before ++ (maxNesting + 1, m) :: after ∧ (∀ w ∈ before, w.1 ≤ maxNesting) ∧
    m.side = direction.opener

variable {direction : Direction} {caret level : Nat} {stack : Stack} {o c m : Mark}
  {ws inner rest : List (Nat × Mark)} {tag : String}

namespace Partners

theorem flip (partners : Partners direction o c) : Partners direction.flip c o where
  opens := partners.closes
  closes := by rw [Direction.flip_flip, partners.opens]
  waits := partners.answers
  answers := partners.waits
  distinct := partners.distinct.symm

theorem not_symmetric (partners : Partners direction o c) : ¬o.IsSymmetric :=
  fun symmetric => partners.distinct (symmetric.2.symm.trans partners.waits)

theorem opening_eq (partners : Partners direction o c) : o.opening = ⟨o.offset, c.code, false⟩ := by
  rw [Mark.opening_of_not_symmetric partners.not_symmetric, partners.waits]

theorem closes_eq_false (partners : Partners direction o c) :
    stack.closes direction o.code o.side o.partner = false := by
  rw [Stack.closes_of_not_symmetric partners.not_symmetric, partners.opens, bne_self_eq_false]

theorem pass_closer (partners : Partners direction o c) :
    Stack.pass direction caret (o.opening :: stack) c =
      if stack.isEmpty then .error (.matched c.offset) else .ok stack := by
  rw [partners.opening_eq]
  refine Stack.pass_of_closes rfl ?_ rfl
  rw [Stack.closes_of_not_symmetric partners.flip.not_symmetric, partners.closes, bne_iff_ne]
  exact direction.opener_flip_ne.symm

end Partners

theorem Pair.partners (pair : Pair) (start stop : Nat) :
    Partners .forward (pair.left start) (pair.right stop) :=
  ⟨rfl, rfl, rfl, rfl, pair.opener_ne_closer⟩

theorem Groups.nested (gs : Groups tag) (level start : Nat) :
    Nested .forward level (gs.brackets level start) := by
  induction gs generalizing level start with
  | nil => exact .nil
  | filler c passed rest ih => exact ih level (start + 1)
  | group pair inner rest ihInner ihRest =>
    exact .pair (pair.partners _ _) (ihInner _ _) (ihRest _ _)

namespace Nested

theorem append (nested : Nested direction level ws) (after : Nested direction level rest) :
    Nested direction level (ws ++ rest) := by
  induction nested with
  | nil => exact after
  | pair partners inside _ _ ih =>
    rw [List.cons_append, List.append_assoc, List.cons_append]
    exact .pair partners inside (ih after)

theorem reverse (nested : Nested direction level ws) : Nested direction.flip level ws.reverse := by
  induction nested with
  | nil => exact .nil
  | pair partners _ _ ihInside ihAfter =>
    rw [List.reverse_cons, List.reverse_append, List.reverse_cons, List.append_assoc,
      List.append_assoc]
    exact ihAfter.append (.pair partners.flip ihInside .nil)

end Nested

namespace FirstTooDeep

theorem within (first : FirstTooDeep direction ws m) {before : List (Nat × Mark)}
    (shallow : ∀ w ∈ before, w.1 ≤ maxNesting) (after : List (Nat × Mark)) :
    FirstTooDeep direction (before ++ (ws ++ after)) m := by
  obtain ⟨initial, final, rfl, shallowInitial, opens⟩ := first
  exact ⟨before ++ initial, final ++ after, by simp,
    List.forall_mem_append.2 ⟨shallow, shallowInitial⟩, opens⟩

theorem mem (first : FirstTooDeep direction ws m) : (maxNesting + 1, m) ∈ ws := by
  obtain ⟨before, after, rfl, -, -⟩ := first
  simp

theorem opens (first : FirstTooDeep direction ws m) : m.side = direction.opener := by
  obtain ⟨-, -, -, -, opens⟩ := first
  exact opens

theorem eq_or_rel {r : Nat × Mark → Nat × Mark → Prop} (first : FirstTooDeep direction ws m)
    (sorted : ws.Pairwise r) {n : Mark} (member : (maxNesting + 1, n) ∈ ws) :
    n = m ∨ r (maxNesting + 1, m) (maxNesting + 1, n) := by
  obtain ⟨before, after, rfl, shallow, -⟩ := first
  rcases List.mem_append.1 member with early | late
  · exact absurd (shallow _ early) (Nat.not_succ_le_self maxNesting)
  · rcases List.mem_cons.1 late with here | later
    · exact .inl (Prod.mk.inj here).2
    · exact .inr ((List.pairwise_cons.1 (List.pairwise_append.1 sorted).2.1).1 _ later)

end FirstTooDeep

/-- A run over brackets that pair up leaves the openings as they were, or stops at the first bracket
that is too deep. -/
theorem Nested.passAll (nested : Nested direction level ws) (caret : Nat)
    (size : stack.length + 1 = level) (nonempty : stack ≠ [])
    (plain : ∀ top ∈ stack.head?, top.symmetric = false) (short : stack.length ≤ maxNesting) :
    ((∀ w ∈ ws, w.1 ≤ maxNesting) ∧ stack.passAll direction caret (ws.map Prod.snd) = .ok stack) ∨
      ∃ m, FirstTooDeep direction ws m ∧
        stack.passAll direction caret (ws.map Prod.snd) = .error (.tooDeep m.offset) := by
  induction nested generalizing stack with
  | nil => exact .inl ⟨List.forall_mem_nil _, rfl⟩
  | @pair level o c inner rest partners inside after ihInside ihAfter =>
    have outside : stack.quotesOut o.code = false := by
      cases stack with
      | nil => rfl
      | cons top below => simp [Stack.quotesOut, plain top rfl]
    rw [List.map_cons, List.map_append, List.map_cons]
    by_cases full : stack.length = maxNesting
    · refine .inr ⟨o,
        ⟨[], inner ++ (level, c) :: rest, ?_, List.forall_mem_nil _, partners.opens⟩, ?_⟩
      · rw [← size, full]
        rfl
      · rw [Stack.passAll_cons, Stack.pass_of_full outside partners.closes_eq_false nonempty full]
        rfl
    · have levelLe : level ≤ maxNesting := by omega
      have opened : Stack.pass direction caret stack o = .ok (o.opening :: stack) :=
        Stack.pass_of_opens outside partners.closes_eq_false (fun none => absurd none nonempty) full
      rw [Stack.passAll_cons_of_ok opened]
      have grown : (o.opening :: stack).length + 1 = level + 1 := by rw [List.length_cons, size]
      rcases ihInside grown (List.cons_ne_nil _ _) (by simp [partners.opening_eq]) (by omega) with
        ⟨shallow, through⟩ | ⟨m, first, ended⟩
      · have closed : Stack.pass direction caret (o.opening :: stack) c = .ok stack := by
          rw [partners.pass_closer, if_neg (by simpa using nonempty)]
        have shallowHere : ∀ w ∈ (level, o) :: (inner ++ [(level, c)]), w.1 ≤ maxNesting :=
          List.forall_mem_cons.2
            ⟨levelLe, List.forall_mem_append.2 ⟨shallow, (List.forall_mem_singleton).2 levelLe⟩⟩
        have split : (level, o) :: (inner ++ (level, c) :: rest) =
            (level, o) :: (inner ++ [(level, c)]) ++ (rest ++ []) := by simp
        rw [Stack.passAll_append_of_ok through, Stack.passAll_cons_of_ok closed, split]
        rcases ihAfter size nonempty plain short with ⟨shallowRest, done⟩ | ⟨m, first, ended⟩
        · rw [List.append_nil]
          exact .inl ⟨List.forall_mem_append.2 ⟨shallowHere, shallowRest⟩, done⟩
        · exact .inr ⟨m, first.within shallowHere [], ended⟩
      · have shallowHere : ∀ w ∈ [(level, o)], w.1 ≤ maxNesting :=
          (List.forall_mem_singleton).2 levelLe
        exact .inr ⟨m, first.within shallowHere _, Stack.passAll_append_of_error ended _⟩

theorem Partners.passAll_group (partners : Partners direction o c) (nested : Nested direction 2 ws)
    (near : direction.atCaret caret o = true) :
    ((∀ w ∈ ws, w.1 ≤ maxNesting) ∧
        Stack.passAll direction caret [] (o :: (ws.map Prod.snd ++ [c])) =
          .error (.matched c.offset)) ∨
      ∃ m, FirstTooDeep direction ws m ∧
        Stack.passAll direction caret [] (o :: ws.map Prod.snd) = .error (.tooDeep m.offset) := by
  have opened : Stack.pass direction caret [] o = .ok [o.opening] :=
    Stack.pass_of_opens rfl partners.closes_eq_false (fun _ => near) (by decide)
  have one : [o.opening].length + 1 = 2 := rfl
  rcases nested.passAll caret one (List.cons_ne_nil _ _) (by simp [partners.opening_eq])
      (Nat.le_add_left 1 9) with ⟨shallow, through⟩ | ⟨m, first, ended⟩
  · refine .inl ⟨shallow, ?_⟩
    rw [Stack.passAll_cons_of_ok opened, Stack.passAll_append_of_ok through,
      Stack.passAll_singleton, partners.pass_closer]
    rfl
  · refine .inr ⟨m, first, ?_⟩
    rw [Stack.passAll_cons_of_ok opened, ended]

namespace Group

variable {start : Nat}

def inside (g : Group tag) (start : Nat) : List (Nat × Mark) :=
  g.inner.brackets 2 (start + 1)

theorem forall_inside_le_iff (g : Group tag) (start : Nat) :
    (∀ w ∈ g.inside start, w.1 ≤ maxNesting) ↔ g.depth ≤ maxNesting := by
  rw [inside, Groups.forall_level_le_iff, depth_eq, maxNesting]
  omega

theorem lt_depth_of_first (g : Group tag) {ws : List (Nat × Mark)}
    (first : FirstTooDeep direction ws m) (same : ∀ w ∈ ws, w ∈ g.inside start) :
    maxNesting < g.depth := by
  refine Nat.lt_of_not_le fun shallow => ?_
  have bound := (g.forall_inside_le_iff start).2 shallow _ (same _ first.mem)
  exact Nat.not_succ_le_self _ bound

theorem mem_bracketsAt_iff {g : Group tag} {side : Side} {i : Nat} :
    i ∈ g.bracketsAt start (maxNesting + 1) side ↔
      ∃ m, (maxNesting + 1, m) ∈ g.inside start ∧ m.side = side ∧ m.offset = i := by
  rw [bracketsAt, Set.mem_ofPred_eq, brackets_toGroups]
  simp [inside, maxNesting]

theorem isLeast_of_first {g : Group tag} (first : FirstTooDeep .forward (g.inside start) m) :
    IsLeast (g.bracketsAt start (maxNesting + 1) .left) m.offset := by
  refine ⟨mem_bracketsAt_iff.2 ⟨m, first.mem, first.opens, rfl⟩, ?_⟩
  intro i member
  obtain ⟨n, among, -, rfl⟩ := mem_bracketsAt_iff.1 member
  rcases first.eq_or_rel (g.inner.pairwise_brackets _ _) among with rfl | later
  · exact Nat.le_refl _
  · exact Nat.le_of_lt later

theorem isGreatest_of_first {g : Group tag}
    (first : FirstTooDeep .backward (g.inside start).reverse m) :
    IsGreatest (g.bracketsAt start (maxNesting + 1) .right) m.offset := by
  refine ⟨mem_bracketsAt_iff.2 ⟨m, List.mem_reverse.1 first.mem, first.opens, rfl⟩, ?_⟩
  intro i member
  obtain ⟨n, among, -, rfl⟩ := mem_bracketsAt_iff.1 member
  have sorted := List.pairwise_reverse.2 (g.inner.pairwise_brackets 2 (start + 1))
  rcases first.eq_or_rel sorted (List.mem_reverse.2 among) with rfl | earlier
  · exact Nat.le_refl _
  · exact Nat.le_of_lt earlier

theorem exists_forwardOutcome_eq (g : Group tag) (left right : Passage) :
    ∃ later, forwardOutcome .standard (left ++ g.cells ++ right) left.length =
      conclusion (Stack.passAll .forward left.length []
        (g.pair.left left.length ::
          ((g.inside left.length).map Prod.snd ++ [g.pair.right (g.stop left.length)]) ++
            later)) := by
  have context : contextOf .standard (g.cells ++ right) = tag :=
    leadingTag_of_delimiter (by rw [g.pair.find?_opener]; rfl) _
  rw [forwardOutcome_eq, List.append_assoc, List.drop_left, context, marks_append, g.marks_cells,
    mark?_of_bracket g.pair.find?_opener rfl]
  exact ⟨_, rfl⟩

theorem exists_backwardOutcome_eq (g : Group tag) (left right : Passage) :
    ∃ later, backwardOutcome .standard (left ++ g.cells ++ right) (left.length + g.cells.length) =
      conclusion (Stack.passAll .backward (left.length + g.cells.length) []
        (g.pair.right (g.stop left.length) :: ((g.inside left.length).reverse.map Prod.snd ++
          (mark? .standard tag left.reverse left.length ⟨g.pair.opener, tag⟩).toList) ++
            later)) := by
  have bound : left.length + g.cells.length ≤ (left ++ g.cells ++ right).length := by
    simp only [List.length_append]
    omega
  have nearest : (left ++ g.cells).reverse =
      ⟨g.pair.closer, tag⟩ :: (left ++ ⟨g.pair.opener, tag⟩ :: g.inner.cells).reverse := by
    simp [g.cells_eq]
  have context : contextOf .standard (left ++ g.cells).reverse = tag := by
    rw [nearest]
    exact leadingTag_of_delimiter (by rw [g.pair.find?_closer]; rfl) _
  rw [backwardOutcome_eq _ _ _ bound, ← List.length_append, List.take_left, context, marks_append,
    List.append_nil, Nat.zero_add, g.marks_cells, List.reverse_append, List.reverse_append,
    List.reverse_append, List.map_reverse]
  refine ⟨(marks .standard tag [] 0 left).reverse, ?_⟩
  cases mark? .standard tag left.reverse left.length ⟨g.pair.opener, tag⟩ <;> rfl

theorem forwardOutcome_cases (g : Group tag) (left right : Passage) :
    let outcome := forwardOutcome .standard (left ++ g.cells ++ right) left.length
    (g.depth ≤ maxNesting ∧ outcome = .matched (g.stop left.length)) ∨
      (maxNesting < g.depth ∧
        ∃ m, FirstTooDeep .forward (g.inside left.length) m ∧ outcome = .tooDeep m.offset) := by
  intro outcome
  obtain ⟨later, found⟩ := g.exists_forwardOutcome_eq left right
  have near : Direction.forward.atCaret left.length (g.pair.left left.length) = true :=
    beq_self_eq_true _
  rcases (g.pair.partners _ _).passAll_group (g.inner.nested 2 (left.length + 1)) near with
    ⟨shallow, matched⟩ | ⟨m, first, ended⟩
  · refine .inl ⟨(g.forall_inside_le_iff _).1 shallow, found.trans ?_⟩
    rw [inside, Stack.passAll_append_of_error matched]
    rfl
  · refine .inr ⟨g.lt_depth_of_first first fun _ => id, m, first, found.trans ?_⟩
    rw [List.cons_append, List.append_assoc, ← List.cons_append, inside,
      Stack.passAll_append_of_error ended]
    rfl

theorem backwardOutcome_cases (g : Group tag) (left right : Passage) :
    let outcome :=
      backwardOutcome .standard (left ++ g.cells ++ right) (left.length + g.cells.length)
    (g.depth ≤ maxNesting ∧
        (Backward.escaped .standard tag left.reverse = false → outcome = .matched left.length)) ∨
      (maxNesting < g.depth ∧
        ∃ m, FirstTooDeep .backward (g.inside left.length).reverse m ∧
          outcome = .tooDeep m.offset) := by
  intro outcome
  obtain ⟨later, found⟩ := g.exists_backwardOutcome_eq left right
  have near : Direction.backward.atCaret (left.length + g.cells.length)
      (g.pair.right (g.stop left.length)) = true := by
    rw [g.length_cells]
    exact beq_self_eq_true _
  rcases (g.pair.partners left.length _).flip.passAll_group
      (g.inner.nested 2 (left.length + 1)).reverse near with
    ⟨shallow, matched⟩ | ⟨m, first, ended⟩
  · refine .inl ⟨(g.forall_inside_le_iff _).1 fun w member =>
      shallow w (List.mem_reverse.2 member), ?_⟩
    intro even
    refine found.trans ?_
    rw [mark?_of_bracket g.pair.find?_opener even]
    exact congrArg conclusion (Stack.passAll_append_of_error matched later)
  · refine .inr ⟨g.lt_depth_of_first first fun _ => List.mem_reverse.1, m, first, found.trans ?_⟩
    rw [List.cons_append, List.append_assoc, ← List.cons_append]
    exact congrArg conclusion (Stack.passAll_append_of_error ended _)

end Group

/-- A group nested no deeper than ten is matched from its first bracket on and, if no escape stands
before it, from its last one on. In a deeper group the searches stop at the first and the last
bracket, in reading order, that opens or closes a group at depth eleven. -/
theorem search_of_group (tag : String) (g : Group tag) (left right : Passage) :
    let p := left ++ g.cells ++ right
    let start := left.length
    let stop := left.length + g.cells.length
    (g.depth ≤ 10 →
        forward .standard p start = stop ∧
          ((left.reverse.takeWhile (escapesIn .standard tag)).length % 2 = 0 →
            backward .standard p stop = start)) ∧
      (10 < g.depth →
        IsLeast (g.bracketsAt start 11 .left) (forward .standard p start) ∧
          ∃ last, IsGreatest (g.bracketsAt start 11 .right) last ∧
            backward .standard p stop = last + 1) := by
  intro p start stop
  have bound : stop ≤ p.length := by
    simp only [p, stop, List.length_append]
    omega
  have ahead : forward .standard p start =
      (forwardOutcome .standard p start).forwardCaret start := by
    rw [forward, Nat.min_eq_left (Nat.le_trans (Nat.le_add_right _ _) bound)]
  have back : backward .standard p stop =
      (backwardOutcome .standard p stop).backwardCaret stop := by
    rw [backward, Nat.min_eq_left bound]
  rw [ahead, back]
  constructor
  · intro shallow
    rcases g.forwardOutcome_cases left right with ⟨-, matched⟩ | ⟨deep, -⟩
    · refine ⟨?_, ?_⟩
      · rw [matched]
        exact (g.length_cells start).symm
      · intro even
        rcases g.backwardOutcome_cases left right with ⟨-, matched⟩ | ⟨deep, -⟩
        · rw [matched (by rw [Backward.escaped, even]; rfl)]
          rfl
        · exact absurd shallow (Nat.not_le_of_lt deep)
    · exact absurd shallow (Nat.not_le_of_lt deep)
  · intro deep
    refine ⟨?_, ?_⟩
    · rcases g.forwardOutcome_cases left right with ⟨shallow, -⟩ | ⟨-, m, first, ended⟩
      · exact absurd shallow (Nat.not_le_of_lt deep)
      · rw [ended]
        exact Group.isLeast_of_first first
    · rcases g.backwardOutcome_cases left right with ⟨shallow, -⟩ | ⟨-, m, first, ended⟩
      · exact absurd shallow (Nat.not_le_of_lt deep)
      · refine ⟨m.offset, Group.isGreatest_of_first first, ?_⟩
        rw [ended]
        rfl

/-- Two escapes before a group, which do not escape it, and a foreign escape in it; then a group
with an empty one and ten in each other. -/
theorem search_of_group_past_escapes :
    let shallow : Group "" :=
      ⟨.round, .filler ⟨92, "string"⟩ (.inr (by decide)) (.group .square .nil .nil)⟩
    let deep : Group "" := ⟨.curly, .group .round .nil (Nat.repeat (.group .square · .nil) 10 .nil)⟩
    let escapes : Passage := [⟨92, ""⟩, ⟨92, ""⟩]
    (shallow.depth ≤ 10 ∧ (escapes.reverse.takeWhile (escapesIn .standard "")).length % 2 = 0 ∧
      10 < deep.depth) ∧
      forward .standard (escapes ++ shallow.cells ++ [⟨41, ""⟩]) 2 = 7 ∧
      backward .standard (escapes ++ shallow.cells ++ [⟨41, ""⟩]) 7 = 2 ∧
      IsLeast (deep.bracketsAt 0 11 .left) (forward .standard ([] ++ deep.cells ++ []) 0) ∧
      ∃ last, IsGreatest (deep.bracketsAt 0 11 .right) last ∧
        backward .standard ([] ++ deep.cells ++ []) 24 = last + 1 := by
  intro shallow deep escapes
  have low : shallow.depth ≤ 10 := by decide
  have even : (escapes.reverse.takeWhile (escapesIn .standard "")).length % 2 = 0 := by decide
  have high : 10 < deep.depth := by decide
  obtain ⟨ahead, back⟩ := (search_of_group "" shallow escapes [⟨41, ""⟩]).1 low
  exact ⟨⟨low, even, high⟩, ahead, back even, (search_of_group "" deep [] []).2 high⟩

end SyntaxPaint.Bracket

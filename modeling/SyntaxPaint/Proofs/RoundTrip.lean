import SyntaxPaint.Proofs.Facing

/-!
A search that finds its match leads back. Both searches see the same marks between the two ends,
provided that no escape stands before the left end, and a run over them is undone mark by mark.
-/

namespace SyntaxPaint.Bracket

open Text (Cell Passage comparable)

section Ends

variable {table : Table} {left span right : Passage} {c d : Cell} {offset : Nat}

theorem forwardOutcome_append_eq_matched (first : span.head? = some c)
    (inside : offset < left.length + span.length) :
    forwardOutcome table (left ++ span ++ right) left.length = .matched offset ↔
      Stack.passAll .forward left.length [] (marks table c.tag [] left.length span) =
        .error (.matched offset) := by
  obtain ⟨rest, rfl⟩ : ∃ rest, span = c :: rest := List.head?_eq_some_iff.1 first
  have cells : (left ++ c :: rest ++ right).drop left.length = c :: (rest ++ right) := by simp
  have delimiter {context : String} {q : Passage} (matched : Stack.passAll .forward left.length []
      (marks table context [] left.length (c :: q)) = .error (.matched offset)) :
      (table.find? c.code).isSome := by
    obtain ⟨m, member, near⟩ := Stack.exists_atCaret_of_matched matched
    rw [bracket_of_mem_marks member (by simpa [Direction.atCaret] using near)]
    rfl
  have elsewhere : ∀ m ∈ marks table c.tag ((c :: rest).reverse ++ [])
      (left.length + (c :: rest).length) right, m.offset ≠ offset := by
    intro m member same
    have beyond := (offset_mem_marks member).1
    omega
  rw [forwardOutcome_eq, conclusion_eq_matched, cells]
  constructor
  · intro matched
    rw [leadingTag_of_delimiter (delimiter matched), ← List.cons_append, marks_append,
      Stack.passAll_append_eq_matched elsewhere] at matched
    exact matched
  · intro matched
    rw [leadingTag_of_delimiter (delimiter matched), ← List.cons_append, marks_append,
      Stack.passAll_append_eq_matched elsewhere]
    exact matched

theorem backwardOutcome_append_eq_matched (last : span.getLast? = some d)
    (inside : left.length ≤ offset) :
    backwardOutcome table (left ++ span ++ right) (left.length + span.length) = .matched offset ↔
      Stack.passAll .backward (left.length + span.length) []
        (marks table d.tag left.reverse left.length span).reverse = .error (.matched offset) := by
  obtain ⟨rest, rfl⟩ : ∃ rest, span = rest ++ [d] := List.getLast?_eq_some_iff.1 last
  have cells : (left ++ (rest ++ [d]) ++ right).take (left.length + (rest ++ [d]).length) =
      left ++ (rest ++ [d]) := by
    rw [← List.length_append, List.take_left]
  have nearest : (left ++ (rest ++ [d])).reverse = d :: (left ++ rest).reverse := by simp
  have short : left.length + (rest ++ [d]).length ≤ (left ++ (rest ++ [d]) ++ right).length := by
    simp only [List.length_append]
    omega
  have ahead (context : String) :
      Stack.passAll .backward (left.length + (rest ++ [d]).length) []
          (marks table context [] 0 (left ++ (rest ++ [d]))).reverse = .error (.matched offset) ↔
        Stack.passAll .backward (left.length + (rest ++ [d]).length) []
          (marks table context left.reverse left.length (rest ++ [d])).reverse =
            .error (.matched offset) := by
    have elsewhere : ∀ m ∈ (marks table context [] 0 left).reverse, m.offset ≠ offset := by
      intro m member same
      have before := (offset_mem_marks (List.mem_reverse.1 member)).2
      omega
    rw [marks_append, List.reverse_append, Stack.passAll_append_eq_matched elsewhere,
      List.append_nil, Nat.zero_add]
  have delimiter {context : String} (matched : Stack.passAll .backward
      (left.length + (rest ++ [d]).length) []
        (marks table context left.reverse left.length (rest ++ [d])).reverse =
          .error (.matched offset)) :
      (table.find? d.code).isSome := by
    obtain ⟨m, member, near⟩ := Stack.exists_atCaret_of_matched matched
    obtain ⟨listed, i, b, place, at_, code⟩ := mem_marks (List.mem_reverse.1 member)
    obtain rfl : i = rest.length := by
      have next : m.offset + 1 = left.length + (rest ++ [d]).length := by
        simpa [Direction.atCaret] using near
      rw [List.length_append, List.length_singleton] at next
      omega
    obtain rfl : d = b := by simpa using place
    rw [← code, listed]
    rfl
  rw [backwardOutcome_eq _ _ _ short, conclusion_eq_matched, cells, ahead, nearest]
  constructor
  · intro matched
    rwa [leadingTag_of_delimiter (delimiter matched)] at matched
  · intro matched
    rwa [leadingTag_of_delimiter (delimiter matched)]

end Ends

theorem eq_nil_of_pairwise {r : Mark → Mark → Prop} {ms before after : List Mark} {last : Mark}
    (sorted : ms.Pairwise r) (split : ms = before ++ last :: after)
    (extreme : ∀ m ∈ ms, ¬r last m) : after = [] := by
  subst split
  cases after with
  | nil => rfl
  | cons m after =>
    have apart := (List.pairwise_cons.1 (List.pairwise_append.1 sorted).2.1).1 m List.mem_cons_self
    exact absurd apart (extreme m (by simp))

section Main

variable {table : Table} {left span : Passage} {c d : Cell}

theorem forward_matched_iff_of_append (coherent : table.Coherent) (first : span.head? = some c)
    (last : span.getLast? = some d) (tags : c.tag = d.tag)
    (even : Backward.escaped table c.tag left.reverse = false) (right : Passage) :
    forwardOutcome table (left ++ span ++ right) left.length =
        .matched (left.length + span.length - 1) ↔
      backwardOutcome table (left ++ span ++ right) (left.length + span.length) =
        .matched left.length := by
  obtain ⟨rest, rfl⟩ : ∃ rest, span = c :: rest := List.head?_eq_some_iff.1 first
  have size : 0 < (c :: rest).length := Nat.succ_pos _
  have sorted := pairwise_marks table c.tag left.reverse left.length (c :: rest)
  -- The forward search sees nothing of `left`, the backward search counts its escapes: the marks
  -- agree as soon as one of them stands at the first character, since that is no escape then.
  have same {context : Passage} {m : Mark}
      (member : m ∈ marks table c.tag context left.length (c :: rest))
      (start : m.offset = left.length) :
      marks table c.tag left.reverse left.length (c :: rest) =
        marks table c.tag [] left.length (c :: rest) :=
    marks_of_not_escaped even
      (escapesIn_eq_false_of_bracket (bracket_of_mem_marks member start)) _ _
  rw [forwardOutcome_append_eq_matched first (by omega),
    backwardOutcome_append_eq_matched last (Nat.le_refl _), ← tags]
  constructor
  · intro matched
    obtain ⟨m, member, near⟩ := Stack.exists_atCaret_of_matched matched
    rw [← same member (by simpa [Direction.atCaret] using near)] at matched
    obtain ⟨before, closer, after, reached, split, through, ended⟩ := Stack.passAll_eq_error matched
    obtain ⟨-, -, place, -⟩ := Stack.pass_eq_matched.1 ended
    obtain rfl : after = [] := by
      refine eq_nil_of_pairwise sorted split fun n there later => ?_
      have bound := (offset_mem_marks there).2
      omega
    have turned :
        Direction.atCaret (left.length + (c :: rest).length) closer Direction.forward.flip := by
      simp only [Direction.flip, Direction.atCaret, beq_iff_eq]
      omega
    obtain ⟨opener, _, -, caret, back⟩ := matched_reverse coherent
      (by rw [← split]; exact fun n there => (mem_marks there).1) through ended turned
    have start : opener.offset = left.length := by simpa [Direction.atCaret] using caret
    rw [split]
    rwa [start] at back
  · intro matched
    obtain ⟨before, opener, after, reached, split, through, ended⟩ := Stack.passAll_eq_error matched
    obtain ⟨-, -, place, -⟩ := Stack.pass_eq_matched.1 ended
    have member : opener ∈ marks table c.tag left.reverse left.length (c :: rest) := by
      rw [← List.mem_reverse, split]
      simp
    obtain rfl : after = [] := by
      refine eq_nil_of_pairwise (List.pairwise_reverse.2 sorted) split fun n there later => ?_
      have bound := (offset_mem_marks (List.mem_reverse.1 there)).1
      omega
    have turned : Direction.atCaret left.length opener Direction.backward.flip := by
      simpa [Direction.flip, Direction.atCaret] using place
    obtain ⟨closer, _, -, caret, back⟩ := matched_reverse coherent
      (by rw [← split]; exact fun n there => (mem_marks (List.mem_reverse.1 there)).1)
      through ended turned
    have next : closer.offset + 1 = left.length + (c :: rest).length := by
      simpa [Direction.atCaret] using caret
    rw [← same member place, ← next, Nat.add_sub_cancel]
    rw [← split, List.reverse_reverse] at back
    exact back

end Main

/-- A search to the right matches at a place from which the search to the left matches where it
began. -/
theorem forward_matched_iff_backward_matched (table : Table) (coherent : table.Coherent)
    (p : Passage) (start stop : Nat) (c d : Cell) (ordered : start < stop)
    (inside : stop ≤ p.length) (first : p[start]? = some c) (last : p[stop - 1]? = some d)
    (tags : c.tag = d.tag)
    (even : ((p.take start).reverse.takeWhile (escapesIn table c.tag)).length % 2 = 0) :
    ((∃ place, forwardOutcome table p start = .matched place) ∧ forward table p start = stop) ↔
      ((∃ place, backwardOutcome table p stop = .matched place) ∧
      backward table p stop = start) := by
  have startSize : (p.take start).length = start := by
    rw [List.length_take]
    omega
  have spanSize : ((p.drop start).take (stop - start)).length = stop - start := by
    rw [List.length_take, List.length_drop]
    omega
  have whole : p.take start ++ (p.drop start).take (stop - start) ++ p.drop stop = p := by
    have rejoin : (p.drop start).take (stop - start) ++ p.drop stop = p.drop start := by
      have later : p.drop stop = (p.drop start).drop (stop - start) := by
        rw [List.drop_drop]
        congr 1
        omega
      rw [later, List.take_append_drop]
    rw [List.append_assoc, rejoin, List.take_append_drop]
  have head : ((p.drop start).take (stop - start)).head? = some c := by
    rw [List.head?_take, if_neg (by omega), List.head?_drop, first]
  have final : ((p.drop start).take (stop - start)).getLast? = some d := by
    rw [List.getLast?_eq_getElem?, spanSize, List.getElem?_take, if_pos (by omega),
      List.getElem?_drop, ← last]
    congr 1
    omega
  have unescaped : Backward.escaped table c.tag (p.take start).reverse = false := by
    rw [Backward.escaped, even]
    rfl
  have ends := forward_matched_iff_of_append coherent head final tags unescaped (p.drop stop)
  rw [whole, startSize, spanSize, Nat.add_sub_of_le (Nat.le_of_lt ordered)] at ends
  unfold forward backward
  rw [Nat.min_eq_left (by omega), Nat.min_eq_left inside]
  dsimp only
  constructor
  · rintro ⟨⟨place, matched⟩, result⟩
    rw [matched] at result
    obtain rfl : place = stop - 1 := by
      simp only [Outcome.forwardCaret] at result
      omega
    have back := ends.1 matched
    exact ⟨⟨start, back⟩, by rw [back]; rfl⟩
  · rintro ⟨⟨place, matched⟩, result⟩
    rw [matched] at result
    obtain rfl : place = start := result
    have ahead := ends.2 matched
    refine ⟨⟨stop - 1, ahead⟩, ?_⟩
    rw [ahead]
    simp only [Outcome.forwardCaret]
    omega

/-- From the parenthesis after two escapes past a string with an escaped quote and parentheses in
it. -/
theorem matched_past_string :
    ((∃ place, forwardOutcome .standard (.ofString "\\\\(\"\\\")\"[(0)])") 2 = .matched place) ∧
        forward .standard (.ofString "\\\\(\"\\\")\"[(0)])") 2 = 14) ∧
      ((∃ place, backwardOutcome .standard (.ofString "\\\\(\"\\\")\"[(0)])") 14 = .matched place) ∧
        backward .standard (.ofString "\\\\(\"\\\")\"[(0)])") 14 = 2) := by
  have ahead :
      (∃ place, forwardOutcome .standard (.ofString "\\\\(\"\\\")\"[(0)])") 2 = .matched place) ∧
        forward .standard (.ofString "\\\\(\"\\\")\"[(0)])") 2 = 14 := ⟨⟨13, by decide⟩, by decide⟩
  refine ⟨ahead, ?_⟩
  exact (forward_matched_iff_backward_matched .standard Table.coherent_standard _ 2 14
    ⟨40, ""⟩ ⟨41, ""⟩ (by decide) (by decide) (by decide) (by decide) rfl (by decide)).1 ahead

end SyntaxPaint.Bracket

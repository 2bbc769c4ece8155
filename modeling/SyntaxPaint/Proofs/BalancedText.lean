import Mathlib.Data.Bool.AllAny
import SyntaxPaint.Proofs.Drawings
import SyntaxPaint.Proofs.Editing
import SyntaxPaint.Proofs.Facing
import SyntaxPaint.Proofs.GroupSearch
import SyntaxPaint.Random.SplitMix

/-!
Balanced specimens are groups of brackets. Whatever the source answers, the text of a specimen is
that of a tree of groups, with nothing but identifier characters and spaces between the brackets,
and the tree is no deeper than was asked for. So a search from either end of it comes to the other
end.
-/

namespace SyntaxPaint.Specimen

open SyntaxPaint.Bracket (Group Groups Pair Table Filler)
open Text (Cell Document Passage)
open SyntaxPaint.Random SyntaxPaint.Random.Drawing

def InIdentifier (c : Char) : Prop :=
  c.isAlphanum ∨ c = '_'

instance : DecidablePred InIdentifier :=
  fun c => inferInstanceAs (Decidable (c.isAlphanum ∨ c = '_'))

def Plain (c : Char) : Prop :=
  InIdentifier c ∨ c = ' '

instance : DecidablePred Plain :=
  fun c => inferInstanceAs (Decidable (InIdentifier c ∨ c = ' '))

theorem find?_of_plain {c : Char} (plain : Plain c) : Table.standard.find? c.toNat = none := by
  have delimiters : ∀ entry ∈ Table.standard.entries.toList, ¬Plain (Char.ofNat entry.1) := by
    decide
  cases listed : Table.standard.find? c.toNat with
  | none => rfl
  | some d =>
    have no := delimiters (c.toNat, d) (Table.mem_toList_iff.2 listed)
    simp only [Char.ofNat_toNat] at no
    exact absurd plain no

def cellsOf (text : List Char) : Passage :=
  .ofCodes (text.map Char.toNat)

@[simp] theorem cellsOf_append (text more : List Char) :
    cellsOf (text ++ more) = cellsOf text ++ cellsOf more := by
  simp [cellsOf, Passage.ofCodes]

def PlainRow (row : Groups "") : Prop :=
  ∀ cell ∈ row.fillers, ∃ c, cell.code = c.toNat ∧ Plain c

/-- A text is a row of groups with plain fillers, at most `depth` groups in each other. -/
def IsRow (depth : Nat) (text : List Char) : Prop :=
  ∃ row : Groups "", row.cells = cellsOf text ∧ row.depth ≤ depth ∧ PlainRow row

def IsGroup (depth : Nat) (text : List Char) : Prop :=
  ∃ g : Group "", g.cells = cellsOf text ∧ g.depth ≤ depth ∧ PlainRow g.inner

section Rows

variable {depth : Nat} {text more : List Char}

theorem isRow_nil : IsRow depth [] :=
  ⟨.nil, rfl, Nat.zero_le depth, List.forall_mem_nil _⟩

theorem IsRow.append (row : IsRow depth text) (after : IsRow depth more) :
    IsRow depth (text ++ more) := by
  obtain ⟨gs, cells, deep, plain⟩ := row
  obtain ⟨hs, cells', deep', plain'⟩ := after
  refine ⟨gs.append hs, by simp [cells, cells'], ?_, ?_⟩
  · rw [Groups.depth_append]
    exact Nat.max_le.2 ⟨deep, deep'⟩
  · intro cell among
    rw [Groups.fillers_append, List.mem_append] at among
    exact among.elim (plain cell) (plain' cell)

theorem isRow_flatten {pieces : List (List Char)} (each : ∀ piece ∈ pieces, IsRow depth piece) :
    IsRow depth pieces.flatten := by
  induction pieces with
  | nil => exact isRow_nil
  | cons piece pieces ih =>
    obtain ⟨here, others⟩ := List.forall_mem_cons.1 each
    exact here.append (ih others)

theorem isRow_of_plain (plain : ∀ c ∈ text, Plain c) : IsRow depth text := by
  induction text with
  | nil => exact isRow_nil
  | cons c text ih =>
    obtain ⟨here, others⟩ := List.forall_mem_cons.1 plain
    have one : IsRow depth [c] :=
      ⟨.filler ⟨c.toNat, ""⟩ (.inl (find?_of_plain here)) .nil, rfl, Nat.zero_le depth,
        fun cell among => ⟨c, by simp_all [Groups.fillers], here⟩⟩
    exact one.append (ih others)

theorem IsGroup.isRow (group : IsGroup depth text) : IsRow depth text := by
  obtain ⟨g, cells, deep, plain⟩ := group
  exact ⟨g.toGroups, cells, deep, by simpa [PlainRow, Group.toGroups, Groups.fillers] using plain⟩

theorem exists_pair {pair : Char × Char} (among : pair ∈ bracketPairs) :
    ∃ p : Pair, p.opener = pair.1.toNat ∧ p.closer = pair.2.toNat := by
  simp only [bracketPairs, List.mem_cons, List.not_mem_nil, or_false] at among
  rcases among with rfl | rfl | rfl
  · exact ⟨.round, rfl, rfl⟩
  · exact ⟨.square, rfl, rfl⟩
  · exact ⟨.curly, rfl, rfl⟩

theorem IsRow.enclose (row : IsRow depth text) {pair : Char × Char} (among : pair ∈ bracketPairs) :
    IsGroup (depth + 1) (pair.1 :: text ++ [pair.2]) := by
  obtain ⟨gs, cells, deep, plain⟩ := row
  obtain ⟨p, opener, closer⟩ := exists_pair among
  refine ⟨⟨p, gs⟩, ?_, ?_, plain⟩
  · simp [Group.cells_eq, cells, opener, closer, cellsOf, Passage.ofCodes]
  · simpa [Group.depth_eq] using deep

end Rows

section Yields

variable {σ : Type} [Source σ] [LawfulSource σ] {depth : Nat}

theorem yields_letter_inIdentifier :
    Yields (letter : Drawing σ (List Char)) fun text => ∀ c ∈ text, InIdentifier c := by
  have letters : ∀ c ∈ "abcdefghijklmnopqrstuvwxyzABCDEFGHIJKLMNOPQRSTUVWXYZ_".toList,
      InIdentifier c :=
    List.all_iff_forall_prop.1 (by decide)
  refine (yields_oneOf (by decide)).mono ?_
  rintro _ ⟨c, among, rfl⟩
  simpa using letters c among

theorem yields_digit_inIdentifier :
    Yields (digit : Drawing σ (List Char)) fun text => ∀ c ∈ text, InIdentifier c := by
  have digits : ∀ c ∈ "0123456789".toList, InIdentifier c := List.all_iff_forall_prop.1 (by decide)
  refine (yields_oneOf (by decide)).mono ?_
  rintro _ ⟨c, among, rfl⟩
  simpa using digits c among

theorem yields_identifier_inIdentifier :
    Yields (identifier : Drawing σ (List Char)) fun text => ∀ c ∈ text, InIdentifier c := by
  refine (yields_between (by decide)).bind fun length _ => ?_
  refine yields_letter_inIdentifier.bind fun first letters => ?_
  have one : Yields (do if ← chance .sevenTenths then letter else digit : Drawing σ (List Char))
      fun text => ∀ c ∈ text, InIdentifier c :=
    yields_ite_chance yields_letter_inIdentifier yields_digit_inIdentifier
  refine (yields_times one (length - 1)).map ?_
  rintro _ ⟨pieces, -, all, rfl⟩
  refine List.forall_mem_append.2 ⟨letters, fun c among => ?_⟩
  obtain ⟨piece, made, inside⟩ := List.mem_flatten.1 among
  exact all piece made c inside

theorem yields_filler : Yields (filler : Drawing σ (List Char)) (IsRow depth) := by
  have space : IsRow depth [' '] := isRow_of_plain (by simp [Plain])
  refine yields_ite_chance ?_ (yields_pure space)
  exact yields_identifier_inIdentifier.mono fun text all => isRow_of_plain fun c among =>
    .inl (all c among)

theorem yields_enclosed {inner : Option (Drawing σ (List Char))}
    (each : ∀ group ∈ inner, Yields group (IsGroup depth)) :
    Yields (enclosed inner) (IsGroup (depth + 1)) := by
  have row : Yields (item inner) (IsRow depth) := by
    cases inner with
    | none => exact yields_filler
    | some group =>
      exact yields_ite_chance ((each group rfl).mono fun _ => IsGroup.isRow) yields_filler
  refine (yields_pick (by decide)).bind fun pair among => ?_
  refine (yields_below (by decide)).bind fun count _ => ?_
  refine (yields_times row count).map ?_
  rintro _ ⟨pieces, -, all, rfl⟩
  exact (isRow_flatten all).enclose among

theorem yields_group (levels : Nat) :
    Yields (group levels : Drawing σ (List Char)) (IsGroup (levels + 1)) := by
  induction levels with
  | zero => exact yields_enclosed (by simp)
  | succ levels ih => exact yields_enclosed (by simpa using ih)

/-- A balanced specimen can be made from every state of a source. It is one group over round, square
and curly brackets with nothing but identifier characters and spaces in between, at least one and at
most `max 1 maxDepth` deep; as long as that is no deeper than a search follows brackets, its two
ends match each other. -/
theorem balanced_of_depth (maxDepth : Nat) (s : σ) :
    ∃ (g : Group "") (text : String) (s' : σ), balancedText maxDepth s = some (text, s') ∧
      Passage.ofString text = g.cells ∧
      (∀ cell ∈ g.inner.fillers, ∃ c : Char, cell.code = c.toNat ∧ (InIdentifier c ∨ c = ' ')) ∧
      1 ≤ g.depth ∧ g.depth ≤ max 1 maxDepth ∧
      (maxDepth ≤ 10 →
        let p := (Document.ofString text).cells
        Bracket.forward .standard p 0 = p.length ∧ Bracket.backward .standard p p.length = 0) := by
  obtain ⟨chars, s', drawn, g, cells, deep, plain⟩ := yields_group (maxDepth - 1) s
  have same : Passage.ofString (String.ofList chars) = g.cells := by
    rw [cells, cellsOf, Passage.ofString, String.toList_ofList]
  refine ⟨g, String.ofList chars, s', ?_, same, plain, ?_, by omega, ?_⟩
  · exact bind_eq_some_iff.2 ⟨chars, s', drawn, rfl⟩
  · rw [g.depth_eq]
    exact Nat.succ_pos _
  · intro shallow p
    obtain ⟨ahead, back⟩ := (Bracket.search_of_group "" g [] []).1 (by omega)
    have whole : p = [] ++ g.cells ++ [] := by
      rw [List.nil_append, List.append_nil, ← same]
      exact Document.cells_ofString _
    have size : p.length = g.cells.length := by
      rw [whole, List.nil_append, List.append_nil]
    rw [size, whole]
    simp only [List.length_nil, Nat.zero_add] at ahead back
    exact ⟨ahead, back rfl⟩

theorem balanced_of_depth_ten :
    LawfulSource SplitMix ∧ ∃ (text : String) (s' : SplitMix),
      balancedText 10 ⟨7⟩ = some (text, s') ∧
      let p := (Document.ofString text).cells
      Bracket.forward .standard p 0 = p.length ∧ Bracket.backward .standard p p.length = 0 := by
  obtain ⟨-, text, s', made, -, -, -, -, found⟩ := balanced_of_depth 10 (⟨7⟩ : SplitMix)
  exact ⟨inferInstance, text, s', made, found (Nat.le_refl 10)⟩

end Yields

end SyntaxPaint.Specimen

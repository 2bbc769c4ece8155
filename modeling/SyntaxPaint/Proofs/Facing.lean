import Mathlib.Data.List.Forall2
import SyntaxPaint.Proofs.Meeting

/-!
While a search runs, the search in the other direction that comes to the same place has open what
this one has open, each opening facing the one that it pairs with. So a run is undone mark by mark,
and a run that matches at its last mark matches at its first one in the other direction.
-/

namespace SyntaxPaint.Bracket

open Text (Cell Passage comparable)

/-- Brackets that differ name each other as partners. -/
structure Table.Coherent (table : Table) : Prop where
  left : ∀ c d, table.find? c = some (.left d) → d ≠ c → table.find? d = some (.right c)
  right : ∀ c d, table.find? d = some (.right c) → c ≠ d ∧ table.find? c = some (.left d)

def Table.answers (table : Table) (code : Nat) : Delimiter → Bool
  | .bracket .left partner => partner == code || table.find? partner == some (.right code)
  | .bracket .right partner => partner != code && table.find? partner == some (.left code)
  | .escape => true

theorem Table.mem_toList_iff {table : Table} {code : Nat} {d : Delimiter} :
    (code, d) ∈ table.entries.toList ↔ table.find? code = some d :=
  Std.TreeMap.mem_toList_iff_getElem?_eq_some

theorem Table.coherent_of_answers {table : Table}
    (answered : ∀ entry ∈ table.entries.toList, table.answers entry.1 entry.2 = true) :
    table.Coherent where
  left := by
    intro c d listed distinct
    have answer := answered (c, .left d) (mem_toList_iff.2 listed)
    simpa [answers, Delimiter.left, distinct] using answer
  right := by
    intro c d listed
    have answer := answered (d, .right c) (mem_toList_iff.2 listed)
    simpa [answers, Delimiter.right] using answer

theorem Table.coherent_standard : Table.standard.Coherent :=
  coherent_of_answers (by decide)

/-- An opening of a search and one of the search in the other direction that pair with each
other. -/
inductive Facing (table : Table) (direction : Direction) : Opening → Opening → Prop
  | quote {place other q : Nat} (listed : table.find? q = some (.left q)) :
      Facing table direction ⟨place, q, true⟩ ⟨other, q, true⟩
  | pair {place other c d : Nat} (distinct : c ≠ d)
      (opens : table.find? c = some (.bracket direction.opener d))
      (closes : table.find? d = some (.bracket direction.flip.opener c)) :
      Facing table direction ⟨place, d, false⟩ ⟨other, c, false⟩

namespace Table.Coherent

variable {table : Table} {direction : Direction} {m : Mark}

theorem partner (coherent : table.Coherent) {c d : Nat}
    (opens : table.find? c = some (.bracket direction.opener d)) (distinct : c ≠ d) :
    table.find? d = some (.bracket direction.flip.opener c) := by
  cases direction with
  | forward => exact coherent.left c d opens distinct.symm
  | backward => exact (coherent.right d c opens).2

theorem left_of_partner_eq (coherent : table.Coherent)
    (listed : table.find? m.code = some (.bracket m.side m.partner)) (same : m.partner = m.code) :
    m.side = .left := by
  cases side : m.side with
  | left => rfl
  | right =>
    rw [side, same] at listed
    exact absurd rfl (coherent.right _ _ listed).1

end Table.Coherent

namespace Facing

variable {table : Table} {direction : Direction} {m : Mark} {t x : Opening} {stack : Stack}

theorem of_opens (coherent : table.Coherent)
    (listed : table.find? m.code = some (.bracket m.side m.partner)) (opens : m.Opens direction) :
    ∃ u, Facing table direction m.opening u := by
  by_cases symmetric : m.IsSymmetric
  · refine ⟨⟨0, m.code, true⟩, ?_⟩
    rw [Mark.opening_of_symmetric symmetric]
    rw [symmetric.1, symmetric.2] at listed
    exact .quote listed
  · have distinct : m.code ≠ m.partner := fun same =>
      symmetric ⟨coherent.left_of_partner_eq listed same.symm, same.symm⟩
    rw [opens.resolve_left symmetric] at listed
    refine ⟨⟨0, m.code, false⟩, ?_⟩
    rw [Mark.opening_of_not_symmetric symmetric]
    exact .pair distinct listed (coherent.partner listed distinct)

theorem of_closes (facing : Facing table direction t x)
    (listed : table.find? m.code = some (.bracket m.side m.partner)) (waits : t.partner = m.code) :
    Facing table direction t m.opening := by
  cases facing with
  | @quote place other q quote =>
    obtain rfl : q = m.code := waits
    obtain ⟨left, same⟩ : m.side = .left ∧ m.partner = m.code := by
      simpa [Delimiter.left] using listed.symm.trans quote
    rw [Mark.opening_of_symmetric ⟨left, same⟩]
    exact .quote quote
  | @pair place other c d distinct opens closes =>
    obtain rfl : d = m.code := waits
    obtain ⟨side, same⟩ : m.side = direction.flip.opener ∧ m.partner = c := by
      simpa using listed.symm.trans closes
    have plain : ¬m.IsSymmetric := fun symmetric => distinct (same.symm.trans symmetric.2)
    rw [Mark.opening_of_not_symmetric plain, same]
    exact .pair distinct opens closes

theorem closes_flip (facing : Facing table direction m.opening x) (coherent : table.Coherent)
    (listed : table.find? m.code = some (.bracket m.side m.partner)) (opens : m.Opens direction)
    (others : Stack) :
    Stack.quotesOut (x :: others) m.code = false ∧
      Stack.closes (x :: others) direction.flip m.code m.side m.partner = true ∧
      x.partner = m.code := by
  by_cases symmetric : m.IsSymmetric
  · rw [Mark.opening_of_symmetric symmetric] at facing
    cases facing with
    | quote =>
      rw [Stack.closes_cons_of_symmetric symmetric]
      simp [Stack.quotesOut]
  · rw [Mark.opening_of_not_symmetric symmetric] at facing
    rw [opens.resolve_left symmetric] at listed
    cases facing with
    | @pair _ _ c _ distinct opensOther closes =>
      have different : m.code ≠ m.partner := by
        intro same
        have side := coherent.left_of_partner_eq (m := m)
          (by rw [opens.resolve_left symmetric]; exact listed) same.symm
        exact symmetric ⟨side, same.symm⟩
      have partner := closes.symm.trans (coherent.partner listed different)
      have same : c = m.code := by simpa using partner
      rw [Stack.closes_of_not_symmetric symmetric, opens.resolve_left symmetric]
      exact ⟨rfl, bne_iff_ne.2 direction.opener_flip_ne, same⟩

theorem opens_flip {facings : Stack}
    (listed : table.find? m.code = some (.bracket m.side m.partner))
    (plain : ∀ x ∈ facings.head?, x.symmetric = false ∧ ∃ t, Facing table direction t x)
    (closing : stack.closes direction m.code m.side m.partner = true) :
    facings.quotesOut m.code = false ∧
      facings.closes direction.flip m.code m.side m.partner = false := by
  have opens := Stack.opens_flip_of_closes closing
  cases facings with
  | nil => exact ⟨rfl, Stack.closes_nil_of_opens opens⟩
  | cons x rest =>
    obtain ⟨unquoted, t, facing⟩ := plain x rfl
    refine ⟨by simp [Stack.quotesOut, unquoted], ?_⟩
    by_cases symmetric : m.IsSymmetric
    · rw [Stack.closes_cons_of_symmetric symmetric]
      rw [symmetric.1, symmetric.2] at listed
      cases facing with
      | quote => contradiction
      | @pair _ _ c d distinct opensOther closes =>
        rw [beq_eq_false_iff_ne]
        rintro rfl
        obtain ⟨-, same⟩ : Side.left = direction.opener ∧ m.code = d := by
          simpa using listed.symm.trans opensOther
        exact distinct same
    · rw [Stack.closes_of_not_symmetric symmetric, opens.resolve_left symmetric, bne_self_eq_false]

end Facing

structure Orderly (table : Table) (direction : Direction) (stack : Stack) : Prop where
  length_le : stack.length ≤ maxNesting
  faced : ∀ t ∈ stack, ∃ x, Facing table direction t x
  plain : ∀ t ∈ stack.tail, t.symmetric = false

namespace Orderly

variable {table : Table} {direction : Direction} {caret : Nat} {stack next : Stack} {m : Mark}

theorem singleton {t x : Opening} (facing : Facing table direction t x) :
    Orderly table direction [t] where
  length_le := Nat.le_add_left 1 9
  faced := by
    intro u member
    rw [List.mem_singleton.1 member]
    exact ⟨x, facing⟩
  plain := by
    intro u member
    contradiction

/-- A quote is only opened where no quote is open, since there it would close or be passed over. -/
theorem unquoted_of_opens (orderly : Orderly table direction stack)
    (outside : stack.quotesOut m.code = false)
    (opening : stack.closes direction m.code m.side m.partner = false)
    (listed : table.find? m.code = some (.bracket m.side m.partner)) :
    ∀ t ∈ stack, t.symmetric = false := by
  cases stack with
  | nil => intro t member; contradiction
  | cons top rest =>
    intro t member
    cases List.mem_cons.1 member with
    | inr below => exact orderly.plain t below
    | inl here =>
      subst here
      obtain ⟨x, facing⟩ := orderly.faced t member
      cases facing with
      | pair => rfl
      | @quote _ _ q quote =>
        have same : q = m.code := by simpa [Stack.quotesOut] using outside
        subst same
        obtain ⟨left, partner⟩ : m.side = .left ∧ m.partner = m.code := by
          simpa [Delimiter.left] using listed.symm.trans quote
        rw [Stack.closes_cons_of_symmetric ⟨left, partner⟩] at opening
        simp at opening

theorem pass (orderly : Orderly table direction stack) (coherent : table.Coherent)
    (listed : table.find? m.code = some (.bracket m.side m.partner))
    (passed : stack.pass direction caret m = .ok next) : Orderly table direction next := by
  rcases Stack.pass_eq_ok passed with ⟨-, rfl⟩ | ⟨-, -, -, top, -, rfl⟩ |
    ⟨outside, opening, -, short, rfl⟩
  · exact orderly
  · refine ⟨?_, fun t member => orderly.faced t (List.mem_cons_of_mem _ member),
      fun t member => orderly.plain t (List.mem_of_mem_tail member)⟩
    have bound := orderly.length_le
    rw [List.length_cons] at bound
    omega
  · refine ⟨?_, ?_, orderly.unquoted_of_opens outside opening listed⟩
    · have bound := orderly.length_le
      rw [List.length_cons]
      omega
    · intro t member
      cases List.mem_cons.1 member with
      | inl here =>
        rw [here]
        exact Facing.of_opens coherent listed (Stack.opens_of_closes_eq_false opening)
      | inr below => exact orderly.faced t below

theorem passAll (orderly : Orderly table direction stack) (coherent : table.Coherent)
    {ms : List Mark} (listed : ∀ m ∈ ms, table.find? m.code = some (.bracket m.side m.partner))
    (passed : stack.passAll direction caret ms = .ok next) : Orderly table direction next := by
  induction ms generalizing stack with
  | nil =>
    cases passed
    exact orderly
  | cons m ms ih =>
    obtain ⟨middle, first, passed⟩ := Stack.passAll_cons_eq_ok passed
    exact ih (orderly.pass coherent (listed m List.mem_cons_self) first)
      (fun n later => listed n (List.mem_cons_of_mem _ later)) passed

end Orderly

section Reverse

variable {table : Table} {direction : Direction} {caret turn : Nat} {stack next facings : Stack}

theorem ne_nil_of_pass {m : Mark} (passed : stack.pass direction caret m = .ok next)
    (some : stack ≠ []) : next ≠ [] := by
  rcases Stack.pass_eq_ok passed with ⟨-, rfl⟩ | ⟨-, -, more, -, -, -⟩ | ⟨-, -, -, -, rfl⟩
  · exact some
  · exact more
  · exact List.cons_ne_nil _ _

/-- One mark undone: passed in the other direction, it leads back to what faces the openings before
it. -/
theorem pass_reverse (turn : Nat) (coherent : table.Coherent) {m : Mark}
    (listed : table.find? m.code = some (.bracket m.side m.partner))
    (orderly : Orderly table direction stack) (some : stack ≠ [])
    (passed : stack.pass direction caret m = .ok next)
    (facing : List.Forall₂ (Facing table direction) next facings) :
    ∃ back, facings.pass direction.flip turn m = .ok back ∧
      List.Forall₂ (Facing table direction) stack back := by
  rcases Stack.pass_eq_ok passed with ⟨quoted, rfl⟩ | ⟨outside, closing, more, top, waits, rfl⟩ |
    ⟨outside, opening, -, short, rfl⟩
  -- A mark inside quotes stays there, one that closed opens now, and one that opened closes now.
  · refine ⟨facings, ?_, facing⟩
    cases facing with
    | nil => exact absurd rfl some
    | @cons t x rest others here _ =>
      have inside : Stack.quotesOut (x :: others) m.code = true := by
        cases here with
        | quote => exact quoted
        | pair => contradiction
      exact Stack.pass_of_quoted inside
  · obtain ⟨x, faced⟩ := orderly.faced top List.mem_cons_self
    refine ⟨m.opening :: facings, ?_, .cons (faced.of_closes listed waits) facing⟩
    have plain : ∀ y ∈ facings.head?, y.symmetric = false ∧ ∃ t, Facing table direction t y := by
      intro y first
      cases facing with
      | nil => contradiction
      | @cons t z rest others here _ =>
        obtain rfl : z = y := by simpa using first
        have unquoted := orderly.plain t List.mem_cons_self
        refine ⟨?_, t, here⟩
        cases here with
        | quote => contradiction
        | pair => rfl
    obtain ⟨outsideThere, openingThere⟩ := Facing.opens_flip listed plain closing
    have nonempty : facings ≠ [] := by
      rintro rfl
      exact more (List.forall₂_nil_right_iff.1 facing)
    have short : facings.length ≠ maxNesting := by
      have bound := orderly.length_le
      rw [List.length_cons, facing.length_eq] at bound
      omega
    exact Stack.pass_of_opens outsideThere openingThere (fun none => absurd none nonempty) short
  · cases facing with
    | @cons _ x _ others here below =>
      refine ⟨others, ?_, below⟩
      have opens := Stack.opens_of_closes_eq_false opening
      obtain ⟨outsideThere, closingThere, waits⟩ := here.closes_flip coherent listed opens others
      have nonempty : others ≠ [] := by
        rintro rfl
        exact some (List.forall₂_nil_right_iff.1 below)
      rw [Stack.pass_of_closes outsideThere closingThere waits, if_neg (by simpa using nonempty)]

theorem passAll_reverse (turn : Nat) (coherent : table.Coherent) {ms : List Mark}
    (listed : ∀ m ∈ ms, table.find? m.code = some (.bracket m.side m.partner))
    (orderly : Orderly table direction stack) (some : stack ≠ [])
    (passed : stack.passAll direction caret ms = .ok next)
    (facing : List.Forall₂ (Facing table direction) next facings) :
    ∃ back, facings.passAll direction.flip turn ms.reverse = .ok back ∧
      List.Forall₂ (Facing table direction) stack back := by
  induction ms generalizing stack with
  | nil =>
    cases passed
    exact ⟨facings, rfl, facing⟩
  | cons m ms ih =>
    obtain ⟨middle, first, passed⟩ := Stack.passAll_cons_eq_ok passed
    have listedHere := listed m List.mem_cons_self
    obtain ⟨between, there, related⟩ :=
      ih (fun n later => listed n (List.mem_cons_of_mem _ later))
        (orderly.pass coherent listedHere first) (ne_nil_of_pass first some) passed
    obtain ⟨back, undone, related⟩ :=
      pass_reverse turn coherent listedHere orderly some first related
    refine ⟨back, ?_, related⟩
    rw [List.reverse_cons, Stack.passAll_append_of_ok there, Stack.passAll_singleton, undone]

theorem matched_reverse (coherent : table.Coherent) {ms : List Mark} {last : Mark} {offset : Nat}
    (listed : ∀ m ∈ ms ++ [last], table.find? m.code = some (.bracket m.side m.partner))
    (passed : Stack.passAll direction caret [] ms = .ok stack)
    (matched : stack.pass direction caret last = .error (.matched offset))
    (turned : direction.flip.atCaret turn last = true) :
    ∃ first rest, ms = first :: rest ∧ direction.atCaret caret first = true ∧
      Stack.passAll direction.flip turn [] (ms ++ [last]).reverse =
        .error (.matched first.offset) := by
  obtain ⟨-, closing, -, top, waits, rfl⟩ := Stack.pass_eq_matched.1 matched
  cases ms with
  | nil => simp at passed
  | cons first rest =>
    have listedFirst := listed first List.mem_cons_self
    have listedLast := listed last (List.mem_append_right _ List.mem_cons_self)
    have listedRest : ∀ m ∈ rest, table.find? m.code = some (.bracket m.side m.partner) :=
      fun m middle => listed m (by simp [middle])
    obtain ⟨opened, start, passed⟩ := Stack.passAll_cons_eq_ok passed
    rcases Stack.pass_eq_ok start with
      ⟨quoted, -⟩ | ⟨-, -, -, t, -, none⟩ | ⟨-, opening, near, -, rfl⟩
    · contradiction
    · contradiction
    · have opens := Stack.opens_of_closes_eq_false opening
      obtain ⟨x, facing⟩ := Facing.of_opens coherent listedFirst opens
      have orderly : Orderly table direction [first.opening] := .singleton facing
      obtain ⟨y, faced⟩ := (orderly.passAll coherent listedRest passed).faced top List.mem_cons_self
      -- The closing mark opens the search back, its opening facing the one that it closed.
      have turning : Stack.pass direction.flip turn [] last = .ok [last.opening] :=
        Stack.pass_of_opens rfl (Stack.closes_nil_of_opens (Stack.opens_flip_of_closes closing))
          (fun _ => turned) (by decide)
      obtain ⟨back, undone, related⟩ :=
        passAll_reverse turn coherent listedRest orderly (List.cons_ne_nil _ _) passed
          (.cons (faced.of_closes listedLast waits) .nil)
      obtain ⟨z, below, here, none, rfl⟩ := List.forall₂_cons_left_iff.1 related
      obtain rfl := List.forall₂_nil_left_iff.1 none
      obtain ⟨outsideThere, closingThere, waitsThere⟩ :=
        here.closes_flip coherent listedFirst opens []
      have reversed : (first :: rest ++ [last]).reverse = last :: (rest.reverse ++ [first]) := by
        simp
      refine ⟨first, rest, rfl, near rfl, ?_⟩
      rw [reversed, Stack.passAll_cons_of_ok turning, Stack.passAll_append_of_ok undone,
        Stack.passAll_singleton, Stack.pass_of_closes outsideThere closingThere waitsThere]
      rfl

end Reverse

end SyntaxPaint.Bracket

import SyntaxPaint.Scan.Painter

/-!
Stretches that follow one another without gaps. Whatever does so gives every offset one tag, and
making one stretch of neighbours with equal tags changes no tag.
-/

namespace SyntaxPaint

/-- Items with a first offset and an end that cover the offsets from one up to another, none of them
twice. -/
def Contiguous {α : Type} (first last : α → Nat) : (start stop : Nat) → List α → Prop
  | start, stop, [] => start = stop
  | start, stop, item :: rest =>
    first item = start ∧ first item < last item ∧ Contiguous first last (last item) stop rest

namespace Contiguous

variable {α : Type} {first last : α → Nat} {start stop offset : Nat} {items : List α} {item : α}

theorem le (covers : Contiguous first last start stop items) : start ≤ stop := by
  induction items generalizing start with
  | nil => exact Nat.le_of_eq covers
  | cons item rest ih =>
    obtain ⟨begins, nonempty, covers⟩ := covers
    have bound := ih covers
    omega

theorem map_iff {β : Type} {f : β → α} {items : List β} :
    Contiguous first last start stop (items.map f) ↔
      Contiguous (first ∘ f) (last ∘ f) start stop items := by
  induction items generalizing start with
  | nil => rfl
  | cons item rest ih => simp only [List.map_cons, Contiguous, ih, Function.comp_apply]

theorem bounds (covers : Contiguous first last start stop items) (member : item ∈ items) :
    start ≤ first item ∧ first item < last item ∧ last item ≤ stop := by
  induction items generalizing start with
  | nil => contradiction
  | cons head rest ih =>
    obtain ⟨begins, nonempty, covers⟩ := covers
    cases List.mem_cons.1 member with
    | inl here =>
      subst here
      exact ⟨Nat.le_of_eq begins.symm, nonempty, covers.le⟩
    | inr below =>
      obtain ⟨after, inside, before⟩ := ih covers below
      exact ⟨by omega, inside, before⟩

theorem exists_mem (covers : Contiguous first last start stop items) (after : start ≤ offset)
    (before : offset < stop) : ∃ item ∈ items, first item ≤ offset ∧ offset < last item := by
  induction items generalizing start with
  | nil =>
    obtain rfl : start = stop := covers
    omega
  | cons head rest ih =>
    obtain ⟨begins, nonempty, covers⟩ := covers
    by_cases here : offset < last head
    · exact ⟨head, List.mem_cons_self, by omega, here⟩
    · obtain ⟨item, member, inside⟩ := ih covers (by omega)
      exact ⟨item, List.mem_cons_of_mem _ member, inside⟩

end Contiguous

namespace Text

def tagAt? (stretches : List Stretch) (offset : Nat) : Option String :=
  (stretches.find? fun s => s.start ≤ offset ∧ offset < s.stop).map Stretch.tag

theorem tagAt?_cons (s : Stretch) (rest : List Stretch) (offset : Nat) :
    tagAt? (s :: rest) offset =
      if s.start ≤ offset ∧ offset < s.stop then some s.tag else tagAt? rest offset := by
  unfold tagAt?
  by_cases inside : s.start ≤ offset ∧ offset < s.stop
  · rw [List.find?_cons_of_pos (by simpa using inside), if_pos inside]
    rfl
  · rw [List.find?_cons_of_neg (by simpa using inside), if_neg inside]

abbrev Covers (start stop : Nat) (stretches : List Stretch) : Prop :=
  Contiguous Stretch.start Stretch.stop start stop stretches

variable {start stop offset : Nat} {s : Stretch} {stretches rest : List Stretch}

theorem tagAt?_eq_some (covers : Covers start stop stretches) (member : s ∈ stretches)
    (after : s.start ≤ offset) (before : offset < s.stop) :
    tagAt? stretches offset = some s.tag := by
  induction stretches generalizing start with
  | nil => contradiction
  | cons head rest ih =>
    rw [tagAt?_cons]
    cases List.mem_cons.1 member with
    | inl here => rw [here, if_pos ⟨here ▸ after, here ▸ before⟩]
    | inr below =>
      have beyond := (covers.2.2.bounds below).1
      rw [if_neg (by omega), ih covers.2.2 below]

theorem tagAt?_eq_none (covers : Covers start stop stretches) (outside : offset < start) :
    tagAt? stretches offset = none := by
  rw [tagAt?, Option.map_eq_none_iff, List.find?_eq_none]
  intro s member
  have beyond := (covers.bounds member).1
  simp only [decide_eq_true_eq]
  omega

theorem tagAt?_eq_none_of_le (covers : Covers start stop stretches) (outside : stop ≤ offset) :
    tagAt? stretches offset = none := by
  rw [tagAt?, Option.map_eq_none_iff, List.find?_eq_none]
  intro s member
  have inside := (covers.bounds member).2.2
  simp only [decide_eq_true_eq]
  omega

theorem covers_join (covers : Covers start stop (s :: rest)) : Covers start stop (s.join rest) := by
  cases rest with
  | nil => exact covers
  | cons next rest =>
    obtain ⟨begins, nonempty, follows, nonemptyNext, covers⟩ := covers
    rw [Stretch.join]
    by_cases same : s.tag = next.tag
    · rw [if_pos same]
      exact ⟨begins, by dsimp only; omega, covers⟩
    · rw [if_neg same]
      exact ⟨begins, nonempty, follows, nonemptyNext, covers⟩

theorem tagAt?_join (covers : Covers start stop (s :: rest)) (offset : Nat) :
    tagAt? (s.join rest) offset = tagAt? (s :: rest) offset := by
  cases rest with
  | nil => rfl
  | cons next rest =>
    obtain ⟨-, nonempty, follows, nonemptyNext, -⟩ := covers
    rw [Stretch.join]
    by_cases same : s.tag = next.tag
    · rw [if_pos same]
      simp only [tagAt?_cons, same]
      by_cases inside : s.start ≤ offset ∧ offset < next.stop
      · rw [if_pos inside]
        by_cases left : s.start ≤ offset ∧ offset < s.stop
        · rw [if_pos left]
        · rw [if_neg left, if_pos (by omega)]
      · rw [if_neg inside, if_neg (by omega), if_neg (by omega)]
    · rw [if_neg same]

theorem coalesce_covers (covers : Covers start stop stretches) :
    Covers start stop (coalesce stretches) ∧
      ∀ offset, tagAt? (coalesce stretches) offset = tagAt? stretches offset := by
  induction stretches generalizing start with
  | nil => exact ⟨covers, fun _ => rfl⟩
  | cons s rest ih =>
    obtain ⟨coversRest, same⟩ := ih covers.2.2
    have joined : Covers start stop (s :: coalesce rest) := ⟨covers.1, covers.2.1, coversRest⟩
    rw [coalesce_cons]
    refine ⟨covers_join joined, fun offset => ?_⟩
    rw [tagAt?_join joined, tagAt?_cons, tagAt?_cons, same]

end Text

end SyntaxPaint

import Mathlib.Data.List.Chain
import SyntaxPaint.Proofs.Coverage

/-!
The stretches of a text are its coarsest partition. Neighbours have different tags, each token lies
in one stretch, under the tag that the painter gives it, and `Text.eq_of_alternate` says that no
other stretches without equal neighbours give the same tags.
-/

namespace SyntaxPaint

namespace Contiguous

variable {α : Type} {first last : α → Nat} {start stop offset : Nat}
variable {items : List α} {item other : α}

theorem eq_of_inside (covers : Contiguous first last start stop items) (member : item ∈ items)
    (memberOther : other ∈ items) (inside : first item ≤ offset ∧ offset < last item)
    (insideOther : first other ≤ offset ∧ offset < last other) : item = other := by
  induction items generalizing start with
  | nil => contradiction
  | cons head rest ih =>
    obtain ⟨-, -, coversRest⟩ := covers
    cases List.mem_cons.1 member with
    | inl here =>
      cases List.mem_cons.1 memberOther with
      | inl hereOther => rw [here, hereOther]
      | inr below =>
        have beyond := (coversRest.bounds below).1
        rw [here] at inside
        omega
    | inr below =>
      cases List.mem_cons.1 memberOther with
      | inl hereOther =>
        have beyond := (coversRest.bounds below).1
        rw [hereOther] at insideOther
        omega
      | inr belowOther => exact ih coversRest below belowOther

end Contiguous

namespace Text

abbrev Alternate (stretches : List Stretch) : Prop :=
  stretches.IsChain fun s next => s.tag ≠ next.tag

variable {start stop offset : Nat} {s other : Stretch} {stretches others rest : List Stretch}

theorem Alternate.join (alternate : Alternate rest) (s : Stretch) : Alternate (s.join rest) := by
  cases rest with
  | nil => exact .singleton s
  | cons next rest =>
    rw [Stretch.join]
    by_cases same : s.tag = next.tag
    · rw [if_pos same]
      cases rest with
      | nil => exact .singleton _
      | cons second rest =>
        obtain ⟨differ, chain⟩ := List.isChain_cons_cons.1 alternate
        exact .cons_cons differ chain
    · rw [if_neg same]
      exact .cons_cons same alternate

theorem alternate_coalesce (stretches : List Stretch) : Alternate (coalesce stretches) := by
  induction stretches with
  | nil => exact .nil
  | cons s rest ih => exact ih.join s

theorem length_join_le (s : Stretch) (rest : List Stretch) :
    (s.join rest).length ≤ rest.length + 1 := by
  cases rest with
  | nil => exact Nat.le_refl _
  | cons next rest =>
    rw [Stretch.join]
    split
    · exact Nat.le_succ _
    · exact Nat.le_refl _

theorem length_coalesce_le (stretches : List Stretch) :
    (coalesce stretches).length ≤ stretches.length := by
  induction stretches with
  | nil => exact Nat.le_refl _
  | cons s rest ih =>
    calc (s.join (coalesce rest)).length ≤ (coalesce rest).length + 1 := length_join_le s _
      _ ≤ (s :: rest).length := Nat.succ_le_succ ih

theorem exists_mem_join (covers : Covers start stop (s :: rest)) (member : other ∈ s :: rest) :
    ∃ r ∈ s.join rest, r.start ≤ other.start ∧ other.stop ≤ r.stop ∧ r.tag = other.tag := by
  have itself (listed : other ∈ s.join rest) :
      ∃ r ∈ s.join rest, r.start ≤ other.start ∧ other.stop ≤ r.stop ∧ r.tag = other.tag :=
    ⟨other, listed, Nat.le_refl _, Nat.le_refl _, rfl⟩
  cases rest with
  | nil => exact itself member
  | cons next rest =>
    obtain ⟨-, nonempty, follows, nonemptyNext, -⟩ := covers
    rw [Stretch.join] at itself ⊢
    by_cases same : s.tag = next.tag
    · rw [if_pos same] at itself ⊢
      rcases List.mem_cons.1 member with rfl | later
      · exact ⟨_, List.mem_cons_self, Nat.le_refl _, by dsimp only; omega, same.symm⟩
      · rcases List.mem_cons.1 later with rfl | below
        · exact ⟨_, List.mem_cons_self, by dsimp only; omega, Nat.le_refl _, rfl⟩
        · exact itself (List.mem_cons_of_mem _ below)
    · rw [if_neg same] at itself ⊢
      exact itself member

theorem exists_mem_coalesce (covers : Covers start stop stretches) (member : s ∈ stretches) :
    ∃ r ∈ coalesce stretches, r.start ≤ s.start ∧ s.stop ≤ r.stop ∧ r.tag = s.tag := by
  induction stretches generalizing start with
  | nil => contradiction
  | cons head rest ih =>
    have joined : Covers start stop (head :: coalesce rest) :=
      ⟨covers.1, covers.2.1, (coalesce_covers covers.2.2).1⟩
    rw [coalesce_cons]
    cases List.mem_cons.1 member with
    | inl here => exact exists_mem_join joined (here ▸ List.mem_cons_self)
    | inr below =>
      obtain ⟨between, listed, after, before, tag⟩ := ih covers.2.2 below
      obtain ⟨r, found, first, last, same⟩ := exists_mem_join joined (List.mem_cons_of_mem _ listed)
      exact ⟨r, found, Nat.le_trans first after, Nat.le_trans before last, same.trans tag⟩

theorem stop_le_of_alternate (covers : Covers start stop (s :: rest))
    (coversOther : Covers start stop (other :: others)) (alternate : Alternate (s :: rest))
    (same : ∀ offset, tagAt? (s :: rest) offset = tagAt? (other :: others) offset)
    (tag : s.tag = other.tag) : other.stop ≤ s.stop := by
  obtain ⟨begins, nonempty, coversRest⟩ := covers
  have beginsOther : other.start = start := coversOther.1
  have bound : other.stop ≤ stop := (coversOther.bounds List.mem_cons_self).2.2
  refine Nat.le_of_not_lt fun longer => ?_
  -- Behind the first stretch stands the next one, whose tag is another, still inside `other`.
  cases rest with
  | nil =>
    obtain rfl : s.stop = stop := coversRest
    omega
  | cons next rest =>
    have differ : s.tag ≠ next.tag := (List.isChain_cons_cons.1 alternate).1
    obtain ⟨follows, nonemptyNext, -⟩ := coversRest
    have here := same s.stop
    rw [tagAt?_cons, if_neg (by omega), tagAt?_cons, if_pos (by omega), tagAt?_cons,
      if_pos (by omega)] at here
    exact differ (tag.trans (Option.some.inj here).symm)

theorem eq_of_alternate (covers : Covers start stop stretches)
    (coversOther : Covers start stop others) (alternate : Alternate stretches)
    (alternateOther : Alternate others)
    (same : ∀ offset, tagAt? stretches offset = tagAt? others offset) : stretches = others := by
  induction stretches generalizing start others with
  | nil =>
    obtain rfl : start = stop := covers
    cases others with
    | nil => rfl
    | cons other others =>
      have bounds := coversOther.bounds List.mem_cons_self
      omega
  | cons s rest ih =>
    cases others with
    | nil =>
      obtain rfl : start = stop := coversOther
      have bounds := covers.bounds List.mem_cons_self
      omega
    | cons other others =>
      have tag : s.tag = other.tag := by
        have first := same start
        rw [tagAt?_cons, if_pos ⟨Nat.le_of_eq covers.1, covers.1 ▸ covers.2.1⟩, tagAt?_cons,
          if_pos ⟨Nat.le_of_eq coversOther.1, coversOther.1 ▸ coversOther.2.1⟩] at first
        exact Option.some.inj first
      have stops : s.stop = other.stop :=
        Nat.le_antisymm
          (stop_le_of_alternate coversOther covers alternateOther (fun i => (same i).symm) tag.symm)
          (stop_le_of_alternate covers coversOther alternate same tag)
      have whole : s = other := by
        cases s
        cases other
        simp only [Stretch.mk.injEq]
        exact ⟨covers.1.trans coversOther.1.symm, stops, tag⟩
      subst whole
      rw [ih covers.2.2 coversOther.2.2 alternate.tail alternateOther.tail fun offset => ?_]
      by_cases before : offset < s.stop
      · rw [tagAt?_eq_none covers.2.2 before, tagAt?_eq_none coversOther.2.2 before]
      · have beyond := same offset
        rwa [tagAt?_cons, if_neg (fun inside => before inside.2), tagAt?_cons,
          if_neg (fun inside => before inside.2)] at beyond

end Text

namespace Tables

open Text (Covers Alternate tagAt?)

/-- The tokens of a text cover it without gaps, and so do its stretches, which are the fewest with
their tags. A token lies in one stretch, under the tag that the painter gives it. -/
theorem classify_partition (t : Tables) (painter : Painter) (codes : Array Nat) :
    let tokens := t.tokenize codes.toList
    let stretches := t.classify painter codes
    Contiguous Token.start Token.stop 0 codes.size tokens ∧
      Covers 0 codes.size stretches ∧
      (t.labelled tokens).map Prod.fst = tokens ∧
      (∀ p ∈ t.labelled tokens, ∃ s ∈ stretches,
        s.start ≤ p.1.start ∧ p.1.stop ≤ s.stop ∧ s.tag = painter codes p.1 p.2 ∧
          ∀ r ∈ stretches, r.start < p.1.stop → p.1.start < r.stop → r = s) ∧
      Alternate stretches ∧
      ∀ others, Covers 0 codes.size others →
        (∀ offset, tagAt? others offset = tagAt? stretches offset) →
          stretches.length ≤ others.length := by
  intro tokens stretches
  have covers : Covers 0 codes.size stretches := t.covers_classify painter codes
  have alternate : Alternate stretches := Text.alternate_coalesce _
  refine ⟨t.tokenize_contiguous codes.toList, covers, t.map_fst_labelled tokens, ?_, alternate, ?_⟩
  · rintro ⟨token, label⟩ member
    have bounds := bounds_of_mem_labelled member
    obtain ⟨s, listed, after, before, tag⟩ := Text.exists_mem_coalesce
      (t.covers_labelled painter codes) (List.mem_map_of_mem member)
    refine ⟨s, listed, after, before, tag, fun r found meets reaches => ?_⟩
    have nonempty := (covers.bounds found).2.1
    dsimp only at after before meets reaches
    have shared : r.start ≤ max r.start token.start ∧ max r.start token.start < r.stop := by omega
    exact covers.eq_of_inside found listed shared (by omega)
  · intro others coversOther same
    have whole : Text.coalesce others = stretches := by
      obtain ⟨coversWhole, tags⟩ := Text.coalesce_covers coversOther
      exact Text.eq_of_alternate coversWhole covers (Text.alternate_coalesce others) alternate
        fun offset => (tags offset).trans (same offset)
    rw [← whole]
    exact Text.length_coalesce_le others

end Tables

end SyntaxPaint

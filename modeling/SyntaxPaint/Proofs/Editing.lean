import SyntaxPaint.Text.Document

/-!
Documents that editing leads to. Their palettes number each tag once, so that painting a document
paints its cells.
-/

namespace SyntaxPaint.Text

namespace Palette

/-- Numbers and tags belong to one another in both directions, and the empty tag comes first. -/
structure Sound (p : Palette) : Prop where
  empty_first : p.tags[0]? = some ""
  ids_iff : ∀ (tag : String) (id : Nat), p.ids[tag]? = some id ↔ p.tags[id]? = some tag

theorem sound_plain : plain.Sound where
  empty_first := rfl
  ids_iff tag id := by
    simp only [plain, Std.HashMap.getElem?_insert, Std.HashMap.getElem?_empty, beq_iff_eq]
    by_cases none : "" = tag
    · subst none
      cases id <;> simp
    · rw [if_neg none]
      cases id <;> simp [none]

variable {p : Palette} {tag : String}

theorem tag_of_getElem? {id : Nat} (listed : p.tags[id]? = some tag) : p.tag id = tag := by
  rw [Palette.tag, Array.getD_eq_getD_getElem?, listed]
  rfl

theorem intern_spec (sound : p.Sound) (tag : String) :
    (p.intern tag).2.Sound ∧ (p.intern tag).2.tags[(p.intern tag).1]? = some tag ∧
      ∀ (id : Nat) (other : String), p.tags[id]? = some other →
        (p.intern tag).2.tags[id]? = some other := by
  unfold intern
  cases found : p.ids[tag]? with
  | some id => exact ⟨sound, (sound.ids_iff tag id).1 found, fun _ _ listed => listed⟩
  | none =>
    have kept (id : Nat) (other : String) (listed : p.tags[id]? = some other) :
        (p.tags.push tag)[id]? = some other := by
      have inside : id < p.tags.size := (Array.getElem?_eq_some_iff.1 listed).1
      rw [Array.getElem?_push_lt inside, ← Array.getElem?_eq_getElem inside, listed]
    refine ⟨⟨kept 0 "" sound.empty_first, fun other id => ?_⟩, Array.getElem?_push_size, kept⟩
    rw [Std.HashMap.getElem?_insert]
    by_cases same : tag = other
    · subst same
      rw [if_pos (beq_self_eq_true tag), Option.some.injEq, Array.getElem?_push]
      constructor
      · rintro rfl
        rw [if_pos rfl]
      · intro listed
        by_cases last : id = p.tags.size
        · exact last.symm
        · rw [if_neg last, ← sound.ids_iff, found] at listed
          contradiction
    · rw [if_neg (by simpa using same), sound.ids_iff, Array.getElem?_push]
      by_cases last : id = p.tags.size
      · subst last
        simp [same]
      · rw [if_neg last]

end Palette

namespace Document

/-- Every character has a number, and every number a tag. -/
structure Sound (d : Document) : Prop where
  palette : d.palette.Sound
  sizes : d.ids.size = d.chars.size
  known : ∀ id ∈ d.ids, id < d.palette.tags.size

inductive Reached : Document → Prop
  | ofString (s : String) : Reached (ofString s)
  | replace {d : Document} (start stop : Nat) (s : String) (before : Reached d) :
    Reached (d.replace start stop s)
  | retag {d : Document} (start stop : Nat) (tag : String) (before : Reached d) :
    Reached (d.retag start stop tag)

variable {d : Document}

theorem sound_ofString (s : String) : (ofString s).Sound where
  palette := Palette.sound_plain
  sizes := by simp [ofString]
  known id member := by
    have zero : id = 0 := by simpa [ofString] using (Array.mem_replicate.1 member).2
    subst zero
    exact Nat.zero_lt_one

theorem cells_ofString (s : String) : (ofString s).cells = .ofString s := by
  have plain : Palette.plain.tag 0 = "" := rfl
  simp only [cells, ofString, Passage.ofString, Passage.ofCodes, List.size_toArray,
    Array.toList_replicate]
  generalize s.toList = chars
  induction chars with
  | nil => rfl
  | cons c chars ih => simp [List.replicate_succ, plain, ih]

theorem mem_of_mem_extract {ids : Array Nat} {id start stop : Nat}
    (member : id ∈ ids.extract start stop) :
    id ∈ ids := by
  obtain ⟨i, inside, rfl⟩ := Array.mem_extract_iff_getElem.1 member
  exact Array.getElem_mem _

theorem Sound.replace (sound : d.Sound) (start stop : Nat) (s : String) :
    (d.replace start stop s).Sound where
  palette := sound.palette
  sizes := by
    have sizes := sound.sizes
    simp [Document.replace, sizes]
  known id member := by
    simp only [Document.replace, Array.mem_append] at member
    rcases member with (before | inserted) | after
    · exact sound.known id (mem_of_mem_extract before)
    · rw [(Array.mem_replicate.1 inserted).2]
      exact (Array.getElem?_eq_some_iff.1 sound.palette.empty_first).1
    · exact sound.known id (mem_of_mem_extract after)

theorem mem_fill {ids : Array Nat} {number id start count : Nat}
    (member : id ∈ fill number count start ids) :
    id = number ∨ id ∈ ids := by
  obtain ⟨i, found⟩ := Array.mem_iff_getElem?.1 member
  have inside : i < ids.size := by
    rw [← size_fill number count start ids]
    exact (Array.getElem?_eq_some_iff.1 found).1
  rw [getElem?_fill _ _ _ _ _ inside] at found
  split at found
  · exact .inl (Option.some.inj found).symm
  · exact .inr (Array.mem_of_getElem? found)

theorem Sound.retag (sound : d.Sound) (start stop : Nat) (tag : String) :
    (d.retag start stop tag).Sound := by
  obtain ⟨palette, listed, kept⟩ := Palette.intern_spec sound.palette tag
  unfold Document.retag
  dsimp only
  split
  · refine ⟨palette, by simpa using sound.sizes, fun id member => ?_⟩
    rcases mem_fill member with rfl | before
    · exact (Array.getElem?_eq_some_iff.1 listed).1
    · have some := Array.getElem?_eq_getElem (sound.known id before)
      exact (Array.getElem?_eq_some_iff.1 (kept id _ some)).1
  · exact sound

theorem Reached.sound (reached : d.Reached) : d.Sound := by
  induction reached with
  | ofString s => exact sound_ofString s
  | replace start stop s _ ih => exact ih.replace start stop s
  | retag start stop tag _ ih => exact ih.retag start stop tag

theorem getElem?_cells (d : Document) (i : Nat) :
    d.cells[i]? =
      d.chars[i]?.bind fun c => d.ids[i]?.map fun id => ⟨c.toNat, d.palette.tag id⟩ := by
  rw [cells, List.getElem?_zipWith, Array.getElem?_toList, Array.getElem?_toList]
  cases d.chars[i]? <;> cases d.ids[i]? <;> rfl

theorem Sound.cells_retag (sound : d.Sound) (start stop : Nat) (tag : String) :
    (d.retag start stop tag).cells = d.cells.retag start stop tag := by
  obtain ⟨-, listed, kept⟩ := Palette.intern_spec sound.palette tag
  apply List.ext_getElem?
  intro i
  rw [Passage.retag, List.getElem?_mapIdx, getElem?_cells, getElem?_cells, chars_retag]
  by_cases inside : i < d.ids.size
  · have number := sound.known d.ids[i] (Array.getElem_mem inside)
    have same : (d.palette.intern tag).2.tag d.ids[i] = d.palette.tag d.ids[i] := by
      have before := Array.getElem?_eq_getElem number
      rw [Palette.tag_of_getElem? (kept _ _ before), Palette.tag_of_getElem? before]
    have painted := Palette.tag_of_getElem? listed
    have length : i < d.length := by
      rw [Document.length, ← sound.sizes]
      exact inside
    have character := Array.getElem?_eq_getElem length
    unfold Document.retag
    dsimp only
    rw [character, Array.getElem?_eq_getElem inside]
    by_cases nonempty : start < min stop d.length
    · rw [if_pos nonempty]
      dsimp only
      rw [getElem?_fill _ _ _ _ _ inside, Array.getElem?_eq_getElem inside]
      by_cases here : start ≤ i ∧ i < stop
      · rw [if_pos (by omega)]
        simp [here, painted]
      · rw [if_neg (by omega)]
        simp only [Option.bind_some, Option.map_some, same, if_neg here]
    · rw [if_neg nonempty, Array.getElem?_eq_getElem inside]
      have outside : ¬(start ≤ i ∧ i < stop) := by omega
      simp only [Option.bind_some, Option.map_some, if_neg outside]
  · have none : d.chars[i]? = none := Array.getElem?_eq_none (by have := sound.sizes; omega)
    rw [none]
    rfl

end Document

end SyntaxPaint.Text

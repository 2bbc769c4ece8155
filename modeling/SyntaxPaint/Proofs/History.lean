import SyntaxPaint.Proofs.Partition
import SyntaxPaint.Proofs.Repaint

/-!
Highlighting forgets what was done to a document before. It gives the stretches of the text alone,
leaves exactly these as the runs of the document, and changes nothing when it is done again. As
everywhere, a document whose tags are numbered with 32 bits has met fewer than `2 ^ 32` of them.
-/

namespace SyntaxPaint

open Text

inductive Change
  | replace (start stop : Nat) (s : String)
  | retag (start stop : Nat) (tag : String)
  | highlight (h : Highlighter)

def Change.apply (d : Document) : Change → Document
  | .replace start stop s => d.replace start stop s
  | .retag start stop tag => d.retag start stop tag
  | .highlight h => (h.highlight d).2

def Text.Document.after (s : String) (changes : List Change) : Document :=
  changes.foldl Change.apply (.ofString s)

theorem Text.Document.Reached.apply {d : Document} (reached : d.Reached) (change : Change) :
    (change.apply d).Reached := by
  cases change with
  | replace start stop s => exact reached.replace start stop s
  | retag start stop tag => exact reached.retag start stop tag
  | highlight h => exact reached.highlight h

theorem Text.Document.Reached.foldl {d : Document} (reached : d.Reached) (changes : List Change) :
    (changes.foldl Change.apply d).Reached := by
  induction changes generalizing d with
  | nil => exact reached
  | cons change changes ih => exact ih (reached.apply change)

theorem Text.Document.reached_after (s : String) (changes : List Change) :
    (after s changes).Reached :=
  (Reached.ofString s).foldl changes

namespace Text.Passage

variable {start stop : Nat}

theorem covers_mapIdx (p : Passage) (start : Nat) :
    Covers start (start + p.length) (p.mapIdx fun i c => ⟨start + i, start + i + 1, c.tag⟩) := by
  induction p generalizing start with
  | nil => rfl
  | cons c p ih =>
    have rest := ih (start + 1)
    simp only [Nat.add_assoc, Nat.add_comm 1] at rest
    rw [List.mapIdx_cons]
    exact ⟨rfl, Nat.lt_succ_self _, rest⟩

theorem covers_runs (p : Passage) : Covers 0 p.length p.runs := by
  have covers := p.covers_mapIdx 0
  simp only [Nat.zero_add] at covers
  exact (coalesce_covers covers).1

theorem tagAt?_runs (p : Passage) (offset : Nat) :
    tagAt? p.runs offset = p[offset]?.map Cell.tag := by
  have covers := p.covers_mapIdx 0
  simp only [Nat.zero_add] at covers
  rw [runs, (coalesce_covers covers).2]
  cases found : p[offset]? with
  | none => exact tagAt?_eq_none_of_le covers (List.getElem?_eq_none_iff.1 found)
  | some c =>
    have listed : (⟨offset, offset + 1, c.tag⟩ : Stretch) ∈ p.mapIdx fun i c => ⟨i, i + 1, c.tag⟩ :=
      List.mem_of_getElem? (by rw [List.getElem?_mapIdx, found]; rfl)
    exact tagAt?_eq_some covers listed (Nat.le_refl _) (Nat.lt_succ_self _)

theorem runs_eq_of_alternate {p : Passage} {stretches : List Stretch}
    (covers : Covers 0 p.length stretches) (alternate : Alternate stretches)
    (tags : ∀ offset, tagAt? stretches offset = p[offset]?.map Cell.tag) : p.runs = stretches :=
  eq_of_alternate p.covers_runs covers (alternate_coalesce _) alternate fun offset =>
    (p.tagAt?_runs offset).trans (tags offset).symm

end Text.Passage

namespace Highlighter

variable {p : Passage}

theorem classify_eq_of_codes {p q : Passage} (h : Highlighter) (same : p.codes = q.codes) :
    h.classify p = h.classify q :=
  congrArg (fun codes : List Nat => h.tables.classify h.painter codes.toArray) same

theorem covers_classify (h : Highlighter) (p : Passage) : Covers 0 p.length (h.classify p) := by
  have covers := h.tables.covers_classify h.painter p.codes.toArray
  rwa [List.size_toArray, Passage.codes, List.length_map] at covers

theorem tag_highlight (h : Highlighter) (p : Passage) (offset : Nat) :
    (h.highlight p).2[offset]?.map Cell.tag = tagAt? (h.classify p) offset := by
  rw [getElem?_highlight, Option.map_map]
  cases found : p[offset]? with
  | none =>
    exact (tagAt?_eq_none_of_le (h.covers_classify p) (List.getElem?_eq_none_iff.1 found)).symm
  | some c =>
    have inside := (List.getElem?_eq_some_iff.1 found).1
    obtain ⟨s, listed, after, before⟩ :=
      (h.covers_classify p).exists_mem (Nat.zero_le offset) inside
    rw [tagAt?_eq_some (h.covers_classify p) listed after before]
    rfl

theorem runs_highlight (h : Highlighter) (p : Passage) : (h.highlight p).2.runs = h.classify p := by
  have length : (h.highlight p).2.length = p.length := by
    simpa [Passage.codes] using congrArg List.length (codes_highlight h p)
  exact Passage.runs_eq_of_alternate (length ▸ h.covers_classify p) (alternate_coalesce _)
    fun offset => (h.tag_highlight p offset).symm

theorem classify_highlight (h : Highlighter) (p : Passage) :
    h.classify (h.highlight p).2 = h.classify p :=
  h.classify_eq_of_codes (codes_highlight h p)

end Highlighter

namespace Text.Document

variable {d : Document}

theorem Sound.codes_cells (sound : d.Sound) : d.cells.codes = d.chars.toList.map Char.toNat := by
  have sizes := sound.sizes
  apply List.ext_getElem?
  intro i
  rw [Passage.codes, List.getElem?_map, getElem?_cells, List.getElem?_map, Array.getElem?_toList]
  by_cases inside : i < d.chars.size
  · simp [inside, sizes]
  · simp [inside]

theorem Sound.length_cells (sound : d.Sound) : d.cells.length = d.length := by
  simp [cells, length, sound.sizes]

theorem Sound.tag?_eq (sound : d.Sound) (offset : Nat) :
    d.tag? offset = d.cells[offset]?.map Cell.tag := by
  rw [getElem?_cells, tag?]
  have sizes := sound.sizes
  by_cases inside : offset < d.chars.size
  · simp [inside, sizes]
  · simp [inside, sizes]

theorem chars_ofString_text (d : Document) : (ofString d.text).chars = d.chars := by
  simp [ofString, text]

theorem classify_cells (d : Document) (h : Highlighter) : h.classify d.cells = h.classify d := rfl

theorem Sound.classify_ofString_text (sound : d.Sound) (h : Highlighter) :
    h.classify (ofString d.text) = h.classify d := by
  have codes : (ofString d.text).cells.codes = d.cells.codes := by
    rw [(sound_ofString d.text).codes_cells, sound.codes_cells, chars_ofString_text]
  exact h.classify_eq_of_codes codes

theorem text_paintStretches (d : Document) (stretches : List Stretch) :
    (paintStretches d stretches).text = d.text := by
  induction stretches generalizing d with
  | nil => rfl
  | cons s rest ih =>
    rw [paintStretches_cons, ih]
    split
    · rfl
    · exact text_retag d s.start s.stop s.tag

theorem text_highlight (d : Document) (h : Highlighter) : (h.highlight d).2.text = d.text :=
  (text_paintStretches _ _).trans (text_retag d 0 _ "")

/-- Highlighting keeps the text and gives the stretches that the text has without its paint. These
are then the runs of the document, each character has the tag of its stretch, and highlighting once
more gives the same stretches and leaves every tag as it is. -/
theorem highlight_after (h : Highlighter) (s : String) (changes : List Change) :
    let d := after s changes
    let stretches := (h.highlight d).1
    let painted := (h.highlight d).2
    painted.text = d.text ∧
      stretches = h.classify (ofString d.text) ∧
      painted.runs = stretches ∧
      (∀ offset < d.length, ∃ r ∈ stretches,
        r.start ≤ offset ∧ offset < r.stop ∧ painted.tag? offset = some r.tag) ∧
      (h.highlight painted).1 = stretches ∧
      ∀ offset, (h.highlight painted).2.tag? offset = painted.tag? offset := by
  intro d stretches painted
  have sound : d.Sound := (reached_after s changes).sound
  have soundPainted : painted.Sound := ((reached_after s changes).highlight h).sound
  have soundAgain : (h.highlight painted).2.Sound :=
    (((reached_after s changes).highlight h).highlight h).sound
  have cells : painted.cells = (h.highlight d.cells).2 := sound.cells_highlight h
  have first : stretches = h.classify d.cells := h.highlight_fst d
  have second : (h.highlight painted).1 = h.classify painted.cells := h.highlight_fst painted
  refine ⟨text_highlight d h, ?_, ?_, ?_, ?_, ?_⟩
  · rw [first, sound.classify_ofString_text, classify_cells]
  · rw [Document.runs, cells, h.runs_highlight, first]
  · intro offset inside
    have covers := h.covers_classify d.cells
    rw [sound.length_cells] at covers
    obtain ⟨r, listed, after, before⟩ := covers.exists_mem (Nat.zero_le offset) inside
    refine ⟨r, first ▸ listed, after, before, ?_⟩
    rw [soundPainted.tag?_eq, cells, h.tag_highlight]
    exact tagAt?_eq_some covers listed after before
  · rw [second, cells, h.classify_highlight, first]
  · intro offset
    rw [soundAgain.tag?_eq, soundPainted.cells_highlight, h.tag_highlight,
      soundPainted.tag?_eq, cells, h.tag_highlight, h.classify_highlight]

end Text.Document

end SyntaxPaint

import Mathlib.Data.List.Nodup
import SyntaxPaint.Proofs.History

/-!
A document is a list of characters with their tags, however it is stored. Edits and paint do to the
document what they do to the list, so that after any calls everything that can be seen of one is
what can be seen of the other.
-/

namespace SyntaxPaint

namespace Text

abbrev Tagged := List (Char × String)

namespace Tagged

def ofString (s : String) : Tagged :=
  s.toList.map fun c => (c, "")

def text (p : Tagged) : String :=
  String.ofList (p.map Prod.fst)

def slice (p : Tagged) (start stop : Nat) : String :=
  let stop := min stop p.length
  text ((p.take stop).drop (min start stop))

/-- Puts characters without paint in the place of those from `start` up to `stop`; the others keep
their tags. -/
def replace (p : Tagged) (start stop : Nat) (s : String) : Tagged :=
  let stop := min stop p.length
  p.take (min start stop) ++ ofString s ++ p.drop stop

def retag (p : Tagged) (start stop : Nat) (tag : String) : Tagged :=
  p.mapIdx fun i c => if start ≤ i ∧ i < min stop p.length then (c.1, tag) else c

def cells (p : Tagged) : Passage :=
  p.map fun c => ⟨c.1.toNat, c.2⟩

instance : Buffer Tagged := ⟨cells, retag⟩

end Tagged

end Text

open Text

def Change.applyTagged (p : Tagged) : Change → Tagged
  | .replace start stop s => p.replace start stop s
  | .retag start stop tag => p.retag start stop tag
  | .highlight h => (h.highlight p).2

def Text.Tagged.after (s : String) (changes : List Change) : Tagged :=
  changes.foldl Change.applyTagged (.ofString s)

namespace Text

theorem Palette.Sound.nodup {p : Palette} (sound : p.Sound) : p.tags.toList.Nodup := by
  rw [List.nodup_iff_getElem?_ne_getElem?]
  intro i j before inside same
  rw [Array.getElem?_toList, Array.getElem?_toList] at same
  have last : p.tags[j]? = some p.tags[j] := Array.getElem?_eq_getElem inside
  have first := (sound.ids_iff _ i).2 (same.trans last)
  rw [(sound.ids_iff _ j).2 last, Option.some.injEq] at first
  omega

namespace Tagged

variable {p : Tagged} {start stop : Nat} {tag : String}

theorem cells_injective : Function.Injective cells := by
  refine List.map_injective_iff.2 fun c d same => ?_
  simp only [Cell.mk.injEq] at same
  exact Prod.ext (Char.toNat_inj.1 same.1) same.2

theorem cells_retag (p : Tagged) (start stop : Nat) (tag : String) :
    (p.retag start stop tag).cells = p.cells.retag start stop tag := by
  apply List.ext_getElem?
  intro i
  simp only [cells, retag, Passage.retag, List.getElem?_map, List.getElem?_mapIdx, Option.map_map]
  cases found : p[i]? with
  | none => rfl
  | some c =>
    have inside := (List.getElem?_eq_some_iff.1 found).1
    by_cases here : start ≤ i ∧ i < stop
    · have kept : start ≤ i ∧ i < min stop p.length := by omega
      simp only [Option.map_some, Function.comp_apply, if_pos here, if_pos kept]
    · have kept : ¬(start ≤ i ∧ i < min stop p.length) := by omega
      simp only [Option.map_some, Function.comp_apply, if_neg here, if_neg kept]

theorem cells_paintStretches (p : Tagged) (stretches : List Stretch) :
    (paintStretches p stretches).cells = paintStretches p.cells stretches :=
  view_paintStretches cells (fun _ => True) (fun _ _ _ _ _ => trivial)
    (fun p start stop tag _ => cells_retag p start stop tag) trivial stretches

theorem cells_highlight (p : Tagged) (h : Highlighter) :
    (h.highlight p).2.cells = (h.highlight p.cells).2 := by
  refine (cells_paintStretches (p.retag 0 p.cells.codes.toArray.size "") _).trans ?_
  rw [cells_retag]
  rfl

end Tagged

namespace Document

variable {d : Document}

def tagged (d : Document) : Tagged :=
  d.chars.toList.zip (d.ids.toList.map d.palette.tag)

@[simp] theorem cells_tagged (d : Document) : d.tagged.cells = d.cells := by
  simp [tagged, Tagged.cells, cells, List.zip, List.map_zipWith, List.zipWith_map_right]

theorem Sound.map_fst_tagged (sound : d.Sound) : d.tagged.map Prod.fst = d.chars.toList :=
  List.map_fst_zip (by simp [sound.sizes])

theorem Sound.length_tagged (sound : d.Sound) : d.tagged.length = d.length := by
  simp [tagged, length, sound.sizes]

theorem ofString_eq_zip (s : String) :
    Tagged.ofString s = s.toList.zip (List.replicate s.toList.length "") := by
  rw [Tagged.ofString, List.map_prod_left_eq_zip, List.map_const']

theorem tagged_ofString (s : String) : (ofString s).tagged = .ofString s := by
  have plain : Palette.plain.tag 0 = "" := rfl
  simp [tagged, ofString, ofString_eq_zip, plain]

theorem toList_extract_size {α : Type} (xs : Array α) (start : Nat) :
    (xs.extract start).toList = xs.toList.drop start := by
  rw [Array.toList_extract, List.extract_eq_take_drop]
  exact List.take_of_length_le (by simp)

theorem Sound.tagged_replace (sound : d.Sound) (start stop : Nat) (s : String) :
    (d.replace start stop s).tagged = d.tagged.replace start stop s := by
  have sizes := sound.sizes
  have plain : d.palette.tag 0 = "" := Palette.tag_of_getElem? sound.palette.empty_first
  rw [Tagged.replace, sound.length_tagged, ofString_eq_zip, tagged, tagged]
  simp only [Document.replace, Array.toList_append, toList_extract_size]
  simp only [Array.toList_extract, List.extract_eq_take_drop, Nat.sub_zero, List.drop_zero,
    Array.toList_replicate, List.map_append, List.map_take, List.map_drop, List.map_replicate,
    plain, List.size_toArray]
  rw [List.zip_append (by simp [sizes]), List.zip_append (by simp [sizes])]
  simp only [List.zip, List.take_zipWith, List.drop_zipWith]

theorem Sound.tagged_retag (sound : d.Sound) (start stop : Nat) (tag : String) :
    (d.retag start stop tag).tagged = d.tagged.retag start stop tag := by
  apply Tagged.cells_injective
  rw [cells_tagged, sound.cells_retag, Tagged.cells_retag, cells_tagged]

theorem Sound.tagged_highlight (sound : d.Sound) (h : Highlighter) :
    (h.highlight d).2.tagged = (h.highlight d.tagged).2 := by
  apply Tagged.cells_injective
  rw [cells_tagged, sound.cells_highlight, Tagged.cells_highlight, cells_tagged]

theorem Sound.tagged_apply (sound : d.Sound) (change : Change) :
    (change.apply d).tagged = change.applyTagged d.tagged := by
  cases change with
  | replace start stop s => exact sound.tagged_replace start stop s
  | retag start stop tag => exact sound.tagged_retag start stop tag
  | highlight h => exact sound.tagged_highlight h

theorem Reached.tagged_foldl (reached : d.Reached) (changes : List Change) :
    (changes.foldl Change.apply d).tagged = changes.foldl Change.applyTagged d.tagged := by
  induction changes generalizing d with
  | nil => rfl
  | cons change changes ih =>
    rw [List.foldl_cons, List.foldl_cons, ih (reached.apply change), reached.sound.tagged_apply]

theorem tagged_after (s : String) (changes : List Change) :
    (after s changes).tagged = Tagged.after s changes := by
  rw [after, Tagged.after, (Reached.ofString s).tagged_foldl, tagged_ofString]

theorem Sound.text_tagged (sound : d.Sound) : d.tagged.text = d.text := by
  rw [Tagged.text, sound.map_fst_tagged, text]

theorem Sound.slice_tagged (sound : d.Sound) (start stop : Nat) :
    d.tagged.slice start stop = d.slice start stop := by
  simp [Tagged.slice, Tagged.text, slice, sound.length_tagged, List.map_drop, List.map_take,
    sound.map_fst_tagged, List.extract_eq_take_drop, List.drop_take]

theorem Sound.code?_eq (sound : d.Sound) (offset : Nat) :
    d.code? offset = d.tagged[offset]?.map fun c => c.1.toNat := by
  have chars := congrArg (fun l : List Char => l[offset]?.map Char.toNat) sound.map_fst_tagged
  simp only [List.getElem?_map, Option.map_map, Array.getElem?_toList] at chars
  exact chars.symm

theorem getElem?_cells_tagged (d : Document) (offset : Nat) :
    d.cells[offset]?.map Cell.tag = d.tagged[offset]?.map Prod.snd := by
  rw [← cells_tagged, Tagged.cells, List.getElem?_map, Option.map_map]
  rfl

theorem runs_eq_iff (d : Document) (runs : List Stretch) :
    runs = d.runs ↔ Covers 0 d.tagged.length runs ∧ Alternate runs ∧
      ∀ offset, tagAt? runs offset = d.tagged[offset]?.map Prod.snd := by
  have length : d.tagged.length = d.cells.length := by
    rw [← cells_tagged, Tagged.cells, List.length_map]
  simp only [length, ← getElem?_cells_tagged]
  constructor
  · rintro rfl
    exact ⟨d.cells.covers_runs, alternate_coalesce _, d.cells.tagAt?_runs⟩
  · rintro ⟨covers, alternate, tags⟩
    exact (Passage.runs_eq_of_alternate covers alternate tags).symm

theorem retag_of_empty {start stop : Nat} (empty : min stop d.length ≤ start) (tag : String) :
    d.retag start stop tag = d := by
  rw [retag]
  exact if_neg (Nat.not_lt.2 empty)

/-- The stored form keeps together whatever is done: there are as many numbers as characters, each
number stands for a tag, and tags and numbers belong to one another. (The numbers lie below the
number of tags, so that 32 bits hold them while there are fewer than `2 ^ 32` tags.) All that can be
seen of the document is what can be seen of the list of characters with their tags to which the same
has been done. -/
theorem after_eq_tagged (s : String) (changes : List Change) :
    let d := after s changes
    let p := Tagged.after s changes
    (d.chars.size = d.ids.size ∧ (∀ id ∈ d.ids, id < d.palette.tags.size) ∧
        d.palette.tags.toList.Nodup ∧ d.palette.tags[0]? = some "" ∧
        ∀ (tag : String) (id : Nat),
          d.palette.ids[tag]? = some id ↔ d.palette.tags[id]? = some tag) ∧
      d.text = p.text ∧ d.length = p.length ∧
      (∀ start stop, d.slice start stop = p.slice start stop) ∧
      (∀ offset, d.code? offset = p[offset]?.map fun c => c.1.toNat) ∧
      (∀ offset, d.tag? offset = p[offset]?.map Prod.snd) ∧
      (∀ runs, runs = d.runs ↔ Covers 0 p.length runs ∧ Alternate runs ∧
        ∀ offset, tagAt? runs offset = p[offset]?.map Prod.snd) ∧
      ∀ start stop tag, min stop d.length ≤ start → d.retag start stop tag = d := by
  intro d p
  have sound : d.Sound := (reached_after s changes).sound
  have same : d.tagged = p := tagged_after s changes
  rw [← same]
  refine ⟨⟨sound.sizes.symm, sound.known, sound.palette.nodup, sound.palette.empty_first,
      sound.palette.ids_iff⟩,
    sound.text_tagged.symm, sound.length_tagged.symm,
    fun start stop => (sound.slice_tagged start stop).symm, sound.code?_eq, fun offset => ?_,
    d.runs_eq_iff, fun start stop tag empty => retag_of_empty empty tag⟩
  rw [sound.tag?_eq, getElem?_cells_tagged]

end Document

end Text

end SyntaxPaint

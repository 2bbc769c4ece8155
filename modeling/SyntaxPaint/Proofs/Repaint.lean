import SyntaxPaint.Proofs.Coverage
import SyntaxPaint.Proofs.Editing
import SyntaxPaint.Scan.Highlighter

/-!
What a text looks like after it has been painted anew: each character has the tag of its stretch,
whatever had been painted on it before.
-/

namespace SyntaxPaint

open Text

/-- Painting a text and then looking at it is looking at it and then painting what is seen, if that
is so for one stretch of every text of some kind, and a stretch keeps the kind. -/
theorem view_paintStretches {β γ : Type} [Buffer β] [Buffer γ] (view : β → γ) (kind : β → Prop)
    (keeps : ∀ b start stop tag, kind b → kind (Buffer.retag b start stop tag))
    (commutes : ∀ b start stop tag, kind b →
      view (Buffer.retag b start stop tag) = Buffer.retag (view b) start stop tag)
    {b : β} (holds : kind b) (stretches : List Stretch) :
    view (paintStretches b stretches) = paintStretches (view b) stretches := by
  unfold paintStretches
  induction stretches generalizing b with
  | nil => rfl
  | cons s rest ih =>
    rw [List.foldl_cons, List.foldl_cons]
    by_cases none : s.tag = ""
    · rw [if_pos none, if_pos none, ih holds]
    · rw [if_neg none, if_neg none, ih (keeps b s.start s.stop s.tag holds),
        commutes b s.start s.stop s.tag holds]

section Passage

variable {p : Passage} {start stop i : Nat} {stretches : List Stretch}

theorem getElem?_retag (p : Passage) (start stop : Nat) (tag : String) (i : Nat) :
    (p.retag start stop tag)[i]? =
      p[i]?.map fun c => if start ≤ i ∧ i < stop then { c with tag } else c := by
  rw [Passage.retag, List.getElem?_mapIdx]

theorem paintStretches_cons (p : Passage) (s : Stretch) (rest : List Stretch) :
    paintStretches p (s :: rest) =
      paintStretches (if s.tag = "" then p else p.retag s.start s.stop s.tag) rest := rfl

theorem getElem?_paintStretches (covers : Covers start stop stretches)
    (clean : ∀ i c, start ≤ i → p[i]? = some c → c.tag = "") (i : Nat) :
    (paintStretches p stretches)[i]? =
      p[i]?.map fun c => { c with tag := (tagAt? stretches i).getD c.tag } := by
  -- Every stretch begins where the one before it stops, so the cells from there on are still clean.
  induction stretches generalizing start p with
  | nil => exact Option.map_id'.symm
  | cons s rest ih =>
    obtain ⟨begins, nonempty, coversRest⟩ := covers
    have painted (i : Nat) : (if s.tag = "" then p else p.retag s.start s.stop s.tag)[i]? =
        p[i]?.map fun c => if s.start ≤ i ∧ i < s.stop then { c with tag := s.tag } else c := by
      by_cases none : s.tag = ""
      · rw [if_pos none]
        cases found : p[i]? with
        | none => rfl
        | some c =>
          rw [Option.map_some]
          by_cases inside : s.start ≤ i ∧ i < s.stop
          · have plain := clean i c (by omega) found
            rw [if_pos inside, none, ← plain]
          · rw [if_neg inside]
      · rw [if_neg none, getElem?_retag]
    rw [paintStretches_cons, ih coversRest, painted, Option.map_map]
    · congr 1
      funext c
      rw [Function.comp_apply, tagAt?_cons]
      by_cases inside : s.start ≤ i ∧ i < s.stop
      · rw [if_pos inside, if_pos inside, tagAt?_eq_none coversRest inside.2]
        rfl
      · rw [if_neg inside, if_neg inside]
    · intro i c after found
      rw [painted, Option.map_eq_some_iff] at found
      obtain ⟨d, before, rfl⟩ := found
      rw [if_neg (by omega)]
      exact clean i d (by omega) before

theorem getElem?_highlight (h : Highlighter) (p : Passage) (i : Nat) :
    (h.highlight p).2[i]? =
      p[i]?.map fun c => ⟨c.code, (tagAt? (h.classify p) i).getD ""⟩ := by
  have size : p.codes.toArray.size = p.length := by
    rw [List.size_toArray, Passage.codes, List.length_map]
  have covers := h.tables.covers_classify h.painter p.codes.toArray
  have clean : ∀ i c, 0 ≤ i → (p.retag 0 p.codes.toArray.size "")[i]? = some c → c.tag = "" := by
    intro i c _ found
    rw [getElem?_retag, Option.map_eq_some_iff] at found
    obtain ⟨d, listed, rfl⟩ := found
    have inside := (List.getElem?_eq_some_iff.1 listed).1
    rw [if_pos ⟨Nat.zero_le i, by omega⟩]
  refine (getElem?_paintStretches covers clean i).trans ?_
  rw [getElem?_retag, Option.map_map]
  cases found : p[i]? with
  | none => rfl
  | some c =>
    have inside := (List.getElem?_eq_some_iff.1 found).1
    rw [Option.map_some, Option.map_some, Function.comp_apply, if_pos ⟨Nat.zero_le i, by omega⟩]
    rfl

theorem codes_highlight (h : Highlighter) (p : Passage) : (h.highlight p).2.codes = p.codes := by
  apply List.ext_getElem?
  intro i
  rw [Passage.codes, Passage.codes, List.getElem?_map, List.getElem?_map, getElem?_highlight,
    Option.map_map]
  rfl

end Passage

namespace Text.Document

variable {d : Document}

theorem paintStretches_cons (d : Document) (s : Stretch) (rest : List Stretch) :
    paintStretches d (s :: rest) =
      paintStretches (if s.tag = "" then d else d.retag s.start s.stop s.tag) rest := rfl

theorem Sound.cells_paintStretches (sound : d.Sound) (stretches : List Stretch) :
    (paintStretches d stretches).cells = paintStretches d.cells stretches :=
  view_paintStretches cells Sound (fun _ start stop tag sound => sound.retag start stop tag)
    (fun _ start stop tag sound => sound.cells_retag start stop tag) sound stretches

theorem Sound.cells_highlight (sound : d.Sound) (h : Highlighter) :
    (h.highlight d).2.cells = (h.highlight d.cells).2 := by
  refine (Sound.cells_paintStretches (sound.retag 0 d.cells.codes.toArray.size "") _).trans ?_
  rw [sound.cells_retag]
  rfl

theorem Reached.paintStretches (reached : d.Reached) (stretches : List Stretch) :
    (paintStretches d stretches).Reached := by
  induction stretches generalizing d with
  | nil => exact reached
  | cons s rest ih =>
    rw [paintStretches_cons]
    by_cases none : s.tag = ""
    · rw [if_pos none]
      exact ih reached
    · rw [if_neg none]
      exact ih (reached.retag s.start s.stop s.tag)

theorem Reached.highlight (reached : d.Reached) (h : Highlighter) : (h.highlight d).2.Reached :=
  Reached.paintStretches (reached.retag 0 _ "") _

end Text.Document

end SyntaxPaint

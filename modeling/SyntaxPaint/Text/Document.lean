import Std.Data.HashMap
import SyntaxPaint.Text.Cell

/-!
A document holds text with one tag per character. Tags are numbered by a palette, in which the empty
tag comes first, so that a character carries a number instead of a text. `Document.cells` reads a
document as a plain list of cells.

The numbers of tags have no bound here. A document whose numbers have 32 bits is meant as long as
its palette has met fewer than `2 ^ 32` different tags; until then no number is too large for them.
-/

namespace SyntaxPaint.Text

structure Palette where
  tags : Array String
  ids : Std.HashMap String Nat

namespace Palette

def plain : Palette :=
  ⟨#[""], (∅ : Std.HashMap String Nat).insert "" 0⟩

def tag (p : Palette) (id : Nat) : String :=
  p.tags.getD id ""

def intern (p : Palette) (tag : String) : Nat × Palette :=
  match p.ids[tag]? with
  | some id => (id, p)
  | none => (p.tags.size, ⟨p.tags.push tag, p.ids.insert tag p.tags.size⟩)

end Palette

structure Document where
  chars : Array Char
  ids : Array Nat
  palette : Palette

namespace Document

def ofString (s : String) : Document :=
  let chars := s.toList.toArray
  ⟨chars, Array.replicate chars.size 0, .plain⟩

def length (d : Document) : Nat :=
  d.chars.size

def text (d : Document) : String :=
  String.ofList d.chars.toList

/-- The text from `start` up to `stop`; offsets past the end mean the end. -/
def slice (d : Document) (start stop : Nat) : String :=
  let stop := min stop d.length
  String.ofList (d.chars.extract (min start stop) stop).toList

def code? (d : Document) (offset : Nat) : Option Nat :=
  d.chars[offset]?.map Char.toNat

def tag? (d : Document) (offset : Nat) : Option String :=
  d.ids[offset]?.map d.palette.tag

def cells (d : Document) : Passage :=
  List.zipWith (fun c id => ⟨c.toNat, d.palette.tag id⟩) d.chars.toList d.ids.toList

/-- Replaces the text from `start` up to `stop`; the inserted characters carry the empty tag and the
others keep theirs. -/
def replace (d : Document) (start stop : Nat) (s : String) : Document :=
  let stop := min stop d.length
  let start := min start stop
  let inserted := s.toList.toArray
  { d with
    chars := d.chars.extract 0 start ++ inserted ++ d.chars.extract stop
    ids := d.ids.extract 0 start ++ Array.replicate inserted.size 0 ++ d.ids.extract stop }

def fill (id : Nat) : (count start : Nat) → Array Nat → Array Nat
  | 0, _, ids => ids
  | count + 1, start, ids => fill id count (start + 1) (ids.setIfInBounds start id)

@[simp] theorem size_fill (id count start : Nat) (ids : Array Nat) :
    (fill id count start ids).size = ids.size := by
  induction count generalizing start ids with
  | zero => rfl
  | succ count ih => rw [fill, ih, Array.size_setIfInBounds]

theorem getElem?_fill (id count start : Nat) (ids : Array Nat) (i : Nat) (inside : i < ids.size) :
    (fill id count start ids)[i]? = if start ≤ i ∧ i < start + count then some id else ids[i]? := by
  induction count generalizing start ids with
  | zero =>
    have outside : ¬(start ≤ i ∧ i < start + 0) := by omega
    rw [fill, if_neg outside]
  | succ count ih =>
    rw [fill, ih _ _ (by simpa using inside)]
    by_cases first : start = i
    · subst first
      have later : ¬(start + 1 ≤ start ∧ start < start + 1 + count) := by omega
      have here : start ≤ start ∧ start < start + (count + 1) := by omega
      rw [if_neg later, if_pos here, Array.getElem?_setIfInBounds_self_of_lt inside]
    · have same : (start + 1 ≤ i ∧ i < start + 1 + count) ↔
          (start ≤ i ∧ i < start + (count + 1)) := by
        omega
      simp only [same, Array.getElem?_setIfInBounds_ne first]

def retag (d : Document) (start stop : Nat) (tag : String) : Document :=
  let stop := min stop d.length
  if start < stop then
    let known := d.palette.intern tag
    { d with ids := fill known.1 (stop - start) start d.ids, palette := known.2 }
  else d

@[simp] theorem chars_retag (d : Document) (start stop : Nat) (tag : String) :
    (d.retag start stop tag).chars = d.chars := by
  simp only [retag]
  split <;> rfl

@[simp] theorem text_retag (d : Document) (start stop : Nat) (tag : String) :
    (d.retag start stop tag).text = d.text := by
  simp [text]

def runs (d : Document) : List Stretch :=
  d.cells.runs

end Document

class Buffer (β : Type) where
  cells : β → Passage
  retag : β → (start stop : Nat) → (tag : String) → β

instance : Buffer Document := ⟨Document.cells, Document.retag⟩

instance : Buffer Passage := ⟨id, Passage.retag⟩

end SyntaxPaint.Text

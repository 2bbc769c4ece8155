import SyntaxPaint.Proofs.Stretches

/-!
The tokens of a text cover it without gaps, whatever the tables are, and so do its stretches. Each
character has the tag that the painter gives its token.
-/

namespace SyntaxPaint

open Text (tagAt? coalesce)

namespace Scan

/-- Onsets, last first, that leave no character before `stop` without a token. -/
def Descends : (stop : Nat) → List Onset → Prop
  | stop, [] => stop = 0
  | stop, o :: before => o.start < stop ∧ Descends o.start before

theorem descends_step (t : Tables) {s : Scan} (descends : Descends s.offset s.onsets) (code : Nat) :
    Descends (s.step t code).offset (s.step t code).onsets := by
  unfold step
  dsimp only
  split
  · next stays =>
    cases onsets : s.onsets with
    | nil => exact absurd onsets stays.2
    | cons o before =>
      rw [onsets] at descends
      exact ⟨Nat.lt_succ_of_lt descends.1, descends.2⟩
  · exact ⟨Nat.lt_succ_self _, descends⟩

theorem descends_run (t : Tables) {s : Scan} (descends : Descends s.offset s.onsets)
    (codes : List Nat) :
    Descends (s.run t codes).offset (s.run t codes).onsets := by
  induction codes generalizing s with
  | nil => exact descends
  | cons code rest ih => exact ih (descends_step t descends code)

theorem close_contiguous {stop last : Nat} {onsets : List Onset} {later : List Token}
    (descends : Descends stop onsets) (covers : Contiguous Token.start Token.stop stop last later) :
    Contiguous Token.start Token.stop 0 last (close stop onsets later) := by
  induction onsets generalizing stop later with
  | nil =>
    obtain rfl : stop = 0 := descends
    exact covers
  | cons o before ih => exact ih descends.2 ⟨rfl, descends.1, covers⟩

end Scan

namespace Tables

variable {t : Tables} {tokens first later : List Token} {token : Token}

@[simp] theorem offset_scan (t : Tables) (codes : List Nat) :
    (t.scan codes).offset = codes.length := by
  rw [scan, Scan.offset_run]
  exact Nat.zero_add _

theorem descends_scan (t : Tables) (codes : List Nat) :
    Scan.Descends (t.scan codes).offset (t.scan codes).onsets := by
  have nothing : Scan.Descends (Scan.start t).offset (Scan.start t).onsets := rfl
  exact Scan.descends_run t nothing codes

theorem tokenize_contiguous (t : Tables) (codes : List Nat) :
    Contiguous Token.start Token.stop 0 codes.length (t.tokenize codes) := by
  have descends := t.descends_scan codes
  rw [offset_scan] at descends
  rw [tokenize, Scan.tokens, offset_scan]
  exact Scan.close_contiguous descends rfl

theorem labelled_cons (t : Tables) (token : Token) (later : List Token) :
    t.labelled (token :: later) = t.labelBefore token (t.labelled later) := rfl

theorem map_fst_labelBefore (t : Tables) (token : Token) (later : List (Token × String)) :
    (t.labelBefore token later).map Prod.fst = token :: later.map Prod.fst := by
  cases later <;> rfl

theorem map_fst_labelled (t : Tables) (tokens : List Token) :
    (t.labelled tokens).map Prod.fst = tokens := by
  induction tokens with
  | nil => rfl
  | cons token later ih => rw [labelled_cons, map_fst_labelBefore, ih]

theorem bounds_of_mem_labelled {codes : List Nat} {label : String}
    (member : (token, label) ∈ t.labelled (t.tokenize codes)) :
    token.start < token.stop ∧ token.stop ≤ codes.length := by
  have scanned : token ∈ t.tokenize codes := by
    rw [← t.map_fst_labelled (t.tokenize codes)]
    exact List.mem_map_of_mem member
  exact ((t.tokenize_contiguous codes).bounds scanned).2

theorem exists_mem_labelled (t : Tables) {codes : List Nat} {offset : Nat}
    (inside : offset < codes.length) :
    ∃ token label, (token, label) ∈ t.labelled (t.tokenize codes) ∧ token.start ≤ offset ∧
      offset < token.stop := by
  obtain ⟨token, scanned, after, before⟩ :=
    (t.tokenize_contiguous codes).exists_mem (Nat.zero_le offset) inside
  rw [← t.map_fst_labelled (t.tokenize codes), List.mem_map] at scanned
  obtain ⟨⟨token, label⟩, member, rfl⟩ := scanned
  exact ⟨token, label, member, after, before⟩

theorem head?_labelled (t : Tables) (tokens : List Token) :
    (t.labelled tokens).head?.map Prod.fst = tokens.head? := by
  rw [← List.head?_map, map_fst_labelled]

theorem labelled_append (apart : ∀ next ∈ later.head?, next.joined = false) :
    t.labelled (first ++ later) = t.labelled first ++ t.labelled later := by
  induction first with
  | nil => rfl
  | cons token first ih =>
    rw [List.cons_append, labelled_cons, ih, labelled_cons]
    cases labels : t.labelled first with
    | cons next rest => rfl
    | nil =>
      cases labelsLater : t.labelled later with
      | nil => rfl
      | cons next rest =>
        have head : later.head? = some next.1 := by rw [← t.head?_labelled, labelsLater]; rfl
        have unjoined := apart next.1 head
        simp [labelBefore, unjoined]

theorem covers_labelled (t : Tables) (painter : Painter) (codes : Array Nat) :
    Text.Covers 0 codes.size
      ((t.labelled (t.tokenize codes.toList)).map fun (token, label) =>
        ⟨token.start, token.stop, painter codes token label⟩) := by
  have covers := t.tokenize_contiguous codes.toList
  rw [← t.map_fst_labelled (t.tokenize codes.toList), Contiguous.map_iff] at covers
  exact Contiguous.map_iff.2 covers

theorem covers_classify (t : Tables) (painter : Painter) (codes : Array Nat) :
    Text.Covers 0 codes.size (t.classify painter codes) :=
  (Text.coalesce_covers (t.covers_labelled painter codes)).1

theorem classify_congr {painter other : Painter} {codes others : Array Nat}
    (scanned : t.tokenize codes.toList = t.tokenize others.toList)
    (paints : ∀ token label, (token, label) ∈ t.labelled (t.tokenize codes.toList) →
      painter codes token label = other others token label) :
    t.classify painter codes = t.classify other others := by
  unfold classify
  rw [← scanned]
  congr 1
  refine List.map_congr_left fun (token, label) member => ?_
  dsimp only
  rw [paints token label member]

theorem tagAt?_classify {painter : Painter} {codes : Array Nat} {label : String} {offset : Nat}
    (member : (token, label) ∈ t.labelled (t.tokenize codes.toList)) (after : token.start ≤ offset)
    (before : offset < token.stop) :
    tagAt? (t.classify painter codes) offset = some (painter codes token label) := by
  have stretches := t.covers_labelled painter codes
  unfold classify
  rw [(Text.coalesce_covers stretches).2]
  exact Text.tagAt?_eq_some stretches (List.mem_map_of_mem member) after before

end Tables

end SyntaxPaint
